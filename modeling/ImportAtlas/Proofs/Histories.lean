import ImportAtlas.Proofs.Sessions

/-!
# Look-ups one after another

Computations that follow each other go on from the state that the one before left, whether it answered or
stopped. If all of them respect a relation between states, none shows what came before it (`outcomes_eq`). So a
look-up answers after any history as it does with nothing remembered, and a file has the same dependencies whatever
was analysed before.
-/

namespace ImportAtlas

section

variable {σ α : Type}

def outcome (x : EStateM Fault σ α) (s : σ) : Except Fault α :=
  match x s with
  | .ok a _ => .ok a
  | .error fault _ => .error fault

def stateAfter (x : EStateM Fault σ α) (s : σ) : σ :=
  match x s with
  | .ok _ s' => s'
  | .error _ s' => s'

def outcomes : List (EStateM Fault σ α) → σ → List (Except Fault α)
  | [], _ => []
  | x :: xs, s => outcome x s :: outcomes xs (stateAfter x s)

variable {R : σ → σ → Prop}

theorem Respects.outcome_eq {x : EStateM Fault σ α} (hx : Respects R x) {s t : σ} (h : R s t) :
    outcome x s = outcome x t := by
  have hend := hx s t h
  unfold outcome
  generalize x s = rs at hend ⊢
  generalize x t = rt at hend ⊢
  cases hend with
  | ok a _ _ => rfl
  | error fault _ _ => rfl

theorem Respects.stateAfter {x : EStateM Fault σ α} (hx : Respects R x) {s t : σ} (h : R s t) :
    R s (stateAfter x s) := by
  have hend := hx s t h
  unfold ImportAtlas.stateAfter
  generalize x s = rs at hend ⊢
  generalize x t = rt at hend
  cases hend with
  | ok a hs _ => exact hs
  | error fault hs _ => exact hs

theorem Leaves.stateAfter {Q : Fault → Prop} {x : EStateM Fault σ α} (hx : Leaves R Q x) (s : σ) :
    R s (stateAfter x s) := by
  have hend := hx s
  unfold ImportAtlas.stateAfter
  generalize x s = r at hend ⊢
  cases hend with
  | ok a hs => exact hs
  | error hs _ => exact hs

theorem outcomes_eq (hR : Equivalence R) {xs : List (EStateM Fault σ α)} (hxs : ∀ x ∈ xs, Respects R x) (s : σ) :
    outcomes xs s = xs.map fun x => outcome x s := by
  -- the state moves on with every computation, but only to states related to the first one
  have run : ∀ (xs : List (EStateM Fault σ α)) (t : σ), (∀ x ∈ xs, Respects R x) → R s t →
      outcomes xs t = xs.map fun x => outcome x s := by
    intro xs
    induction xs with
    | nil => intro t _ _; rfl
    | cons x xs ih =>
      intro t hxs hst
      have hx := hxs x List.mem_cons_self
      have hafter : R s (stateAfter x t) := hR.trans hst (hx.stateAfter (hR.refl t))
      rw [outcomes, List.map_cons, hx.outcome_eq hst, ih _ (fun y hy => hxs y (List.mem_cons_of_mem x hy)) hafter]
  exact run xs s hxs (hR.refl s)

end

structure Inquiry where
  module : Value
  symbol : Value
  dir : Option String
  level : Value

def Inquiry.lookUp (finder : Finder) (q : Inquiry) :
    EStateM Fault ModuleCache (Option String × Option (List Problem)) :=
  finder.importedFile q.module q.symbol q.dir q.level

structure Analysis where
  options : SearchOptions
  path : String

def Analysis.run (a : Analysis) : Run Needs :=
  Run.dependenciesOf a.options a.path

def Session.forgetful (s : Session) : Session := { s with cache := [] }

/-- **No history shows.** Every look-up of a sequence that starts with an empty cache answers, or stops, as it does
with an empty cache of its own; and so does every search for the dependencies of a file. -/
theorem same_with_any_history (finder : Finder) (inquiries : List Inquiry) (s : Session) (analyses : List Analysis) :
    outcomes (inquiries.map (Inquiry.lookUp finder)) [] =
      inquiries.map (fun q => outcome (q.lookUp finder) []) ∧
    outcomes (analyses.map Analysis.run) s.forgetful =
      analyses.map (fun a => outcome a.run s.forgetful) := by
  constructor
  · have hlookUps : ∀ x ∈ inquiries.map (Inquiry.lookUp finder), Respects finder.Agree x := by
      intro x hx
      obtain ⟨q, _, rfl⟩ := List.mem_map.1 hx
      exact finder.respects_importedFile q.module q.symbol q.dir q.level
    rw [outcomes_eq finder.agree_equivalence hlookUps, List.map_map]
    rfl
  · have hruns : ∀ x ∈ analyses.map Analysis.run, Respects Session.Alike x := by
      intro x hx
      obtain ⟨a, _, rfl⟩ := List.mem_map.1 hx
      exact Run.respects_dependenciesOf a.options a.path
    rw [outcomes_eq Session.alike_equivalence hruns, List.map_map]
    rfl

end ImportAtlas
