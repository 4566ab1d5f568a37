import ImportAtlas.Files.Update
import ImportAtlas.Modules.Dotted
import ImportAtlas.Proofs.Runs
import ImportAtlas.Value.Printer

/-!
# Faults

What is put together from computations stops only at faults of theirs. The operations on values, files and trees stop
at plain faults: there no program ends on its own account, and no loop goes on for ever. So no program that stops at one
of them ends well.
-/

namespace ImportAtlas

/-- No program that stops at the fault ends well. -/
def Fault.Fatal (fault : Fault) : Prop := fault ≠ .exit (.code 0)

def Fault.Plain (fault : Fault) : Prop :=
  match fault with
  | .endless => False
  | .exit _ => False
  | _ => True

theorem Fault.Plain.fatal {fault : Fault} (h : fault.Plain) : fault.Fatal := by
  rintro rfl
  exact h

theorem Fault.Plain.raised {fault : Fault} (h : fault.Plain) : fault.Raised := by
  rintro rfl
  exact h

section

variable {α β σ : Type} {Q Q' : Fault → Prop}

/-- Where an answer is missing, the fault is one of `Q`. -/
def Faults (Q : Fault → Prop) (x : Except Fault α) : Prop := ∀ fault, x = .error fault → Q fault

theorem Faults.imp {x : Except Fault α} (h : Faults Q x) (hQ : ∀ fault, Q fault → Q' fault) : Faults Q' x :=
  fun fault hx => hQ fault (h fault hx)

theorem faults_ok (a : α) : Faults Q (.ok a : Except Fault α) := nofun

theorem faults_error {fault : Fault} (h : Q fault) : Faults Q (.error fault : Except Fault α) := by
  intro _ he
  cases he
  exact h

theorem faults_bind {x : Except Fault α} {f : α → Except Fault β} (hx : Faults Q x) (hf : ∀ a, Faults Q (f a)) :
    Faults Q (x >>= f) := by
  cases x with
  | ok a => exact hf a
  | error fault => exact faults_error (hx fault rfl)

theorem faults_map {x : Except Fault α} (f : α → β) (hx : Faults Q x) : Faults Q (f <$> x) := by
  cases x with
  | ok a => exact faults_ok _
  | error fault => exact faults_error (hx fault rfl)

theorem faults_mapM {g : α → Except Fault β} (hg : ∀ x, Faults Q (g x)) (xs : List α) : Faults Q (xs.mapM g) := by
  intro fault h
  obtain ⟨x, _, hx⟩ := mapM_error h
  exact hg x fault hx

theorem faults_foldlM {f : β → α → Except Fault β} (hf : ∀ b x, Faults Q (f b x)) (xs : List α) :
    ∀ b, Faults Q (xs.foldlM f b) := by
  induction xs with
  | nil => exact fun b => faults_ok b
  | cons x xs ih =>
    intro b
    rw [List.foldlM_cons]
    exact faults_bind (hf b x) ih

theorem faults_forM {f : α → Except Fault PUnit} (hf : ∀ x, Faults Q (f x)) (xs : List α) : Faults Q (xs.forM f) := by
  induction xs with
  | nil => exact faults_ok _
  | cons x xs ih => exact faults_bind (hf x) fun _ => ih

theorem faults_anyM {p : α → Except Fault Bool} (hp : ∀ x, Faults Q (p x)) (xs : List α) : Faults Q (xs.anyM p) := by
  induction xs with
  | nil => exact faults_ok _
  | cons x xs ih =>
    rw [List.anyM]
    refine faults_bind (hp x) fun found => ?_
    cases found with
    | true => exact faults_ok _
    | false => exact ih

def FaultsIn (Q : Fault → Prop) (x : EStateM Fault σ α) : Prop := ∀ s fault t, x s = .error fault t → Q fault

theorem faultsIn_of_ok {x : EStateM Fault σ α} (h : ∀ s, ∃ a t, x s = .ok a t) : FaultsIn Q x := by
  intro s fault t hx
  obtain ⟨_, _, hok⟩ := h s
  cases hok.symm.trans hx

theorem FaultsIn.ok {x : EStateM Fault σ α} (h : FaultsIn (fun _ => False) x) (s : σ) : ∃ a t, x s = .ok a t := by
  cases hx : x s with
  | ok a t => exact ⟨a, t, rfl⟩
  | error fault t => exact (h s fault t hx).elim

theorem faultsIn_pure (a : α) : FaultsIn Q (pure a : EStateM Fault σ α) := faultsIn_of_ok fun s => ⟨a, s, rfl⟩

theorem faultsIn_modify (f : σ → σ) : FaultsIn Q (modify f : EStateM Fault σ PUnit) :=
  faultsIn_of_ok fun s => ⟨⟨⟩, f s, rfl⟩

theorem faultsIn_throw {fault : Fault} (h : Q fault) : FaultsIn Q (throw fault : EStateM Fault σ α) := by
  intro s _ t he
  cases he
  exact h

theorem faultsIn_lift {x : Except Fault α} (hx : Faults Q x) : FaultsIn Q (liftM x : EStateM Fault σ α) := by
  cases x with
  | ok a => exact faultsIn_pure a
  | error fault => exact faultsIn_throw (hx fault rfl)

theorem faultsIn_bind {x : EStateM Fault σ α} {f : α → EStateM Fault σ β} (hx : FaultsIn Q x)
    (hf : ∀ a, FaultsIn Q (f a)) : FaultsIn Q (x >>= f) := by
  intro s fault t h
  rcases bind_error_inv h with h | ⟨a, s₁, _, h⟩
  · exact hx s fault t h
  · exact hf a s₁ fault t h

theorem faultsIn_get_bind {f : σ → EStateM Fault σ β} (hf : ∀ s, FaultsIn Q (f s)) :
    FaultsIn Q ((get : EStateM Fault σ σ) >>= f) :=
  faultsIn_bind (faultsIn_of_ok fun s => ⟨s, s, rfl⟩) hf

theorem faultsIn_foldlM {f : β → α → EStateM Fault σ β} (hf : ∀ b x, FaultsIn Q (f b x)) (xs : List α) :
    ∀ b, FaultsIn Q (xs.foldlM f b) := by
  induction xs with
  | nil => exact fun b => faultsIn_pure b
  | cons x xs ih =>
    intro b
    rw [List.foldlM_cons]
    exact faultsIn_bind (hf b x) ih

theorem faultsIn_forM {f : α → EStateM Fault σ PUnit} {xs : List α} (hf : ∀ x ∈ xs, FaultsIn Q (f x)) :
    FaultsIn Q (xs.forM f) := by
  induction xs with
  | nil => exact faultsIn_pure _
  | cons x xs ih =>
    obtain ⟨hx, hxs⟩ := List.forall_mem_cons.1 hf
    exact faultsIn_bind hx fun _ => ih hxs

theorem faultsIn_mapM {f : α → EStateM Fault σ β} {xs : List α} (hf : ∀ x ∈ xs, FaultsIn Q (f x)) :
    FaultsIn Q (xs.mapM f) := by
  induction xs with
  | nil => exact faultsIn_pure []
  | cons x xs ih =>
    obtain ⟨hx, hxs⟩ := List.forall_mem_cons.1 hf
    rw [List.mapM_cons]
    exact faultsIn_bind hx fun y => faultsIn_bind (ih hxs) fun ys => faultsIn_pure (y :: ys)

end

/-! ## Values -/

namespace Value

variable (v : Value)

theorem parts_faults : Faults Fault.Plain v.parts := by
  cases v with
  | list items => exact faults_ok _
  | tuple items => exact faults_ok _
  | str text => exact faults_ok _
  | table names items => exact faults_ok _
  | _ => exact faults_error trivial

theorem part_faults (place : Nat) : Faults Fault.Plain (v.part place) := by
  unfold part
  split
  · exact faults_error trivial
  · refine faults_bind v.parts_faults fun parts => ?_
    split
    · exact faults_ok _
    · exact faults_error trivial

theorem pair_faults : Faults Fault.Plain v.pair := by
  refine faults_bind v.parts_faults fun parts => ?_
  split
  · exact faults_ok _
  · exact faults_error trivial

theorem asKey_faults : Faults Fault.Plain v.asKey := by
  unfold asKey
  split
  · exact faults_ok _
  · exact faults_error trivial

theorem text_faults : Faults Fault.Plain v.text := by
  cases v with
  | str text => exact faults_ok _
  | _ => exact faults_error trivial

theorem onlyText_faults : Faults Fault.Plain v.onlyText := by
  cases v with
  | str text => exact faults_ok _
  | _ => exact faults_error trivial

theorem fillGap_faults : Faults Fault.Plain v.fillGap := by
  unfold fillGap
  split
  · exact faults_ok _
  · exact faults_error trivial
  · exact faults_ok _

theorem lineNumber_faults : Faults Fault.Plain v.lineNumber := by
  unfold lineNumber
  split
  · exact faults_ok _
  · split
    · exact faults_ok _
    · exact faults_error trivial
  · exact faults_error trivial

end Value

/-! ## Files -/

namespace FileSystem

theorem followTo_faults {root : Entry} {create : Bool} {jump : List String → List String → Except Fault (List String)}
    (hjump : ∀ here todo, Faults Fault.Plain (jump here todo)) (here todo : List String) :
    Faults Fault.Plain (followTo root create jump here todo) := by
  fun_induction followTo root create jump here todo with
  | case1 here => exact faults_ok here
  | case2 here rest part items _ _ ih => exact ih
  | case3 here rest items _ _ ih => exact ih
  | case4 here part rest items _ _ _ target _ => exact hjump _ _
  | case5 here part rest items _ _ _ e _ _ ih => exact ih
  | case6 here part rest items _ _ _ _ _ => exact faults_ok _
  | _ => exact faults_error trivial

theorem follow_faults (root : Entry) (create : Bool) (limit : Nat) (here todo : List String) :
    Faults Fault.Plain (follow root create limit here todo) := by
  induction limit generalizing here todo with
  | zero =>
    have hlinks : Fault.Plain .tooManyLinks := trivial
    exact followTo_faults (fun _ _ => faults_error hlinks) here todo
  | succ limit ih => exact followTo_faults ih here todo

variable (fs : FileSystem) (path : String)

theorem place_faults : Faults Fault.Plain (fs.place path) := by
  unfold place
  split
  · exact faults_error trivial
  · exact follow_faults _ _ _ _ _

theorem site_faults : Faults Fault.Plain (fs.site path) := by
  unfold site
  split
  · exact faults_error trivial
  · exact follow_faults _ _ _ _ _

theorem locate_faults : Faults Fault.Plain (fs.locate path) := by
  refine faults_bind (fs.place_faults path) fun parts => ?_
  split
  · exact faults_ok _
  · exact faults_error trivial

theorem names_faults : Faults Fault.Plain (fs.names path) := by
  refine faults_bind (fs.locate_faults path) fun e => ?_
  split
  · exact faults_ok _
  · exact faults_error trivial

theorem read_faults : Faults Fault.Plain (fs.read path) := by
  refine faults_bind (fs.locate_faults path) fun e => ?_
  split
  · exact faults_ok _
  · exact faults_ok _
  · exact faults_error trivial

theorem content_faults : Faults Fault.Plain (fs.content path) := by
  refine faults_bind (fs.locate_faults path) fun e => ?_
  split
  · exact faults_error trivial
  · exact faults_ok _

theorem writeSite_faults : Faults Fault.Plain (fs.writeSite path) := by
  unfold writeSite
  split
  · exact faults_error trivial
  · refine faults_bind (site_faults fs path) fun parts => ?_
    split
    · exact faults_error trivial
    · exact faults_ok _

theorem dirSite_faults : Faults Fault.Plain (fs.dirSite path) := by
  unfold dirSite
  split
  · exact faults_error trivial
  · refine faults_bind (place_faults fs _) fun parts => ?_
    split
    · split
      · exact faults_error trivial
      · exact faults_ok _
    · exact faults_error trivial

end FileSystem

/-! ## Looking up modules -/

theorem declaredEncoding_faults (text : String) : Faults Fault.Plain (declaredEncoding text) := by
  have hresolve : ∀ marked name, Faults Fault.Plain (Declared.resolve marked name) := by
    intro marked name
    unfold Declared.resolve
    dsimp only
    split
    · exact faults_error trivial
    · split
      · split
        · exact faults_ok _
        · exact faults_error trivial
      · split
        · exact faults_error trivial
        · exact faults_ok _
  unfold declaredEncoding
  dsimp only
  split
  · exact hresolve _ _
  · exact hresolve _ _
  · exact faults_ok _

namespace Finder

variable (finder : Finder)

theorem opened_faults (fs : FileSystem) (m : Loader) : Faults Fault.Plain (opened fs m) := by
  unfold opened
  split
  · exact faults_bind (fs.read_faults _) fun source =>
      faults_bind (declaredEncoding_faults _) fun encoding => faults_ok _
  · exact faults_ok _

theorem inDirs_faults (fs : FileSystem) (name : String) (dirs : List Value) :
    Faults Fault.Plain (inDirs fs name dirs) := by
  induction dirs with
  | nil => exact faults_ok _
  | cons dir dirs ih =>
    refine faults_bind dir.onlyText_faults fun dir => ?_
    cases inDir fs dir name with
    | some m => exact faults_map some (opened_faults fs m)
    | none => exact ih

theorem find_faults (dir : Option String) (name : String) : Faults Fault.Plain (finder.find dir name) := by
  unfold find
  dsimp only
  split
  · exact faults_bind (inDirs_faults _ _ _) fun _ => faults_ok _
  · split
    · exact faults_bind (faults_ok _) fun _ => faults_ok _
    · split
      · exact faults_bind (faults_ok _) fun _ => faults_ok _
      · exact faults_bind (inDirs_faults _ _ _) fun _ => faults_ok _

theorem initial_faults (m : Loader) : Faults Fault.Plain (finder.initial m) := by
  refine faults_bind (finder.find_faults _ _) fun found => ?_
  split
  · exact faults_ok _
  · exact faults_error trivial

theorem fileOf_faults (fuel : Nat) (m : Loader) : Faults Fault.Plain (finder.fileOf fuel m) := by
  induction fuel generalizing m with
  | zero => exact faults_error trivial
  | succ fuel ih =>
    rw [fileOf]
    split
    · exact faults_bind (finder.initial_faults m) ih
    · exact faults_ok _
    · exact faults_ok _

theorem dottedFrom_faults (names : List Value) : ∀ file dir, Faults Fault.Plain (finder.dottedFrom file dir names) := by
  induction names with
  | nil => exact fun file _ => faults_ok file
  | cons name names ih =>
    intro file dir
    rw [dottedFrom]
    refine faults_bind name.text_faults fun name => faults_bind (finder.find_faults dir name) fun found => ?_
    split
    · exact faults_ok _
    · refine faults_bind (finder.fileOf_faults _ _) fun file => ?_
      split
      · exact faults_ok _
      · exact ih _ _

theorem startDir_faults (dir : Option String) (level : Value) : Faults Fault.Plain (startDir dir level) := by
  unfold startDir
  split
  · exact faults_error trivial
  · split
    · exact faults_ok _
    · split
      · exact faults_error trivial
      · exact faults_ok _

theorem meant_faults (module : String) (symbol : Value) (own : Option String) :
    Faults Fault.Plain (finder.meant module symbol own) := by
  cases own with
  | none => exact faults_ok _
  | some file =>
    rw [meant]
    split
    · exact faults_ok _
    · refine faults_bind (finder.dottedFrom_faults _ _ _) fun found => ?_
      split
      · exact faults_ok _
      · exact faults_bind symbol.onlyText_faults fun symbol => faults_ok _

theorem importedFile_faults (module symbol : Value) (dir : Option String) (level : Value) :
    FaultsIn Fault.Plain (finder.importedFile module symbol dir level) := by
  have hremembered : ∀ name, FaultsIn Fault.Plain (finder.remembered name) := by
    intro name
    refine faultsIn_get_bind fun cache => ?_
    split
    · exact faultsIn_pure _
    · exact faultsIn_bind (faultsIn_lift (finder.dottedFrom_faults _ _ _)) fun file =>
        faultsIn_bind (faultsIn_modify _) fun _ => faultsIn_pure _
  have hown : ∀ name, FaultsIn Fault.Plain (finder.ownFile name dir level) := by
    intro name
    refine faultsIn_bind (faultsIn_lift (startDir_faults dir level)) fun start =>
      faultsIn_bind (faultsIn_lift (finder.dottedFrom_faults _ _ _)) fun found => ?_
    split
    · exact faultsIn_pure _
    · exact hremembered name
  refine faultsIn_bind (faultsIn_lift module.text_faults) fun name => ?_
  split
  · exact faultsIn_pure _
  · exact faultsIn_bind (hown name) fun own => faultsIn_lift (finder.meant_faults _ _ _)

end Finder

end ImportAtlas
