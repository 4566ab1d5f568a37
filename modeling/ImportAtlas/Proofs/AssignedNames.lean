import ImportAtlas.Proofs.NameChains
import ImportAtlas.Tree.Assigned

/-!
# Names that a program binds

A walk for assigned names remembers whether it is in a class, and forgets it only when it leaves the class. So every
function below a class is left out, not only its methods: a function inside of a method is lost, although it is no
more reached through the class than one inside of any other function.
-/

namespace ImportAtlas

section

variable {α β : Type} {f g : α → Option β} (h : ∀ x, f x = none ∨ f x = g x)
include h

theorem filterMap_sublist (xs : List α) : (xs.filterMap f).Sublist (xs.filterMap g) := by
  induction xs with
  | nil => exact .slnil
  | cons x xs ih =>
    rw [List.filterMap_cons, List.filterMap_cons]
    rcases h x with hx | hx
    · rw [hx]
      cases g x with
      | none => exact ih
      | some b => exact ih.cons b
    · rw [hx]
      cases g x with
      | none => exact ih
      | some b => exact ih.cons_cons b

theorem filterMap_eq_iff (xs : List α) : xs.filterMap f = xs.filterMap g ↔ ∀ x ∈ xs, f x = g x := by
  induction xs with
  | nil => simp
  | cons x xs ih =>
    rw [List.forall_mem_cons, ← ih]
    cases hg : g x with
    | none =>
      have hf : f x = none := (h x).elim id fun hx => hx.trans hg
      rw [List.filterMap_cons_none hf, List.filterMap_cons_none hg]
      simp [hf]
    | some b =>
      rw [List.filterMap_cons_some hg]
      rcases h x with hf | hf
      · -- what is lost is missing from the length
        have hlength := (filterMap_sublist h xs).length_le
        rw [List.filterMap_cons_none hf]
        refine ⟨fun heq => ?_, fun heq => by simp [hf] at heq⟩
        rw [heq, List.length_cons] at hlength
        omega
      · rw [List.filterMap_cons_some (hf.trans hg)]
        simp [hf.trans hg]

end

namespace Tree

/-! ## Nodes and what is above them -/

/-- The nodes from the top, each with those above it, the nearest first. -/
def situated (above : List Tree) (t : Tree) : List (List Tree × Tree) :=
  (above, t) :: t.subnodes.attach.flatMap fun ⟨c, _⟩ => situated (t :: above) c
termination_by sizeOf t
decreasing_by exact sizeOf_lt_of_mem_subnodes ‹_›

theorem situated_eq (above : List Tree) (t : Tree) :
    t.situated above = (above, t) :: t.subnodes.flatMap (situated (t :: above)) := by
  rw [situated, List.flatMap_subtype (g := situated (t :: above)) (by simp), List.unattach_attach]

/-- The name that an assignment, a class or a function binds, and its line. -/
def binding? (t : Tree) : Option (Value × Value) :=
  match t.kind? with
  | some .assignName => some (t.datum 0, t.line)
  | some .classDef => some (t.datum 0, t.line)
  | some .function => some (t.datum 1, t.line)
  | _ => none

/-- A function whose nearest class or function above is a class. -/
def isMethod (above : List Tree) (t : Tree) : Bool :=
  t.isA .function && (above.find? fun u => u.isA .classDef || u.isA .function).any (isA .classDef)

def isBelowClass (above : List Tree) (t : Tree) : Bool :=
  t.isA .function && above.any (isA .classDef)

def bindingsBut (leftOut : List Tree → Tree → Bool) (above : List Tree) (t : Tree) : List (Value × Value) :=
  (t.situated above).filterMap fun p => if leftOut p.1 p.2 then none else p.2.binding?

theorem bindingsBut_eq (leftOut : List Tree → Tree → Bool) (above : List Tree) (t : Tree) :
    t.bindingsBut leftOut above =
      (if leftOut above t then none else t.binding?).toList ++
        t.subnodes.flatMap (bindingsBut leftOut (t :: above)) := by
  unfold bindingsBut
  rw [situated_eq, List.filterMap_cons, List.filterMap_flatMap]
  dsimp only
  cases (if leftOut above t then none else t.binding?) with
  | none => rfl
  | some b => rfl

theorem binding?_of_function {t : Tree} (h : t.isA .function = true) : t.binding? = some (t.datum 1, t.line) := by
  have hkind : t.kind? = some .function := by simpa [isA] using h
  rw [binding?, hkind]

/-- Methods lie below classes. -/
theorem isBelowClass_of_isMethod {above : List Tree} {t : Tree} (h : t.isMethod above = true) :
    t.isBelowClass above = true := by
  rw [isMethod, Bool.and_eq_true, Option.any_eq_true] at h
  obtain ⟨ht, u, hu, hclass⟩ := h
  rw [isBelowClass, ht, Bool.true_and, List.any_eq_true]
  exact ⟨u, List.mem_of_find?_eq_some hu, hclass⟩

/-- Leaving out functions below classes leaves out no less than leaving out methods, and no more just when all of these
functions are methods. -/
theorem bindingsBut_isBelowClass (t : Tree) :
    (t.bindingsBut isBelowClass []).Sublist (t.bindingsBut isMethod []) ∧
      (t.bindingsBut isBelowClass [] = t.bindingsBut isMethod [] ↔
        ∀ p ∈ t.situated [], p.2.isBelowClass p.1 = true → p.2.isMethod p.1 = true) := by
  have hless : ∀ p : List Tree × Tree, (if p.2.isBelowClass p.1 then none else p.2.binding?) = none ∨
      (if p.2.isBelowClass p.1 then none else p.2.binding?) = if p.2.isMethod p.1 then none else p.2.binding? := by
    intro p
    by_cases hbelow : p.2.isBelowClass p.1 = true
    · exact .inl (if_pos hbelow)
    · rw [if_neg hbelow, if_neg (mt isBelowClass_of_isMethod hbelow)]
      exact .inr rfl
  refine ⟨filterMap_sublist hless _, (filterMap_eq_iff hless _).trans ?_⟩
  refine forall₂_congr fun p _ => ?_
  by_cases hbelow : p.2.isBelowClass p.1 = true
  · -- a function that is no method has a binding to lose
    have hfunction := binding?_of_function (Bool.and_eq_true_iff.1 hbelow).1
    by_cases hmethod : p.2.isMethod p.1 = true
    · simp [hbelow, hmethod]
    · simp [hbelow, hmethod, hfunction]
  · simp [hbelow, mt isBelowClass_of_isMethod hbelow]

end Tree

/-! ## The walk -/

namespace Assignments

open ImportAtlas.Tree

theorem enter_eq (t : Tree) (above : List Tree) (names : List (Value × Value)) :
    visitor.enter t ⟨names, above.any (isA .classDef)⟩ =
      .ok () ⟨names ++ (if t.isBelowClass above then none else t.binding?).toList,
        (t :: above).any (isA .classDef)⟩ := by
  have hsame : ∀ inClass, EStateM.Result.ok () ⟨names, inClass⟩ =
      (.ok () ⟨names ++ [], inClass⟩ : EStateM.Result Fault Assignments Unit) := by simp
  rw [List.any_cons, isBelowClass]
  generalize above.any (isA .classDef) = inClass
  cases t with
  | node kind line fields =>
    cases kind with
    | assignName => rfl
    | classDef => rfl
    | function =>
      cases inClass with
      | true => exact hsame true
      | false => rfl
    | _ => exact hsame inClass
  | _ => exact hsame inClass

theorem forM_walk {cs above : List Tree} {inClass : Bool} (h : ∀ c ∈ cs, ∀ names,
      visitor.walk c ⟨names, inClass⟩ = .ok () ⟨names ++ c.bindingsBut isBelowClass above, inClass⟩)
    (names : List (Value × Value)) :
    forM cs visitor.walk ⟨names, inClass⟩ = .ok () ⟨names ++ cs.flatMap (bindingsBut isBelowClass above), inClass⟩ := by
  induction cs generalizing names with
  | nil =>
    rw [List.flatMap_nil, List.append_nil]
    rfl
  | cons c cs ih =>
    obtain ⟨hc, hcs⟩ := List.forall_mem_cons.1 h
    rw [List.forM_cons, bind_of_ok (hc names), ih hcs, List.flatMap_cons, List.append_assoc]

/-- The flag says whether there is a class above, and comes back as it was. -/
theorem walk_eq {t : Tree} (ht : t.wellFormed = true) (above : List Tree) (names : List (Value × Value)) :
    visitor.walk t ⟨names, above.any (isA .classDef)⟩ =
      .ok () ⟨names ++ t.bindingsBut isBelowClass above, above.any (isA .classDef)⟩ := by
  induction t using induction_subnodes generalizing above names with
  | step t ih =>
    obtain ⟨-, hw⟩ := nodesBelow_of_wellFormed ht
    have hbelow := forM_walk fun c hc names => ih c hc (hw c hc) (t :: above) names
    rw [Visitor.walk_run ht rfl (enter_eq t above names) (hbelow _), bindingsBut_eq, List.append_assoc]
    change EStateM.Result.ok () (if t.isA .classDef then _ else _) = _
    cases hclass : t.isA .classDef with
    | true => rfl
    | false =>
      rw [List.any_cons, hclass]
      rfl

end Assignments

open ImportAtlas.Tree

/-- **Functions below classes are left out.** The assigned names are those of the assignments, classes and functions
from the top, but for every function that has a class above it. These are the methods and the functions inside of
methods at any depth, so the names are all but those of the methods just when no function is inside of a method. -/
theorem assigned_outside_classes {t : Tree} (h : t.wellFormed = true) : ∃ names, t.assignments = .ok names ∧
    names = t.bindingsBut isBelowClass [] ∧ names.Sublist (t.bindingsBut isMethod []) ∧
    (names = t.bindingsBut isMethod [] ↔
      ∀ p ∈ t.situated [], p.2.isBelowClass p.1 = true → p.2.isMethod p.1 = true) := by
  have hwalk := Assignments.walk_eq h [] []
  refine ⟨_, ?_, rfl, bindingsBut_isBelowClass t⟩
  unfold Tree.assignments Visitor.collect
  rw [show ({} : Assignments) = ⟨[], [].any (isA .classDef)⟩ from rfl, hwalk]
  rfl

namespace InnerFunction

def block (statements : List Tree) : Tree := node .block .none [list statements]

def function (line : Int) (name : String) (body : List Tree) : Tree :=
  node .function (.int line) [plain .none, word name, list [], list [], plain (.int 0), plain .none, block body]

/-- `class C:` with a method `m`, in which a function `inner` is defined -/
def outer : Tree :=
  node .classDef (.int 1)
    [word "C", list [], plain .none, block [function 2 "m" [function 3 "inner" []]], plain .none]

def program : Tree := node .program .none [plain .none, block [outer]]

theorem members_nil : members (list []) = .ok [] := by
  rw [members, openGroups]

theorem subnodes_block_nil : (block []).subnodes = [] := by
  rw [subnodes, block, nodesBelow, Kind.roles, nodesFrom, members_nil]
  rfl

theorem subnodes_block (kind : Kind) (line : Value) (fields : List Tree) :
    (block [node kind line fields]).subnodes = [node kind line fields] := by
  have hmembers : members (list [node kind line fields]) = .ok [node kind line fields] := by
    rw [members, openGroups, openGroups]
    all_goals exact fun _ h => by cases h
  rw [subnodes, block, nodesBelow, Kind.roles, nodesFrom, hmembers]
  rfl

theorem subnodes_function (line : Int) (name : String) (body : List Tree) :
    (function line name body).subnodes = [block body] := by
  rw [subnodes, function, nodesBelow, Kind.roles]
  simp only [nodesFrom, members_nil]
  rfl

theorem subnodes_outer : outer.subnodes = [block [function 2 "m" [function 3 "inner" []]]] := by
  rw [subnodes, outer, nodesBelow, Kind.roles]
  simp only [nodesFrom, members_nil]
  rfl

end InnerFunction

open InnerFunction

theorem program_bindings : program.bindingsBut isBelowClass [] = [(.str "C", .int 1)] ∧
    program.bindingsBut isMethod [] = [(.str "C", .int 1), (.str "inner", .int 3)] := by
  have hprogram : program.subnodes = [block [outer]] := rfl
  have htop : (block [outer]).subnodes = [outer] := subnodes_block _ _ _
  have hbody : ∀ line name body, (block [function line name body]).subnodes = [function line name body] :=
    fun _ _ _ => subnodes_block _ _ _
  simp only [bindingsBut_eq, hprogram, htop, subnodes_outer, hbody, subnodes_function, subnodes_block_nil,
    List.flatMap_cons, List.flatMap_nil]
  exact ⟨rfl, rfl⟩

/-- The function inside of the method is no method, and is lost all the same. -/
theorem inner_function_lost : program.wellFormed = true ∧ program.assignments = .ok [(.str "C", .int 1)] ∧
    program.assignments ≠ .ok (program.bindingsBut isMethod []) := by
  refine ⟨by decide, rfl, ?_⟩
  rw [program_bindings.2]
  exact fun h => by cases h

theorem assigned_around_inner : ∃ names, program.assignments = .ok names ∧ names = [(.str "C", .int 1)] ∧
    names.Sublist [(.str "C", .int 1), (.str "inner", .int 3)] := by
  obtain ⟨names, hnames, hbindings, hless, -⟩ := assigned_outside_classes (t := program) (by decide)
  obtain ⟨hbelow, hmethods⟩ := program_bindings
  exact ⟨names, hnames, hbindings.trans hbelow, hmethods ▸ hless⟩

end ImportAtlas
