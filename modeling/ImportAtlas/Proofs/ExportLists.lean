import ImportAtlas.Proofs.NameChains
import ImportAtlas.Proofs.Remarks
import ImportAtlas.Tree.Exported
import Mathlib.Data.List.TakeWhile

/-!
# Lists of exported names

The name `__all__` is remembered once it has been met below an assignment. From there on every constant below an
assignment is exported: those that are assigned to `__all__`, since targets come first in a walk, and with them
whatever later assignments hold.
-/

namespace ImportAtlas

namespace Tree

def namesAll (t : Tree) : Bool :=
  t.isA .assignName && (t.datum 0).same (.str "__all__")

/-- The tree has an assignment, one of whose targets is the name `__all__`, with the constant somewhere on its right. -/
def Lists (t : Tree) (v : Value) : Prop :=
  ∃ a ∈ t.nodes, a.isA .assign = true ∧ (∃ target ∈ a.targetGroup, target.namesAll = true) ∧
    ∃ c ∈ (a.child 1).nodes, c.isA .const = true ∧ c.datum 0 = v

def inside (t : Tree) : List Tree :=
  t.subnodes.flatMap nodes

def outerAssigns (t : Tree) : List Tree :=
  t.scanned.filter (isA .assign)

def assigned (t : Tree) : List Tree :=
  t.outerAssigns.flatMap inside

/-- The nodes below assignments from the first name `__all__` on. -/
def sinceAll (t : Tree) : List Tree :=
  t.assigned.dropWhile fun u => !u.namesAll

def allTargets (a : Tree) : List Tree :=
  ((openGroups a.targetGroup).filter isNode).flatMap (outline fun u => u.isA .assignTuple || u.isA .assignList)

def assignsAll (a : Tree) : Bool :=
  a.isA .assign && a.allTargets.any namesAll

def constantsIn (nodes : List Tree) : List (Value × Value) :=
  (nodes.filter (isA .const)).map fun c => (c.datum 0, c.line)

def ListsAt (t : Tree) (p : Value × Value) : Prop :=
  ∃ a ∈ t.nodes, a.assignsAll = true ∧ p ∈ constantsIn a.inside

theorem mem_constantsIn {nodes : List Tree} {p : Value × Value} :
    p ∈ constantsIn nodes ↔ ∃ c ∈ nodes, c.isA .const = true ∧ (c.datum 0, c.line) = p := by
  simp [constantsIn, and_assoc]

theorem mem_openGroups {c : Tree} {items : List Tree} (h : c ∈ items) (hc : c.isNode = true) :
    c ∈ openGroups items := by
  obtain ⟨before, after, rfl⟩ := List.append_of_mem h
  cases c with
  | node kind line fields =>
    rw [openGroups_append, openGroups_single (by simp) (by simp)]
    simp
  | _ => cases hc

theorem isNode_of_namesAll {t : Tree} (h : t.namesAll = true) : t.isNode = true := by
  cases t <;> simp_all [namesAll, isA, kind?, isNode]

/-! ## Nodes below assignments -/

theorem infix_flatMap {α β : Type} (f : α → List β) {x : α} {xs : List α} (h : x ∈ xs) : f x <:+: xs.flatMap f := by
  rw [List.flatMap_def]
  exact List.infix_of_mem_flatten (List.mem_map_of_mem h)

theorem mem_nodes_of_mem_outline {opens : Tree → Bool} {t u : Tree} (h : u ∈ t.outline opens) : u ∈ t.nodes := by
  induction t using induction_subnodes with
  | step t ih =>
    rw [outline_eq, List.mem_cons] at h
    rw [nodes_eq, List.mem_cons]
    refine h.imp_right fun h => ?_
    split at h
    · obtain ⟨c, hc, hu⟩ := List.mem_flatMap.1 h
      exact List.mem_flatMap_of_mem hc (ih c hc hu)
    · cases h

theorem inside_infix_nodes {t u : Tree} (h : u ∈ t.nodes) : u.inside <:+: t.nodes := by
  obtain ⟨before, after, hsplit⟩ := List.append_of_mem h
  obtain ⟨beyond, hafter⟩ := outline_split hsplit
  refine ⟨before ++ [u], beyond, ?_⟩
  change _ = u.nodes ++ beyond at hafter
  rw [hsplit, hafter, nodes_eq u, inside]
  simp

theorem assigned_assign {t : Tree} (ht : t.isA .assign = true) : t.assigned = t.inside := by
  simp [assigned, outerAssigns, scanned_assign ht, ht]

theorem assigned_other {t : Tree} (ht : t.isA .assign = false) : t.assigned = t.subnodes.flatMap assigned := by
  rw [assigned, outerAssigns, scanned_eq ht, List.filter_cons, if_neg (by simp [ht]), List.filter_flatMap,
    List.flatMap_assoc]
  rfl

theorem mem_nodes_of_mem_assigned {t u : Tree} (h : u ∈ t.assigned) : u ∈ t.nodes := by
  obtain ⟨a, ha, hu⟩ := List.mem_flatMap.1 h
  have ha : a ∈ t.nodes := mem_nodes_of_mem_outline (List.mem_filter.1 ha).1
  exact (inside_infix_nodes ha).subset hu

/-- What is below an assignment comes in one piece, wherever the assignment stands. -/
theorem inside_infix_assigned {t a : Tree} (h : a ∈ t.nodes) (ha : a.isA .assign = true) :
    a.inside <:+: t.assigned := by
  induction t using induction_subnodes with
  | step t ih =>
    by_cases ht : t.isA .assign = true
    · rw [assigned_assign ht]
      rw [nodes_eq, List.mem_cons] at h
      rcases h with rfl | h
      · exact List.infix_refl _
      · obtain ⟨c, hc, hac⟩ := List.mem_flatMap.1 h
        exact (inside_infix_nodes hac).trans (infix_flatMap nodes hc)
    · rw [Bool.not_eq_true] at ht
      rw [assigned_other ht]
      rw [nodes_eq, List.mem_cons] at h
      rcases h with rfl | h
      · simp [ht] at ha
      · obtain ⟨c, hc, hac⟩ := List.mem_flatMap.1 h
        exact (ih c hc hac).trans (infix_flatMap assigned hc)

/-! ## Nodes from the name on -/

theorem mem_dropWhile_of_infix {α : Type} {p : α → Bool} {xs ys zs : List α} (h : xs ++ ys <:+: zs)
    (hx : ∃ x ∈ xs, p x = false) {y : α} (hy : y ∈ ys) : y ∈ zs.dropWhile p := by
  obtain ⟨before, after, rfl⟩ := h
  obtain ⟨x, hx, hp⟩ := hx
  have hleft : ((before ++ xs).dropWhile p).isEmpty = false := by
    rw [Bool.eq_false_iff, ne_eq, List.isEmpty_iff, List.dropWhile_eq_nil_iff]
    intro hall
    simp [hall x (List.mem_append_right _ hx)] at hp
  rw [List.append_assoc, List.append_assoc, ← List.append_assoc before, List.dropWhile_append, hleft]
  simp [hy]

theorem exists_of_mem_dropWhile_flatMap {α β : Type} {p : β → Bool} {f : α → List β} {xs : List α} {y : β}
    (h : y ∈ (xs.flatMap f).dropWhile p) : ∃ x ∈ xs.dropWhile (fun x => (f x).all p), y ∈ f x := by
  induction xs with
  | nil => cases h
  | cons x xs ih =>
    rw [List.flatMap_cons, List.dropWhile_append] at h
    rw [List.dropWhile_cons]
    split at h
    · rename_i hnone
      rw [List.isEmpty_iff, List.dropWhile_eq_nil_iff] at hnone
      rw [if_pos (List.all_eq_true.2 hnone)]
      exact ih h
    · rename_i hsome
      rw [List.isEmpty_iff, List.dropWhile_eq_nil_iff] at hsome
      rw [if_neg (by simpa using hsome)]
      rcases List.mem_append.1 h with h | h
      · exact ⟨x, List.mem_cons_self, (List.dropWhile_suffix p).subset h⟩
      · obtain ⟨z, hz, hy⟩ := List.mem_flatMap.1 h
        exact ⟨z, List.mem_cons_of_mem x hz, hy⟩

/-- Targets come first, so that the name has been met when the walk gets to the right. -/
theorem mem_sinceAll {t a c : Tree} (h : t.wellFormed = true) (ha : a ∈ t.nodes) (hall : a.assignsAll = true)
    (hc : c ∈ (a.child 1).nodes) : c ∈ t.sinceAll := by
  rw [assignsAll, Bool.and_eq_true, List.any_eq_true] at hall
  obtain ⟨hassign, name, hname, hnames⟩ := hall
  have hinside : a.inside = ((openGroups a.targetGroup).filter isNode).flatMap nodes ++ (a.child 1).nodes := by
    rw [inside, (assign_of_wellFormed (wellFormed_of_mem_outline h ha) hassign).2.2, List.flatMap_append,
      List.flatMap_singleton]
  have hinfix := inside_infix_assigned ha hassign
  rw [hinside] at hinfix
  refine mem_dropWhile_of_infix hinfix ⟨name, ?_, by simp [hnames]⟩ hc
  obtain ⟨target, htarget, hname⟩ := List.mem_flatMap.1 hname
  exact List.mem_flatMap_of_mem htarget (mem_nodes_of_mem_outline hname)

theorem assignsAll_of_target {a target : Tree} (ha : a.isA .assign = true) (htarget : target ∈ a.targetGroup)
    (hall : target.namesAll = true) : a.assignsAll = true := by
  have hnode := isNode_of_namesAll hall
  rw [assignsAll, ha, Bool.true_and, List.any_eq_true]
  refine ⟨target, List.mem_flatMap_of_mem (List.mem_filter.2 ⟨mem_openGroups htarget hnode, hnode⟩) ?_, hall⟩
  exact mem_outline_self target

end Tree

namespace Exports

open ImportAtlas.Tree

/-! ## The walk -/

def passed (e : Exports) (u : Tree) : Exports :=
  if u.namesAll then { e with seenAll := true }
  else if u.isA .const && e.seenAll then { e with constants := e.constants ++ [(u.datum 0, u.line)] }
  else e

theorem passed_inAssign (e : Exports) (u : Tree) (inAssign : Bool) :
    passed { e with inAssign } u = { passed e u with inAssign } := by
  unfold passed
  dsimp only
  split
  · rfl
  · split <;> rfl

theorem foldl_passed_inAssign (nodes : List Tree) (e : Exports) (inAssign : Bool) :
    nodes.foldl passed { e with inAssign } = { nodes.foldl passed e with inAssign } := by
  induction nodes generalizing e with
  | nil => rfl
  | cons u nodes ih => rw [List.foldl_cons, passed_inAssign, ih, List.foldl_cons]

theorem inAssign_foldl_passed (nodes : List Tree) (e : Exports) : (nodes.foldl passed e).inAssign = e.inAssign := by
  have hkept := congrArg (fun e : Exports => e.inAssign) (foldl_passed_inAssign nodes e e.inAssign)
  exact hkept

def counted (inAssign : Bool) (t : Tree) : List Tree :=
  if inAssign then t.nodes else t.assigned

theorem enter_assign {t : Tree} (ht : t.isA .assign = true) (e : Exports) :
    visitor.enter t e = .ok () { e with inAssign := true } := by
  have hkind : t.kind? = some .assign := by simpa [isA] using ht
  simp only [visitor, hkind]
  rfl

theorem enter_other {t : Tree} (ht : t.isA .assign = false) (e : Exports) :
    visitor.enter t e = .ok () (if e.inAssign then passed e t else e) := by
  unfold passed namesAll
  by_cases hn : t.isA .assignName = true
  · have hkind : t.kind? = some .assignName := by simpa [isA] using hn
    have hc := isA_other hn (by decide : Kind.assignName ≠ .const)
    simp only [visitor, hkind, hn, hc]
    change EStateM.Result.ok () _ = _
    by_cases hin : e.inAssign = true
    · simp [hin]
    · simp [hin]
  · by_cases hc : t.isA .const = true
    · have hkind : t.kind? = some .const := by simpa [isA] using hc
      simp only [visitor, hkind, hn, hc]
      change EStateM.Result.ok () _ = _
      by_cases hin : e.inAssign = true
      · simp [hin]
      · simp [hin]
    · have hassign : t.kind? ≠ some .assign := by simpa [isA] using ht
      have hname : t.kind? ≠ some .assignName := by simpa [isA] using hn
      have hconst : t.kind? ≠ some .const := by simpa [isA] using hc
      simp only [visitor, hn, hc]
      simp only [Bool.false_and, Bool.false_eq_true, if_false, ite_self]
      rfl

theorem forM_walk {cs : List Tree}
    (h : ∀ c ∈ cs, ∀ e, visitor.walk c e = .ok () ((counted e.inAssign c).foldl passed e)) (e : Exports) :
    forM cs visitor.walk e = .ok () ((cs.flatMap (counted e.inAssign)).foldl passed e) := by
  induction cs generalizing e with
  | nil => rfl
  | cons c cs ih =>
    rw [List.forM_cons, bind_of_ok (h c List.mem_cons_self e), ih fun d hd => h d (List.mem_cons_of_mem c hd),
      inAssign_foldl_passed, List.flatMap_cons, List.foldl_append]

/-- A walk passes the nodes below assignments in turn. -/
theorem walk_eq {t : Tree} (h : t.wellFormed = true) (e : Exports) :
    visitor.walk t e = .ok () ((counted e.inAssign t).foldl passed e) := by
  induction t using induction_subnodes generalizing e with
  | step t ih =>
    obtain ⟨-, hw⟩ := nodesBelow_of_wellFormed h
    have hwalks := forM_walk fun c hc => ih c hc (hw c hc)
    by_cases ht : t.isA .assign = true
    · have hpassed : passed e t = e := by
        simp [passed, namesAll, isA_other ht (by decide : Kind.assign ≠ .assignName),
          isA_other ht (by decide : Kind.assign ≠ .const)]
      have hcounted : (counted e.inAssign t).foldl passed e = t.inside.foldl passed e := by
        unfold counted
        split
        · rw [nodes_eq, List.foldl_cons, hpassed, inside]
        · rw [assigned_assign ht]
      rw [Visitor.walk_run h rfl (enter_assign ht e) (hwalks _), hcounted]
      change EStateM.Result.ok () (visitor.leave t e (t.inside.foldl passed { e with inAssign := true })) = _
      rw [foldl_passed_inAssign]
      change EStateM.Result.ok () (if t.isA .assign then _ else _) = _
      rw [if_pos ht, ← inAssign_foldl_passed t.inside e]
    · rw [Bool.not_eq_true] at ht
      rw [Visitor.walk_run h rfl (enter_other ht e) (hwalks _)]
      change EStateM.Result.ok () (if t.isA .assign then _ else _) = _
      rw [if_neg (by simp [ht])]
      cases hin : e.inAssign with
      | true =>
        have hkept : (passed e t).inAssign = true := (inAssign_foldl_passed [t] e).trans hin
        rw [if_pos rfl, hkept]
        change EStateM.Result.ok () ((t.subnodes.flatMap nodes).foldl passed (passed e t)) = _
        rw [counted, if_pos rfl, nodes_eq, List.foldl_cons]
      | false =>
        rw [if_neg (by decide), hin]
        change EStateM.Result.ok () ((t.subnodes.flatMap assigned).foldl passed e) = _
        rw [counted, if_neg (by decide), assigned_other ht]

theorem constants_foldl_passed (nodes : List Tree) (e : Exports) : (nodes.foldl passed e).constants =
    e.constants ++ constantsIn (if e.seenAll then nodes else nodes.dropWhile fun u => !u.namesAll) := by
  induction nodes generalizing e with
  | nil => simp [constantsIn]
  | cons u nodes ih =>
    rw [List.foldl_cons, ih]
    by_cases hu : u.namesAll = true
    · have hname : u.isA .assignName = true := by
        rw [namesAll, Bool.and_eq_true] at hu
        exact hu.1
      have hconst := isA_other hname (by decide : Kind.assignName ≠ .const)
      simp [passed, hu, constantsIn, hconst]
    · by_cases hs : e.seenAll = true
      · by_cases hc : u.isA .const = true
        · simp [passed, hu, hc, hs, constantsIn]
        · simp [passed, hu, hc, hs, constantsIn]
      · simp [passed, hu, hs]

end Exports

open Exports ImportAtlas.Tree

/-- Exported are the constants below assignments from the first name `__all__` on. -/
theorem exports_eq {t : Tree} (h : t.wellFormed = true) : t.exports = .ok (constantsIn t.sinceAll) := by
  have hconstants := constants_foldl_passed t.assigned {}
  unfold Tree.exports Visitor.collect
  rw [walk_eq h]
  exact congrArg Except.ok hconstants

/-- The exported constants hold all that an assignment to `__all__` lists, and nothing but constants of the tree. -/
theorem exports_of_wellFormed {t : Tree} (h : t.wellFormed = true) : ∃ constants, t.exports = .ok constants ∧
    (∀ v, t.Lists v → ∃ line, (v, line) ∈ constants) ∧
    ∀ p ∈ constants, ∃ c ∈ t.nodes, c.isA .const = true ∧ c.datum 0 = p.1 := by
  refine ⟨_, exports_eq h, ?_, ?_⟩
  · rintro v ⟨a, ha, hassign, ⟨target, htarget, hall⟩, c, hc, hconst, rfl⟩
    refine ⟨c.line, mem_constantsIn.2 ⟨c, ?_, hconst, rfl⟩⟩
    exact mem_sinceAll h ha (assignsAll_of_target hassign htarget hall) hc
  · intro p hp
    obtain ⟨c, hc, hconst, rfl⟩ := mem_constantsIn.1 hp
    exact ⟨c, mem_nodes_of_mem_assigned ((List.dropWhile_suffix _).subset hc), hconst, rfl⟩

/-- **Exports go on after the list.** Exported are the constants below assignments from the first name `__all__` on:
none of the assignments before the one with that name, and all of those after it. What is assigned to `__all__` is
always among them. Nothing else is if the assignments from the first with that name on all have it among their
targets. -/
theorem exports_since_all {t : Tree} (h : t.wellFormed = true) : ∃ constants, t.exports = .ok constants ∧
    constants = constantsIn t.sinceAll ∧
    (∀ before a after, t.outerAssigns = before ++ a :: after → (∀ b ∈ before, ∀ u ∈ b.inside, u.namesAll = false) →
      (∃ u ∈ a.inside, u.namesAll = true) →
      constants = constantsIn (a.inside.dropWhile fun u => !u.namesAll) ++ constantsIn (after.flatMap inside)) ∧
    (∀ a ∈ t.nodes, a.assignsAll = true → ∀ p ∈ constantsIn (a.child 1).nodes, p ∈ constants) ∧
    ((∀ a ∈ t.outerAssigns.dropWhile (fun a => a.inside.all fun u => !u.namesAll), a.assignsAll = true) →
      ∀ p ∈ constants, t.ListsAt p) := by
  refine ⟨_, exports_eq h, rfl, ?_, ?_, ?_⟩
  · intro before a after houter hbefore hname
    have hnone : (before.flatMap inside).dropWhile (fun u => !u.namesAll) = [] := by
      rw [List.dropWhile_eq_nil_iff]
      intro u hu
      obtain ⟨b, hb, hu⟩ := List.mem_flatMap.1 hu
      simp [hbefore b hb u hu]
    have hsome : (a.inside.dropWhile fun u => !u.namesAll).isEmpty = false := by
      rw [Bool.eq_false_iff, ne_eq, List.isEmpty_iff, List.dropWhile_eq_nil_iff]
      simpa using hname
    rw [sinceAll, assigned, houter, List.flatMap_append, List.flatMap_cons, List.dropWhile_append, hnone,
      if_pos List.isEmpty_nil, List.dropWhile_append, hsome, if_neg Bool.false_ne_true]
    simp [constantsIn]
  · intro a ha hall p hp
    obtain ⟨c, hc, hconst⟩ := mem_constantsIn.1 hp
    exact mem_constantsIn.2 ⟨c, mem_sinceAll h ha hall hc, hconst⟩
  · intro hlater p hp
    obtain ⟨c, hc, hconst⟩ := mem_constantsIn.1 hp
    obtain ⟨a, ha, hc⟩ := exists_of_mem_dropWhile_flatMap hc
    have houter : a ∈ t.outerAssigns := (List.dropWhile_suffix _).subset ha
    have hnodes : a ∈ t.nodes := mem_nodes_of_mem_outline (List.mem_filter.1 houter).1
    exact ⟨a, hnodes, hlater a ha, mem_constantsIn.2 ⟨c, hc, hconst⟩⟩

/-! ## An assignment after the list -/

namespace AfterAll

def assignment (line : Int) (target : String) (value : Tree) : Tree :=
  node .assign (.int line) [list [node .assignName (.int line) [word target, word "OP_ASSIGN"]], value]

def constant (line : Int) (text : String) : Tree :=
  node .const (.int line) [word text]

def listed : Tree := assignment 1 "__all__" (node .list (.int 1) [list [constant 1 "a"]])

def other : Tree := assignment 2 "x" (constant 2 "b")

/-- `__all__ = ['a']; x = 'b'` -/
def program : Tree := node .program .none [plain .none, node .block .none [list [listed, other]]]

theorem assignsAll_program {a : Tree} (ha : a ∈ program.nodes) (hall : a.assignsAll = true) : a = listed := by
  have hassigns : program.nodes.filter (isA .assign) = [listed, other] := by cbv
  have htargets : other.allTargets = [node .assignName (.int 2) [word "x", word "OP_ASSIGN"]] := by cbv
  rw [assignsAll, Bool.and_eq_true] at hall
  have hmem := List.mem_filter.2 ⟨ha, hall.1⟩
  rw [hassigns] at hmem
  rw [List.mem_cons, List.mem_singleton] at hmem
  rcases hmem with rfl | rfl
  · rfl
  · rw [htargets] at hall
    cases hall.2

end AfterAll

open AfterAll

theorem constant_after_all_exported : program.wellFormed = true ∧
    program.exports = .ok [(.str "a", .int 1), (.str "b", .int 2)] ∧ ¬ program.ListsAt (.str "b", .int 2) := by
  refine ⟨by decide, rfl, ?_⟩
  rintro ⟨a, ha, hall, hp⟩
  cases assignsAll_program ha hall
  have hconstants : constantsIn listed.inside = [(.str "a", .int 1)] := by cbv
  simp [hconstants] at hp

theorem exports_of_afterAll : ∃ constants, program.exports = .ok constants ∧
    constants = constantsIn [constant 1 "a"] ++ constantsIn [constant 2 "b"] := by
  obtain ⟨constants, hexports, -, hafter, -⟩ := exports_since_all (t := program) (by decide)
  have houter : program.outerAssigns = [] ++ listed :: [other] := by cbv
  refine ⟨constants, hexports, (hafter [] listed [other] houter (by simp) ?_).trans ?_⟩
  · exact ⟨node .assignName (.int 1) [word "__all__", word "OP_ASSIGN"], List.mem_of_getElem? (i := 0) (by cbv), rfl⟩
  · cbv

end ImportAtlas
