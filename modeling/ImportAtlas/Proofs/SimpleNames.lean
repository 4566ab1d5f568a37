import ImportAtlas.Proofs.WrittenNames

/-!
# Simple names

The names at the roots of the chains are the names of the tree, one for each and in the order in which they stand in
it. No node of a well-formed tree is missed by the walk, and the attributes that wait when a name is met come behind
it, so that they take nothing away from it.
-/

namespace ImportAtlas

namespace Tree

mutual

/-- All nodes in a tree, wherever they stand, each before what it holds. -/
def preorder : Tree → List Tree
  | plain _ => []
  | node kind line fields => node kind line fields :: preorderAll fields
  | list items => preorderAll items
  | tuple items => preorderAll items

def preorderAll : List Tree → List Tree
  | [] => []
  | t :: ts => preorder t ++ preorderAll ts

end

/-! ## A walk meets every node -/

mutual

theorem preorder_of_value? : ∀ t : Tree, t.value?.isSome = true → t.preorder = []
  | plain _, _ => rfl
  | node _ _ _, h => by cases h
  | list items, h => preorderAll_of_values? items (by simpa [value?] using h)
  | tuple items, h => preorderAll_of_values? items (by simpa [value?] using h)

theorem preorderAll_of_values? : ∀ ts : List Tree, (values? ts).isSome = true → preorderAll ts = []
  | [], _ => rfl
  | t :: ts, h => by
    obtain ⟨vs, hvs⟩ := Option.isSome_iff_exists.1 h
    obtain ⟨v, rest, -, hv, hrest⟩ := values?_cons hvs
    rw [preorderAll, preorder_of_value? t (by rw [hv]; rfl), preorderAll_of_values? ts (by rw [hrest]; rfl)]
    rfl

end

theorem preorder_openGroups (items : List Tree) :
    ((openGroups items).filter isNode).flatMap preorder = preorderAll items := by
  fun_induction openGroups items with
  | case1 => rfl
  | case2 items rest ih₁ ih₂ => rw [List.filter_append, List.flatMap_append, ih₁, ih₂]; rfl
  | case3 items rest ih₁ ih₂ => rw [List.filter_append, List.flatMap_append, ih₁, ih₂]; rfl
  | case4 t rest hl ht ih =>
    cases t with
    | list items => exact absurd rfl (hl items)
    | tuple items => exact absurd rfl (ht items)
    | plain v => exact ih
    | node kind line fields => rw [List.filter_cons_of_pos rfl, List.flatMap_cons, ih]; rfl

theorem preorder_nodesFrom {roles : List Role} {fields cs : List Tree} (h : fieldsFit roles fields = true)
    (hcs : nodesFrom roles fields = .ok cs) : cs.flatMap preorder = preorderAll fields := by
  fun_induction nodesFrom roles fields generalizing cs with
  | case1 roles t fields ih =>
    rw [fieldsFit, Bool.and_eq_true] at h
    rw [ih h.2 hcs, preorderAll, preorder_of_value? t h.1]
    rfl
  | case2 roles fields ih =>
    rw [fieldsFit] at h
    rw [ih h hcs]
    rfl
  | case3 roles t fields ih =>
    obtain ⟨_, _, items, heq, ht, -, hrest⟩ := fieldsFit_many h
    cases heq
    obtain ⟨ms, hms, hcs⟩ := except_bind_inv hcs
    obtain ⟨rest, hnodes, hcs⟩ := except_bind_inv hcs
    cases hcs
    rw [members_of_group ht] at hms
    cases hms
    rw [List.flatMap_append, preorder_openGroups, ih hrest hnodes]
    rcases ht with rfl | rfl <;> rfl
  | case4 role roles t fields hplain hnone hmany ih =>
    have hrest : fieldsFit roles fields = true := by
      cases role with
      | plain => exact absurd rfl hplain
      | many => exact absurd rfl hmany
      | node =>
        obtain ⟨_, _, heq, -, hrest⟩ := fieldsFit_node h
        cases heq
        exact hrest
      | optional =>
        rw [fieldsFit, Bool.and_eq_true] at h
        · exact h.2
        · exact hnone rfl
    obtain ⟨rest, hnodes, hcs⟩ := except_bind_inv hcs
    cases hcs
    rw [List.flatMap_cons, ih hrest hnodes, preorderAll]
  | case5 roles fields h₁ h₂ h₃ h₄ =>
    cases hcs
    cases roles with
    | nil =>
      rw [fieldsFit_nil h]
      rfl
    | cons role roles =>
      cases fields with
      | nil => rfl
      | cons t fields => exact absurd rfl (h₄ role roles t fields rfl)

/-- **Nothing is missed.** The walk through a well-formed tree meets all nodes in it. -/
theorem nodes_eq_preorder {t : Tree} (h : t.wellFormed = true) : t.nodes = t.preorder := by
  induction t using induction_subnodes with
  | step t ih =>
    obtain ⟨hbelow, hw⟩ := nodesBelow_of_wellFormed h
    have hsub : t.subnodes.flatMap nodes = t.subnodes.flatMap preorder := by
      rw [List.flatMap_def, List.flatMap_def, List.map_congr_left fun c hc => ih c hc (hw c hc)]
    obtain ⟨kind, line, fields, rfl, hfields, -⟩ := exists_node_of_wellFormed h
    rw [nodes_eq, hsub, preorder, preorder_nodesFrom hfields hbelow]

/-! ## Names -/

theorem exists_name_of_wellFormed {t : Tree} (h : t.wellFormed = true) (hn : t.isA .name = true) :
    ∃ name line, t = node .name line [plain (.str name)] := by
  obtain ⟨kind, line, fields, rfl, hfields, hdata⟩ := exists_node_of_wellFormed h
  have hkind : kind = .name := by simpa [isA, kind?] using hn
  subst hkind
  obtain ⟨text, rest, rfl, hnil⟩ := fieldsFit_plain hfields
  cases fieldsFit_nil hnil
  obtain ⟨name, rfl⟩ := exists_of_isText hdata
  exact ⟨name, line, rfl⟩

theorem map_named? {nodes : List Tree} (h : ∀ u ∈ nodes, u.wellFormed = true) :
    (nodes.filterMap named?).map (fun p => (Value.str p.1, p.2)) =
      (nodes.filter (isA .name)).map fun u => (u.datum 0, u.line) := by
  induction nodes with
  | nil => rfl
  | cons u nodes ih =>
    obtain ⟨hu, hnodes⟩ := List.forall_mem_cons.1 h
    cases hn : u.isA .name with
    | false => rw [List.filterMap_cons_none (named?_of_not_isA hn), List.filter_cons_of_neg (by simp [hn]), ih hnodes]
    | true =>
      rw [List.filter_cons_of_pos hn, List.map_cons, ← ih hnodes]
      obtain ⟨name, line, rfl⟩ := exists_name_of_wellFormed hu hn
      rfl

end Tree

open NameUses ImportAtlas.Tree

/-- Whatever waits, a walk adds the names of the tree. -/
theorem walk_simple {t : Tree} (h : t.wellFormed = true) {uses : NameUses} {waiting : List String}
    (hw : uses.pending = waiting.map .str) : ∃ uses', NameUses.visitor.walk t uses = .ok () uses' ∧
      uses'.simple = uses.simple ++ t.preorder.filterMap named? := by
  have hnodes : ∀ u ∈ t.nodes, u.wellFormed = true := fun u hu => wellFormed_of_mem_outline h hu
  obtain ⟨uses', hrun, hcollected⟩ := collected_forM hnodes hw
  refine ⟨uses', ?_, ?_⟩
  · rw [Visitor.walk_outline (fun _ _ _ => rfl) h, outline_names, hrun]
  · rw [hcollected.simple, nodes_eq_preorder h]

/-- **Simple names.** From whatever uses a walk through a well-formed tree starts, and whatever attributes wait then, it
adds the names in the tree with their lines to the simple ones: one for each name, in order. So the simple names of the
tree are exactly these. -/
theorem simple_names_in_order {t : Tree} (h : t.wellFormed = true) :
    (∃ uses, t.nameUses = .ok uses ∧ uses.simple.map (fun p => (Value.str p.1, p.2)) =
      (t.preorder.filter (isA .name)).map fun u => (u.datum 0, u.line)) ∧
    ∀ (before : NameUses) (waiting : List String), before.pending = waiting.map .str →
      ∃ added after, NameUses.visitor.walk t before = .ok () after ∧ after.simple = before.simple ++ added ∧
        added.map (fun p => (Value.str p.1, p.2)) =
          (t.preorder.filter (isA .name)).map fun u => (u.datum 0, u.line) := by
  have hwell : ∀ u ∈ t.preorder, u.wellFormed = true := by
    rw [← nodes_eq_preorder h]
    exact fun u hu => wellFormed_of_mem_outline h hu
  constructor
  · have hstart : ({} : NameUses).pending = ([] : List String).map .str := rfl
    obtain ⟨uses, hwalk, hsimple⟩ := walk_simple h hstart
    refine ⟨uses, ?_, ?_⟩
    · rw [Tree.nameUses, Visitor.collect, hwalk]
    · rw [hsimple]
      exact map_named? hwell
  · intro before waiting hw
    obtain ⟨after, hwalk, hsimple⟩ := walk_simple h hw
    exact ⟨_, after, hwalk, hsimple, map_named? hwell⟩

theorem simple_names_of_joined : Joined.program.wellFormed = true ∧ ∃ uses, Joined.program.nameUses = .ok uses ∧
    uses.simple.map (fun p => (Value.str p.1, p.2)) = [(.str "os", .int 1), (.str "f", .int 1)] := by
  have hwell : Joined.program.wellFormed = true := by decide
  obtain ⟨⟨uses, huses, hsimple⟩, -⟩ := simple_names_in_order hwell
  exact ⟨hwell, uses, huses, hsimple⟩

end ImportAtlas
