import ImportAtlas.Proofs.WellFormed
import ImportAtlas.Tree.Names

/-!
# Chains of names

A chain is a name with the attributes taken of it. While a walk collects the names in use, attributes that wait for
their root may be left over from elsewhere; they end up behind the chain that is met next, and hide no part of it.
-/

namespace ImportAtlas

namespace Tree

def nodes (t : Tree) : List Tree :=
  t.outline fun _ => true

/-- The name at the root and the attributes taken of it, if the node is such a chain. -/
def chain? : Tree → Option (List String)
  | node .name _ [plain (.str name)] => some [name]
  | node .attribute _ [t, plain (.str attr)] => (chain? t).map (· ++ [attr])
  | _ => Option.none

def named? : Tree → Option (String × Value)
  | node .name line [plain (.str name)] => some (name, line)
  | _ => Option.none

def rootLine : Tree → Value
  | node .attribute _ (t :: _) => rootLine t
  | t => t.line

theorem nodes_eq (t : Tree) : t.nodes = t :: t.subnodes.flatMap nodes :=
  outline_eq t

theorem named?_eq_some {t : Tree} {name : String} {line : Value} :
    t.named? = some (name, line) ↔ t = node .name line [plain (.str name)] := by
  fun_cases named? t with
  | case1 line' name' => simp [and_comm]
  | case2 t h => simpa using h line name

theorem named?_of_not_isA {t : Tree} (h : t.isA .name = false) : t.named? = none := by
  rw [Option.eq_none_iff_forall_not_mem]
  rintro ⟨name, line⟩ hname
  rw [named?_eq_some.1 hname] at h
  cases h

end Tree

namespace NameUses

open ImportAtlas.Tree

/-! ## One node -/

/-- The uses after a name has been met with the given attributes waiting. -/
def rooted (uses : NameUses) (name : String) (waiting : List String) (line : Value) : NameUses where
  dotted := uses.dotted ++ (prefixes (name :: waiting.reverse)).map fun n => (n, line)
  simple := uses.simple ++ [(name, line)]
  pending := []

theorem leadingTexts_map (texts : List String) : leadingTexts (texts.map .str) = texts := by
  induction texts with
  | nil => rfl
  | cons s texts ih => rw [List.map_cons, leadingTexts, ih]

theorem meet_eq {uses : NameUses} {waiting : List String} (hw : uses.pending = waiting.map .str) (name : String)
    (line : Value) : meet (.str name) line uses = .ok () (uses.rooted name waiting line) := by
  have hchain : (uses.pending ++ [Value.str name]).reverse = (name :: waiting.reverse).map Value.str := by simp [hw]
  unfold meet
  rw [bind_of_ok (rfl : (get : Walk NameUses NameUses) uses = .ok uses uses)]
  rw [hchain, leadingTexts_map, if_pos (List.length_map _).symm]
  rfl

/-- What a walk does at a node: a name ends the attributes that wait, an attribute joins them, all else leaves them. -/
theorem enter_cases {t : Tree} (h : t.wellFormed = true) {uses : NameUses} {waiting : List String}
    (hw : uses.pending = waiting.map .str) :
    (∃ name line, t = node .name line [plain (.str name)] ∧
      visitor.enter t uses = .ok () (uses.rooted name waiting line)) ∨
    (∃ attr, t.isA .attribute = true ∧ t.datum 1 = .str attr ∧
      visitor.enter t uses = .ok () { uses with pending := (waiting ++ [attr]).map .str }) ∨
    (t.isA .name = false ∧ t.isA .attribute = false ∧ visitor.enter t uses = .ok () uses) := by
  obtain ⟨kind, line, fields, rfl, hfields, hdata⟩ := exists_node_of_wellFormed h
  by_cases hn : kind = .name
  · subst hn
    obtain ⟨text, rest, rfl, hnil⟩ := fieldsFit_plain hfields
    cases fieldsFit_nil hnil
    obtain ⟨name, rfl⟩ := exists_of_isText hdata
    exact .inl ⟨name, line, rfl, meet_eq hw name line⟩
  by_cases ha : kind = .attribute
  · subst ha
    obtain ⟨owner, rest, rfl, -, hrest⟩ := fieldsFit_node hfields
    obtain ⟨text, rest, rfl, hnil⟩ := fieldsFit_plain hrest
    cases fieldsFit_nil hnil
    obtain ⟨attr, rfl⟩ := exists_of_isText hdata
    refine .inr (.inl ⟨attr, rfl, rfl, ?_⟩)
    rw [List.map_append, ← hw]
    rfl
  · right; right
    refine ⟨by simpa [isA, kind?] using hn, by simpa [isA, kind?] using ha, ?_⟩
    have hname : (node kind line fields).kind? ≠ some .name := by simpa [kind?] using hn
    have hattr : (node kind line fields).kind? ≠ some .attribute := by simpa [kind?] using ha
    simp only [visitor]
    rfl

theorem mem_prefixes {chain : List String} {name : String} :
    name ∈ prefixes chain ↔ ∃ i < chain.length, name = ".".intercalate (chain.take (i + 1)) := by
  simp [prefixes, eq_comm]

/-! ## All nodes -/

/-- What the walk through the nodes adds to the uses: the names among the nodes, and names that begin at one of them. -/
structure Collected (nodes : List Tree) (uses uses' : NameUses) : Prop where
  waits : ∃ waiting : List String, uses'.pending = waiting.map .str
  simple : uses'.simple = uses.simple ++ nodes.filterMap named?
  kept : ∀ p ∈ uses.dotted, p ∈ uses'.dotted
  begins : ∀ p ∈ uses'.dotted, p ∈ uses.dotted ∨
    ∃ u ∈ nodes, ∃ name attrs, u.chain? = some [name] ∧ p.1 = ".".intercalate (name :: attrs)

theorem Collected.nil {uses : NameUses} {waiting : List String} (hw : uses.pending = waiting.map .str) :
    Collected [] uses uses :=
  ⟨⟨waiting, hw⟩, (List.append_nil _).symm, fun _ hp => hp, fun _ hp => .inl hp⟩

theorem Collected.append {nodes nodes' : List Tree} {uses uses₁ uses' : NameUses} (h : Collected nodes uses uses₁)
    (h' : Collected nodes' uses₁ uses') : Collected (nodes ++ nodes') uses uses' := by
  refine ⟨h'.waits, ?_, fun p hp => h'.kept p (h.kept p hp), fun p hp => ?_⟩
  · rw [h'.simple, h.simple, List.filterMap_append, List.append_assoc]
  rcases h'.begins p hp with hp | ⟨u, hu, hroot⟩
  · rcases h.begins p hp with hp | ⟨u, hu, hroot⟩
    · exact .inl hp
    · exact .inr ⟨u, List.mem_append_left _ hu, hroot⟩
  · exact .inr ⟨u, List.mem_append_right _ hu, hroot⟩

theorem collected_enter {t : Tree} (h : t.wellFormed = true) {uses : NameUses} {waiting : List String}
    (hw : uses.pending = waiting.map .str) :
    ∃ uses', visitor.enter t uses = .ok () uses' ∧ Collected [t] uses uses' := by
  rcases enter_cases h hw with ⟨name, line, rfl, henter⟩ | ⟨attr, hattr, -, henter⟩ | ⟨hname, -, henter⟩
  · refine ⟨_, henter, ⟨[], rfl⟩, rfl, fun p hp => List.mem_append_left _ hp, fun p hp => ?_⟩
    rcases List.mem_append.1 hp with hp | hp
    · exact .inl hp
    · obtain ⟨n, hn, rfl⟩ := List.mem_map.1 hp
      obtain ⟨i, -, rfl⟩ := mem_prefixes.1 hn
      exact .inr ⟨_, List.mem_singleton_self _, name, waiting.reverse.take i, rfl, rfl⟩
  · have hnone := named?_of_not_isA (isA_other hattr (by decide))
    exact ⟨_, henter, ⟨waiting ++ [attr], rfl⟩, by simp [hnone], fun p hp => hp, fun p hp => .inl hp⟩
  · have hnone := named?_of_not_isA hname
    exact ⟨_, henter, ⟨waiting, hw⟩, by simp [hnone], fun p hp => hp, fun p hp => .inl hp⟩

theorem collected_forM {nodes : List Tree} (h : ∀ t ∈ nodes, t.wellFormed = true) {uses : NameUses}
    {waiting : List String} (hw : uses.pending = waiting.map .str) :
    ∃ uses', forM nodes visitor.enter uses = .ok () uses' ∧ Collected nodes uses uses' := by
  induction nodes generalizing uses waiting with
  | nil => exact ⟨uses, rfl, .nil hw⟩
  | cons t rest ih =>
    obtain ⟨uses₁, henter, hstep⟩ := collected_enter (h t List.mem_cons_self) hw
    obtain ⟨waiting₁, hw₁⟩ := hstep.waits
    obtain ⟨uses', hrest, hrun⟩ := ih (fun u hu => h u (List.mem_cons_of_mem t hu)) hw₁
    rw [List.forM_cons, bind_of_ok henter]
    exact ⟨uses', hrest, hstep.append hrun⟩

/-- A chain is met with all its attributes, and what waited before comes behind them. -/
theorem forM_chain {t : Tree} (h : t.wellFormed = true) {chain : List String} (hchain : t.chain? = some chain)
    {uses : NameUses} {waiting : List String} (hw : uses.pending = waiting.map .str) :
    ∃ uses', forM t.nodes visitor.enter uses = .ok () uses' ∧ uses'.pending = [] ∧
      uses'.dotted = uses.dotted ++ (prefixes (chain ++ waiting.reverse)).map fun n => (n, t.rootLine) := by
  fun_induction chain? t generalizing chain uses waiting with
  | case1 line name =>
    cases hchain
    have hnodes : (node .name line [plain (.str name)]).nodes = [node .name line [plain (.str name)]] := by
      rw [nodes_eq, subnodes_of_isA (rfl : isA .name _ = true) (by decide)]
      rfl
    refine ⟨uses.rooted name waiting line, ?_, rfl, rfl⟩
    rw [hnodes]
    exact bind_of_ok (meet_eq hw name line) _
  | case2 line t attr ih =>
    obtain ⟨inner, hinner, rfl⟩ := Option.map_eq_some_iff.1 hchain
    rw [wellFormed, Bool.and_eq_true] at h
    have ht : t.wellFormed = true := by
      obtain ⟨_, _, heq, ht, -⟩ := fieldsFit_node h.1
      cases heq
      exact ht
    have hsub : (node .attribute line [t, plain (.str attr)]).subnodes = [t] := by
      have hfrom : nodesFrom [.node, .plain] [t, plain (.str attr)] = .ok [t] :=
        nodesFrom_one (by simp) (by simp) (by simp) (by simp [nodesFrom])
      simp [subnodes, nodesBelow, Kind.roles, hfrom, Except.toOption]
    have hwaiting : ({ uses with pending := uses.pending ++ [.str attr] } : NameUses).pending =
        (waiting ++ [attr]).map .str := by simp [hw]
    obtain ⟨uses', hrun, hpending, hdotted⟩ := ih ht hinner hwaiting
    refine ⟨uses', ?_, hpending, ?_⟩
    · rw [nodes_eq, hsub, List.flatMap_singleton, List.forM_cons]
      exact (bind_of_ok rfl _).trans hrun
    · rw [hdotted, rootLine]
      simp
  | case3 t h₁ h₂ => cases hchain

end NameUses

open NameUses ImportAtlas.Tree

theorem outline_names (t : Tree) : t.outline NameUses.visitor.descends = t.nodes := by
  apply outline_congr
  intro u
  by_cases hu : u.isA .name = true
  · exact .inr (subnodes_of_isA hu (by decide))
  · exact .inl (by simp [NameUses.visitor, hu])

theorem exists_nameUses {t : Tree} (h : t.wellFormed = true) : ∃ uses, t.nameUses = .ok uses ∧
    forM t.nodes NameUses.visitor.enter {} = .ok () uses ∧ Collected t.nodes {} uses := by
  have hstart : ({} : NameUses).pending = ([] : List String).map .str := rfl
  have hw : ∀ u ∈ t.nodes, u.wellFormed = true := fun u hu => wellFormed_of_mem_outline h hu
  obtain ⟨uses, hrun, hcollected⟩ := collected_forM hw hstart
  refine ⟨uses, ?_, hrun, hcollected⟩
  unfold Tree.nameUses Visitor.collect
  rw [Visitor.walk_outline (fun _ _ _ => rfl) h, outline_names, hrun]

/-- The names in use hold every part of every chain, and each of them begins at a name of the tree. -/
theorem nameUses_of_wellFormed {t : Tree} (h : t.wellFormed = true) : ∃ uses, t.nameUses = .ok uses ∧
    (∀ u ∈ t.nodes, ∀ chain, u.chain? = some chain → ∀ i < chain.length,
      ∃ line, (".".intercalate (chain.take (i + 1)), line) ∈ uses.dotted) ∧
    ∀ p ∈ uses.dotted, ∃ u ∈ t.nodes, ∃ name attrs, u.chain? = some [name] ∧ p.1 = ".".intercalate (name :: attrs) := by
  have hw : ∀ u ∈ t.nodes, u.wellFormed = true := fun u hu => wellFormed_of_mem_outline h hu
  have hstart : ({} : NameUses).pending = ([] : List String).map .str := rfl
  obtain ⟨uses, huses, hrun, hcollected⟩ := exists_nameUses h
  refine ⟨uses, huses, ?_, ?_⟩
  · intro u hu chain hchain i hi
    -- the walk up to the chain, the chain itself, and the rest of the walk
    obtain ⟨before, after, hsplit⟩ := List.append_of_mem hu
    obtain ⟨beyond, hafter⟩ := outline_split hsplit
    have hnodes : t.nodes = before ++ (u.nodes ++ beyond) := hsplit.trans (congrArg (before ++ ·) hafter)
    rw [hnodes] at hw hrun
    obtain ⟨hw₁, hw⟩ := List.forall_mem_append.1 hw
    obtain ⟨hw₂, hw₃⟩ := List.forall_mem_append.1 hw
    obtain ⟨uses₁, hbefore, hcollected₁⟩ := collected_forM hw₁ hstart
    obtain ⟨waiting, hwaiting⟩ := hcollected₁.waits
    obtain ⟨uses₂, hmet, -, hdotted⟩ := forM_chain (hw₂ u (mem_outline_self u)) hchain hwaiting
    obtain ⟨_, hmet', hcollected₂⟩ := collected_forM hw₂ hwaiting
    cases hmet.symm.trans hmet'
    obtain ⟨waiting₂, hwaiting₂⟩ := hcollected₂.waits
    obtain ⟨uses₃, hbeyond, hcollected₃⟩ := collected_forM hw₃ hwaiting₂
    rw [List.forM_append, bind_of_ok hbefore, List.forM_append, bind_of_ok hmet, hbeyond] at hrun
    cases hrun
    refine ⟨u.rootLine, hcollected₃.kept _ ?_⟩
    rw [hdotted]
    apply List.mem_append_right
    apply List.mem_map_of_mem
    rw [mem_prefixes]
    refine ⟨i, by simp; omega, ?_⟩
    rw [List.take_append_of_le_length (by omega)]
  · intro p hp
    rcases hcollected.begins p hp with hp | hp
    · cases hp
    · exact hp

end ImportAtlas
