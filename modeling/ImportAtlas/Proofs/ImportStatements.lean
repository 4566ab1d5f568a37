import ImportAtlas.Imports.Collect
import ImportAtlas.Proofs.WellFormed

/-!
# Import statements

What each node brings in by itself, and what a scan keeps of it. Imports wait until a node comes that is no
assignment; they are recorded then, in the order of the outline, with the remark of that node.
-/

namespace ImportAtlas

namespace Tree

/-- The nodes that are not below an assignment, from the top. -/
def scanned (t : Tree) : List Tree :=
  t.outline fun u => !u.isA .assign

def entries (names : Value) : List (Value × Value) :=
  match names with
  | .list items => items.filterMap fun
    | .tuple [name, other] => some (name, other)
    | _ => Option.none
  | _ => []

open ImportScan (boundName isAllAlone)

def listedConstants (t : Tree) : List Tree :=
  if isAllAlone t.targetGroup && ((t.child 1).isA .list || (t.child 1).isA .tuple) then
    (t.child 1).subnodes.filter (isA .const)
  else []

def importOfModule (t : Tree) (name other : Value) : Import :=
  { module := name, symbol := .none, binding := boundName name other, line := t.line, level := .int 0 }

def importOfSymbol (t : Tree) (name other : Value) : Import :=
  if name.same (.str "*") then
    { module := t.datum 0, symbol := .none, binding := .none, line := t.line, level := t.datum 2 }
  else
    { module := t.datum 0, symbol := name, binding := boundName name other, line := t.line, level := t.datum 2 }

def broughtIn (t : Tree) : List Import :=
  match t.kind? with
  | some .importNames => (entries (t.datum 0)).map fun (name, other) => t.importOfModule name other
  | some .fromImport =>
    if (t.datum 0).same (.str "__future__") then []
    else (entries (t.datum 1)).map fun (name, other) => t.importOfSymbol name other
  | some .assign => t.listedConstants.map fun c =>
      { module := c.datum 0, symbol := .none, binding := c.datum 0, line := t.line, level := .int 0 }
  | _ => []

end Tree

namespace ImportScan

open ImportAtlas.Tree

/-! ## One node -/

def met (s : ImportScan) (t : Tree) : ImportScan :=
  let settled := if t.isA .assign then s else s.settle (remark t)
  { settled with recent := settled.recent ++ t.broughtIn }

def entryValue (e : String × Option String) : Value :=
  .tuple [.str e.1, (e.2.map Value.str).getD .none]

theorem exists_of_isEntry {t : Tree} (h : t.isEntry = true) : ∃ e, t.value? = some (entryValue e) := by
  unfold isEntry at h
  split at h
  · rename_i name other
    exact ⟨(name, some other), rfl⟩
  · rename_i name
    exact ⟨(name, Option.none), rfl⟩
  · cases h

theorem exists_of_isEntries {t : Tree} (h : t.isEntries = true) : ∃ es : List (String × Option String),
    t.value? = some (.list (es.map entryValue)) := by
  cases t with
  | list items =>
    rw [isEntries, List.all_eq_true] at h
    suffices hvs : ∃ es : List (String × Option String), values? items = some (es.map entryValue) by
      obtain ⟨es, hes⟩ := hvs
      exact ⟨es, by rw [value?, hes]; rfl⟩
    induction items with
    | nil => exact ⟨[], rfl⟩
    | cons t items ih =>
      obtain ⟨e, he⟩ := exists_of_isEntry (h t List.mem_cons_self)
      obtain ⟨es, hes⟩ := ih fun u hu => h u (List.mem_cons_of_mem t hu)
      exact ⟨e :: es, by rw [values?, he, hes]; rfl⟩
  | _ => cases h

theorem entries_map (es : List (String × Option String)) :
    entries (.list (es.map entryValue)) = es.map fun e => (.str e.1, (e.2.map Value.str).getD .none) := by
  simp only [entries, List.filterMap_map]
  induction es with
  | nil => rfl
  | cons e es ih => simp [entryValue, ih]

theorem moduleImport_eq (t : Tree) (name other : Value) :
    moduleImport t (.tuple [name, other]) = .ok (t.importOfModule name other) := rfl

theorem symbolImport_eq (t : Tree) (name other : Value) :
    symbolImport t (.tuple [name, other]) = .ok (t.importOfSymbol name other) := by
  have hpair : (Value.tuple [name, other]).pair = .ok (name, other) := rfl
  rw [symbolImport, hpair, importOfSymbol]
  simp only [bind, Except.bind]
  split <;> rfl

theorem keepAll_eq {importOf : Value → Except Fault Import} {f : Value → Value → Import}
    (h : ∀ name other, importOf (.tuple [name, other]) = .ok (f name other)) (es : List (String × Option String))
    (s : ImportScan) : keepAll importOf (.list (es.map entryValue)) s = .ok ()
      { s with recent := s.recent ++ (entries (.list (es.map entryValue))).map fun (name, other) => f name other } := by
  unfold keepAll
  rw [lift_bind_of_ok (rfl : (Value.list (es.map entryValue)).parts = .ok (es.map entryValue)), entries_map]
  induction es generalizing s with
  | nil => simp only [List.map_nil, List.append_nil]; rfl
  | cons e es ih =>
    let i := f (.str e.1) ((e.2.map Value.str).getD .none)
    have he : (do modify (keep (← importOf (entryValue e))) : Walk ImportScan Unit) s = .ok () (s.keep i) := by
      rw [entryValue, lift_bind_of_ok (h _ _)]
      rfl
    rw [List.map_cons, List.map_cons, List.map_cons, List.append_cons]
    exact (bind_of_ok he _).trans (ih (s.keep i))

theorem forM_keep (is : List Import) (s : ImportScan) :
    (is.forM fun i => (modify (keep i) : Walk ImportScan Unit)) s = .ok () { s with recent := s.recent ++ is } := by
  induction is generalizing s with
  | nil => rw [List.append_nil]; rfl
  | cons i is ih =>
    rw [List.append_cons]
    exact ih (s.keep i)

theorem children_of_group {t : Tree} (h : t.wellFormed = true) (ht : (t.isA .list || t.isA .tuple) = true) :
    ∃ cs, t.children = .ok cs ∧ t.subnodes = cs.filter isNode := by
  obtain ⟨kind, line, fields, rfl, hfields, -⟩ := exists_node_of_wellFormed h
  have hroles : kind.roles = [.many] := by
    have hkind : kind = .list ∨ kind = .tuple := by simpa [isA, kind?] using ht
    rcases hkind with rfl | rfl <;> rfl
  rw [hroles] at hfields
  obtain ⟨group, rest, items, rfl, hgroup, -, hrest⟩ := fieldsFit_many hfields
  cases fieldsFit_nil hrest
  have hms := members_of_group hgroup
  refine ⟨openGroups items, ?_, ?_⟩
  · have hnil : childrenFrom [] [] = .ok [] := by simp [childrenFrom]
    rw [children, hroles, childrenFrom, hms, hnil]
    exact congrArg Except.ok (List.append_nil _)
  · have hnodes : nodesFrom [.many] [group] = .ok ((openGroups items).filter isNode ++ []) :=
      nodesFrom_many hms (by simp [nodesFrom])
    simp [subnodes, nodesBelow, hroles, hnodes, Except.toOption]

theorem targets_eq {t : Tree} (h : t.child 0 = list t.targetGroup ∨ t.child 0 = tuple t.targetGroup) :
    targets t = .ok t.targetGroup := by
  unfold targets
  rcases h with h | h <;> rw [h]

theorem listedModules_eq {t : Tree} (h : t.wellFormed = true) (ht : t.isA .assign = true) :
    listedModules t = .ok (t.listedConstants.map fun c =>
      { module := c.datum 0, symbol := .none, binding := c.datum 0, line := t.line, level := .int 0 }) := by
  obtain ⟨hgroup, hvalue, -⟩ := assign_of_wellFormed h ht
  unfold listedModules listedConstants
  rw [targets_eq hgroup]
  simp only [bind, Except.bind]
  split
  · rename_i hall
    rw [Bool.and_eq_true] at hall
    obtain ⟨cs, hcs, hsub⟩ := children_of_group hvalue hall.2
    have hconst : cs.filter (isA .const) = (cs.filter isNode).filter (isA .const) := by
      rw [List.filter_filter]
      apply List.filter_congr
      intro c _
      cases c <;> simp [isA, kind?, isNode]
    rw [hcs, hsub, ← hconst]
    rfl
  · rfl

theorem enter_importNames {line : Value} {fields : List Tree} (h : (node .importNames line fields).wellFormed = true)
    (s : ImportScan) : (visitor true).enter (node .importNames line fields) s =
      .ok () (s.met (node .importNames line fields)) := by
  rw [wellFormed, Bool.and_eq_true] at h
  obtain ⟨names, rest, rfl, hnil⟩ := fieldsFit_plain h.1
  cases fieldsFit_nil hnil
  obtain ⟨es, hes⟩ := exists_of_isEntries h.2
  let t := node .importNames line [names]
  have hnames : t.datum 0 = .list (es.map entryValue) := by simp [t, datum, child, Tree.fields, hes]
  change keepAll (moduleImport t) (t.datum 0) (s.settle .none) = _
  rw [hnames, keepAll_eq (moduleImport_eq t), ← hnames]
  rfl

theorem enter_fromImport {line : Value} {fields : List Tree} (h : (node .fromImport line fields).wellFormed = true)
    (s : ImportScan) : (visitor true).enter (node .fromImport line fields) s =
      .ok () (s.met (node .fromImport line fields)) := by
  rw [wellFormed, Bool.and_eq_true] at h
  obtain ⟨module, rest, rfl, hrest⟩ := fieldsFit_plain h.1
  obtain ⟨names, rest, rfl, hlevel⟩ := fieldsFit_plain hrest
  obtain ⟨level, rest, rfl, hnil⟩ := fieldsFit_plain hlevel
  cases fieldsFit_nil hnil
  obtain ⟨es, hes⟩ := exists_of_isEntries h.2
  let t := node .fromImport line [module, names, level]
  have hnames : t.datum 1 = .list (es.map entryValue) := by simp [t, datum, child, Tree.fields, hes]
  let symbols := (entries (t.datum 1)).map fun (name, other) => t.importOfSymbol name other
  change (if !(t.datum 0).same (.str "__future__") then keepAll (symbolImport t) (t.datum 1) else pure ())
    (s.settle .none) =
      .ok () { s.settle .none with recent := if (t.datum 0).same (.str "__future__") then [] else symbols }
  by_cases hfuture : (t.datum 0).same (.str "__future__") = true
  · rw [hfuture]
    rfl
  · simp only [symbols]
    rw [Bool.eq_false_iff.2 hfuture, hnames]
    exact keepAll_eq (symbolImport_eq t) es (s.settle .none)

theorem broughtIn_other {t : Tree} (hi : t.isA .importNames = false) (hf : t.isA .fromImport = false)
    (ha : t.isA .assign = false) : t.broughtIn = [] := by
  unfold broughtIn
  split <;> simp_all [isA]

theorem mem_entries_of_isEntries {names : Tree} (h : names.isEntries = true) {p : Value × Value}
    (hp : p ∈ entries (names.value?.getD .none)) :
    ∃ (name : String) (other : Option String), p = (.str name, (other.map Value.str).getD .none) := by
  obtain ⟨es, hes⟩ := exists_of_isEntries h
  rw [hes, Option.getD_some, entries_map] at hp
  obtain ⟨e, -, rfl⟩ := List.mem_map.1 hp
  exact ⟨e.1, e.2, rfl⟩

/-- What brings in an import: an entry of a statement, or a constant in a list of exports. -/
theorem broughtIn_cases {t : Tree} (h : t.wellFormed = true) {i : Import} (hi : i ∈ t.broughtIn) :
    (t.isA .importNames = true ∧ ∃ (name : String) (other : Option String),
      i = t.importOfModule (.str name) ((other.map Value.str).getD .none)) ∨
    (t.isA .fromImport = true ∧ ∃ (name : String) (other : Option String),
      i = t.importOfSymbol (.str name) ((other.map Value.str).getD .none)) ∨
    (t.isA .assign = true ∧ ∃ c ∈ t.listedConstants,
      i = { module := c.datum 0, symbol := .none, binding := c.datum 0, line := t.line, level := .int 0 }) := by
  obtain ⟨kind, line, fields, rfl, hfields, hdata⟩ := exists_node_of_wellFormed h
  by_cases hk : kind = .importNames
  · subst hk
    obtain ⟨names, rest, rfl, hnil⟩ := fieldsFit_plain hfields
    cases fieldsFit_nil hnil
    obtain ⟨p, hp, rfl⟩ := List.mem_map.1 hi
    obtain ⟨name, other, rfl⟩ := mem_entries_of_isEntries hdata hp
    exact .inl ⟨rfl, name, other, rfl⟩
  by_cases hf : kind = .fromImport
  · subst hf
    obtain ⟨module, rest, rfl, hrest⟩ := fieldsFit_plain hfields
    obtain ⟨names, rest, rfl, hlevel⟩ := fieldsFit_plain hrest
    obtain ⟨level, rest, rfl, hnil⟩ := fieldsFit_plain hlevel
    cases fieldsFit_nil hnil
    change i ∈ if _ then [] else _ at hi
    split at hi
    · cases hi
    · obtain ⟨p, hp, rfl⟩ := List.mem_map.1 hi
      obtain ⟨name, other, rfl⟩ := mem_entries_of_isEntries hdata hp
      exact .inr (.inl ⟨rfl, name, other, rfl⟩)
  by_cases ha : kind = .assign
  · subst ha
    obtain ⟨c, hc, rfl⟩ := List.mem_map.1 hi
    exact .inr (.inr ⟨rfl, c, hc, rfl⟩)
  · rw [broughtIn_other (by simpa [isA, kind?] using hk) (by simpa [isA, kind?] using hf)
      (by simpa [isA, kind?] using ha)] at hi
    cases hi

theorem enter_other {t : Tree} (hi : t.isA .importNames = false) (hf : t.isA .fromImport = false)
    (ha : t.isA .assign = false) (s : ImportScan) : (visitor true).enter t s = .ok () (s.met t) := by
  have hmet : s.met t = s.settle (remark t) := by simp [met, ha, broughtIn_other hi hf ha, settle]
  have henter : (visitor true).enter t s = .ok () (s.settle (if s.recent.isEmpty then .none else remark t)) := by
    simp only [isA, decide_eq_false_iff_not] at hi hf ha
    simp only [visitor]
    rfl
  rw [henter, hmet]
  by_cases hempty : s.recent = []
  · simp [settle, hempty]
  · simp [hempty]

theorem enter_eq {t : Tree} (h : t.wellFormed = true) (s : ImportScan) :
    (visitor true).enter t s = .ok () (s.met t) := by
  obtain ⟨kind, line, fields, rfl, -⟩ := exists_node_of_wellFormed h
  by_cases hi : kind = .importNames
  · subst hi
    exact enter_importNames h s
  by_cases hf : kind = .fromImport
  · subst hf
    exact enter_fromImport h s
  by_cases ha : kind = .assign
  · subst ha
    change (do let is ← liftM (listedModules _); is.forM fun i => modify (keep i) : Walk ImportScan Unit) s = _
    rw [lift_bind_of_ok (listedModules_eq h rfl), forM_keep]
    rfl
  · apply enter_other
    · simpa [isA, kind?] using hi
    · simpa [isA, kind?] using hf
    · simpa [isA, kind?] using ha

/-! ## All nodes -/

def nextRemark : List Tree → Value
  | [] => .none
  | t :: rest => if t.isA .assign then nextRemark rest else remark t

def withRemark (pragma : Value) (i : Import) : ImportRecord :=
  { i with pragma }

def recorded : List Tree → List ImportRecord
  | [] => []
  | t :: rest => t.broughtIn.map (withRemark (nextRemark rest)) ++ recorded rest

theorem finish_foldl_met (nodes : List Tree) (s : ImportScan) :
    (nodes.foldl met s).finish.records =
      s.records ++ s.recent.map (withRemark (nextRemark nodes)) ++ recorded nodes := by
  induction nodes generalizing s with
  | nil => simp [finish, settle, nextRemark, recorded, withRemark]
  | cons t rest ih =>
    rw [List.foldl_cons, ih]
    by_cases ht : t.isA .assign = true
    · simp [met, ht, nextRemark, recorded]
    · simp [met, ht, nextRemark, recorded, settle, withRemark]

theorem forM_enter {nodes : List Tree} (h : ∀ t ∈ nodes, t.wellFormed = true) (s : ImportScan) :
    forM nodes (visitor true).enter s = .ok () (nodes.foldl met s) := by
  induction nodes generalizing s with
  | nil => rfl
  | cons t rest ih =>
    rw [List.forM_cons, bind_of_ok (enter_eq (h t List.mem_cons_self) s), List.foldl_cons]
    exact ih (fun u hu => h u (List.mem_cons_of_mem t hu)) (s.met t)

end ImportScan

open ImportScan ImportAtlas.Tree

theorem outline_visitor (t : Tree) : t.outline (visitor true).descends = t.scanned := by
  apply outline_congr
  intro u
  by_cases hi : u.isA .importNames = true
  · exact .inr (subnodes_of_isA hi (by decide))
  · by_cases hf : u.isA .fromImport = true
    · exact .inr (subnodes_of_isA hf (by decide))
    · left
      simp [visitor, hi, hf]

/-- The records of a tree are those of its outline. -/
theorem imports_eq {t : Tree} (h : t.wellFormed = true) : t.imports = .ok (recorded t.scanned) := by
  have hwalk : (visitor true).walk t {} = .ok () (t.scanned.foldl met {}) := by
    rw [Visitor.walk_outline (fun _ _ _ => rfl) h, outline_visitor]
    exact forM_enter (fun u hu => wellFormed_of_mem_outline h hu) {}
  unfold Tree.imports Visitor.collect
  rw [hwalk]
  have hrecords := finish_foldl_met t.scanned {}
  simp only [List.map_nil, List.nil_append] at hrecords
  rw [← hrecords]
  rfl

theorem map_toImport_recorded (nodes : List Tree) :
    (recorded nodes).map ImportRecord.toImport = nodes.flatMap broughtIn := by
  induction nodes with
  | nil => rfl
  | cons t rest ih => simp [recorded, ih, withRemark, Function.comp_def]

/-- **Nothing is lost, doubled or moved.** A well-formed tree has its imports, and they are those of its nodes outside
assignments, from the top, one for each name. -/
theorem imports_of_outline {t : Tree} (h : t.wellFormed = true) :
    ∃ records, t.imports = .ok records ∧
      records.map ImportRecord.toImport = t.scanned.flatMap broughtIn :=
  ⟨recorded t.scanned, imports_eq h, map_toImport_recorded t.scanned⟩

/-! ## A package file

It imports from the future, imports two modules, takes all symbols of its own package in a function, and lists a module
and a name to export. -/

def packageFile : Tree :=
  node .program .none [plain .none, node .block .none [list [
    node .fromImport (.int 1) [word "__future__", list [tuple [word "division", plain .none]], plain (.int 0)],
    node .importNames (.int 2) [list [tuple [word "a", plain .none], tuple [word "b.c", word "d"]]],
    node .function (.int 3) [plain .none, word "f", list [], list [], plain (.int 0), plain .none,
      node .block .none [list [
        node .fromImport (.int 4) [word "", list [tuple [word "*", plain .none]], plain (.int 1)]]]],
    node .assign (.int 5) [list [node .assignName (.int 5) [word "__all__", word "OP_ASSIGN"]],
      node .list (.int 5) [list [node .const (.int 5) [word "x"], node .name (.int 5) [word "y"]]]]]]]

theorem imports_packageFile : ∃ records, packageFile.imports = .ok records ∧
    records.map ImportRecord.toImport = [
      { module := .str "a", symbol := .none, binding := .str "a", line := .int 2, level := .int 0 },
      { module := .str "b.c", symbol := .none, binding := .str "d", line := .int 2, level := .int 0 },
      { module := .str "", symbol := .none, binding := .none, line := .int 4, level := .int 1 },
      { module := .str "x", symbol := .none, binding := .str "x", line := .int 5, level := .int 0 }] := by
  have hsample : packageFile.wellFormed = true := by decide
  obtain ⟨records, himports, hrecords⟩ := imports_of_outline hsample
  refine ⟨records, himports, hrecords.trans ?_⟩
  cbv

end ImportAtlas
