import ImportAtlas.Analysis.Dependencies
import ImportAtlas.Proofs.UnusedImports
import ImportAtlas.Proofs.ValueOrder

/-!
# Modules that are listed

A list that is assigned to `__all__` is read twice: each of its constants is an import, and each is an exported name.
The scan for imports goes below no assignment and takes only a list alone; the walk for exports goes everywhere, so it
meets all that the scan takes. An import that comes from such a list is thus never unused.
-/

namespace ImportAtlas

open ImportScan ImportAtlas.Tree Usage

namespace Tree

theorem namesAll_of_isAllAlone {targets : List Tree} (h : isAllAlone targets = true) :
    ∃ target ∈ targets, target.namesAll = true := by
  unfold isAllAlone at h
  split at h
  · rename_i target
    simp only [Bool.and_eq_true] at h
    exact ⟨target, List.mem_singleton_self target, by simp [namesAll, h]⟩
  · cases h

theorem lists_of_listedConstants {t a c : Tree} (ha : a ∈ t.nodes) (hassign : a.isA .assign = true)
    (hc : c ∈ a.listedConstants) : t.Lists (c.datum 0) := by
  unfold listedConstants at hc
  split at hc
  · rename_i halone
    rw [Bool.and_eq_true] at halone
    obtain ⟨hc, hconst⟩ := List.mem_filter.1 hc
    have hnodes : c ∈ (a.child 1).nodes := by
      rw [nodes_eq]
      exact List.mem_cons_of_mem _ (List.mem_flatMap_of_mem hc (mem_outline_self c))
    exact ⟨a, ha, hassign, namesAll_of_isAllAlone halone.1, c, hnodes, hconst, rfl⟩
  · cases hc

theorem isKey_of_listedConstants {a c : Tree} (h : a.wellFormed = true) (ha : a.isA .assign = true)
    (hc : c ∈ a.listedConstants) : (c.datum 0).isKey = true := by
  unfold listedConstants at hc
  split at hc
  · obtain ⟨hc, hconst⟩ := List.mem_filter.1 hc
    have hvalue := (assign_of_wellFormed h ha).2.1
    exact isKey_of_const ((nodesBelow_of_wellFormed hvalue).2 c hc) hconst
  · cases hc

end Tree

/-! ## What imports bind -/

theorem boundName_text (name : String) (other : Option String) :
    ∃ text, boundName (.str name) ((other.map Value.str).getD .none) = .str text := by
  unfold boundName
  cases other with
  | none => exact ⟨name, rfl⟩
  | some text =>
    rw [Option.map_some, Option.getD_some]
    split
    · exact ⟨text, rfl⟩
    · exact ⟨name, rfl⟩

theorem isKey_binding_of_broughtIn {t : Tree} (h : t.wellFormed = true) {i : Import} (hi : i ∈ t.broughtIn) :
    i.binding.isKey = true := by
  rcases broughtIn_cases h hi with ⟨-, name, other, rfl⟩ | ⟨-, name, other, rfl⟩ | ⟨ha, c, hc, rfl⟩
  · obtain ⟨text, htext⟩ := boundName_text name other
    rw [importOfModule, htext]
    rfl
  · obtain ⟨text, htext⟩ := boundName_text name other
    unfold importOfSymbol
    split
    · rfl
    · rw [htext]
      rfl
  · exact isKey_of_listedConstants h ha hc

theorem mem_recorded {nodes : List Tree} {r : ImportRecord} (h : r ∈ recorded nodes) :
    ∃ u ∈ nodes, r.toImport ∈ u.broughtIn := by
  have himport : r.toImport ∈ nodes.flatMap broughtIn := by
    rw [← map_toImport_recorded]
    exact List.mem_map_of_mem h
  exact List.mem_flatMap.1 himport

theorem isKey_binding_of_recorded {t : Tree} (h : t.wellFormed = true) {r : ImportRecord}
    (hr : r ∈ recorded t.scanned) : r.binding.isKey = true := by
  obtain ⟨u, hu, hi⟩ := mem_recorded hr
  exact isKey_binding_of_broughtIn (wellFormed_of_mem_outline h hu) hi

/-! ## Used and unused -/

theorem Value.among_of_mem {v : Value} {vs : List Value} (h : v ∈ vs) : v.among vs = true :=
  Value.among_iff.2 ⟨v, h, Value.same_refl v⟩

theorem Usage.isUnused_of_mem {names : List Value} {r : ImportRecord} (h : r.binding ∈ names) :
    isUnused names r = false := by
  simp [isUnused, Value.among_of_mem h]

theorem Usage.split_eq {t : Tree} {names : List Value} (hnames : usedNames t = .ok names) {records : List ImportRecord}
    (hkeys : ∀ r ∈ records, r.binding.isKey = true) : Usage.split t (records.map ImportRecord.toValue) = .ok
      { used := (records.filter fun r => !isUnused names r).map ImportRecord.toValue
        unused := (records.filter (isUnused names)).map ImportRecord.toValue } := by
  unfold Usage.split
  rw [hnames]
  exact (foldlM_step hkeys {}).trans (by simp)

theorem mapM_unusedProblem (records : List ImportRecord) :
    ((records.map ImportRecord.toValue).mapM fun v => do
      return ({ kind := .unused, name := (← ImportRecord.ofValue v).binding } : Problem)) =
      .ok (records.map fun r => { kind := .unused, name := r.binding }) := by
  induction records with
  | nil => rfl
  | cons r records ih =>
    rw [List.map_cons, List.mapM_cons, r.ofValue_toValue, ih]
    rfl

theorem consideredImports_eq {t : Tree} {records : List ImportRecord} (himports : t.imports = .ok records)
    {unused : ImportRecord → Bool} (hsplit : Usage.split t (records.map ImportRecord.toValue) = .ok
      { used := (records.filter fun r => !unused r).map ImportRecord.toValue
        unused := (records.filter unused).map ImportRecord.toValue })
    {options : SearchOptions} (hoptions : options.ignoreUnused = true) : Run.consideredImports options t =
      .ok ((records.filter fun r => !unused r).map ImportRecord.toValue,
        (records.filter unused).map fun r => { kind := .unused, name := r.binding }) := by
  unfold Run.consideredImports
  rw [himports]
  simp only [bind, Except.bind, hoptions, if_true, hsplit]
  have hproblems := mapM_unusedProblem (records.filter unused)
  simp only [bind, Except.bind] at hproblems
  rw [hproblems]
  rfl

/-- **Listed modules are used.** The imports of a tree, or any of them, are split into used and unused ones, and a
search that passes over the unused ones keeps the used ones and reports the others. The imports that come from an
assignment to `__all__` are in one piece among all imports, and none of them is unused. -/
theorem listed_modules_used {t : Tree} (h : t.wellFormed = true) :
    ∃ (records : List ImportRecord) (unused : ImportRecord → Bool), t.imports = .ok records ∧
    (∀ rs ⊆ records, Usage.split t (rs.map ImportRecord.toValue) = .ok
      { used := (rs.filter fun r => !unused r).map ImportRecord.toValue
        unused := (rs.filter unused).map ImportRecord.toValue }) ∧
    (∀ options : SearchOptions, options.ignoreUnused = true → Run.consideredImports options t =
      .ok ((records.filter fun r => !unused r).map ImportRecord.toValue,
        (records.filter unused).map fun r => { kind := .unused, name := r.binding })) ∧
    ∀ before a after, t.scanned = before ++ a :: after → a.isA .assign = true →
      ∃ front pragma back, records = front ++ a.broughtIn.map (withRemark pragma) ++ back ∧
        front.map ImportRecord.toImport = before.flatMap broughtIn ∧
        ∀ i ∈ a.broughtIn, unused (withRemark pragma i) = false := by
  obtain ⟨names, hnames, -, hlists, -⟩ := usedNames_of_wellFormed h
  have hkeys : ∀ r ∈ recorded t.scanned, r.binding.isKey = true := fun r hr => isKey_binding_of_recorded h hr
  refine ⟨recorded t.scanned, isUnused names, imports_eq h, ?_, ?_, ?_⟩
  · intro rs hrs
    exact split_eq hnames fun r hr => hkeys r (hrs hr)
  · intro options hoptions
    exact consideredImports_eq (imports_eq h) (split_eq hnames hkeys) hoptions
  · intro before a after hscanned ha
    obtain ⟨front, hfront, hbefore⟩ := recorded_append before (a :: after)
    refine ⟨front, nextRemark after, recorded after, ?_, hbefore, fun i hi => ?_⟩
    · rw [hscanned, hfront, recorded, List.append_assoc]
    · have hmem : a ∈ t.scanned := by simp [hscanned]
      -- what an assignment brings in is bound to the constant itself
      rcases broughtIn_cases (wellFormed_of_mem_outline h hmem) hi with ⟨hk, -⟩ | ⟨hk, -⟩ | ⟨-, c, hc, rfl⟩
      · simp [isA_other hk (by decide : Kind.importNames ≠ .assign)] at ha
      · simp [isA_other hk (by decide : Kind.fromImport ≠ .assign)] at ha
      · have hlisted := lists_of_listedConstants (mem_nodes_of_mem_outline hmem) ha hc
        exact isUnused_of_mem (hlists _ hlisted)

/-! ## A list in a branch -/

namespace Branching

/-- `__all__ = ('a', y, 'a.b')` -/
def assignment : Tree :=
  node .assign (.int 2) [list [node .assignName (.int 2) [word "__all__", word "OP_ASSIGN"]],
    node .tuple (.int 2) [list [node .const (.int 2) [word "a"], node .name (.int 2) [word "y"],
      node .const (.int 2) [word "a.b"]]]]

def branch : Tree :=
  node .branch (.int 1) [list [tuple [node .name (.int 1) [word "x"], node .block .none [list [assignment]]]],
    plain .none]

def lastImport : Tree := node .importNames (.int 3) [list [tuple [word "c", plain .none]]]

def program : Tree := node .program .none [plain .none, node .block .none [list [branch, lastImport]]]

end Branching

open Branching

theorem listed_in_branch_used : program.wellFormed = true ∧
    ∃ (records : List ImportRecord) (unused : ImportRecord → Bool), program.imports = .ok records ∧
      Usage.split program (records.map ImportRecord.toValue) = .ok
        { used := (records.filter fun r => !unused r).map ImportRecord.toValue
          unused := (records.filter unused).map ImportRecord.toValue } ∧
      ∃ pragma back, records = assignment.broughtIn.map (withRemark pragma) ++ back ∧ assignment.broughtIn.length = 2 ∧
        ∀ i ∈ assignment.broughtIn, unused (withRemark pragma i) = false := by
  have hwell : program.wellFormed = true := by decide
  obtain ⟨records, unused, himports, hsplit, -, hlisted⟩ := listed_modules_used hwell
  have hscanned : program.scanned = [program, node .block .none [list [branch, lastImport]], branch,
      node .name (.int 1) [word "x"], node .block .none [list [assignment]]] ++ assignment :: [lastImport] := by cbv
  obtain ⟨front, pragma, back, hrecords, hfront, hused⟩ := hlisted _ assignment _ hscanned rfl
  have hnone : front = [] := by
    rw [← List.map_eq_nil_iff (f := ImportRecord.toImport), hfront]
    cbv
  subst hnone
  exact ⟨hwell, records, unused, himports, hsplit records (List.Subset.refl _), pragma, back, hrecords, by cbv, hused⟩

end ImportAtlas
