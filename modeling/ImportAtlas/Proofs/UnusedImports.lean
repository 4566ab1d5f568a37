import ImportAtlas.Imports.Unused
import ImportAtlas.Proofs.ExportLists

/-!
# Unused imports

An import is found unused only if the name that it binds is neither a part of a chain of names nor listed in
`__all__`, and every import is found either used or unused.
-/

namespace ImportAtlas

open ImportAtlas.Tree

namespace Tree

/-- The name is a chain of the tree, or a part of one from its root. -/
def RefersTo (t : Tree) (name : String) : Prop :=
  ∃ u ∈ t.nodes, ∃ chain, u.chain? = some chain ∧ ∃ i < chain.length, name = ".".intercalate (chain.take (i + 1))

def HasRootOf (t : Tree) (dotted : String) : Prop :=
  ∃ u ∈ t.nodes, ∃ root attrs, u.chain? = some [root] ∧ dotted = ".".intercalate (root :: attrs)

def HasConstant (t : Tree) (v : Value) : Prop :=
  ∃ c ∈ t.nodes, c.isA .const = true ∧ c.datum 0 = v

theorem isKey_of_const {c : Tree} (h : c.wellFormed = true) (hc : c.isA .const = true) : (c.datum 0).isKey = true := by
  obtain ⟨kind, line, fields, rfl, hfields, hdata⟩ := exists_node_of_wellFormed h
  have hkind : kind = .const := by simpa [isA, kind?] using hc
  subst hkind
  obtain ⟨value, rest, rfl, hnil⟩ := fieldsFit_plain hfields
  cases fieldsFit_nil hnil
  rw [dataFits, Option.any_eq_true] at hdata
  obtain ⟨v, hv, hkey⟩ := hdata
  simpa [datum, child, Tree.fields, hv] using hkey

end Tree

namespace Usage

/-- The constants of a well-formed tree can be compared with names, so that none of the exports is refused. -/
theorem exportedKeys_of_wellFormed {t : Tree} (h : t.wellFormed = true) : ∃ constants keys,
    t.exports = .ok constants ∧ (constants.mapM fun p => p.1.asKey) = .ok keys ∧
    (∀ v, t.Lists v → v ∈ keys) ∧ ∀ v ∈ keys, t.HasConstant v := by
  obtain ⟨constants, hconstants, hlists, hconst⟩ := exports_of_wellFormed h
  have hkey : ∀ p ∈ constants, p.1.asKey = .ok p.1 := by
    intro p hp
    obtain ⟨c, hc, hisA, hdatum⟩ := hconst p hp
    apply if_pos
    rw [← hdatum]
    exact isKey_of_const (wellFormed_of_mem_outline h hc) hisA
  obtain ⟨keys, hkeys⟩ := mapM_ok fun p hp => ⟨p.1, hkey p hp⟩
  refine ⟨constants, keys, hconstants, hkeys, ?_, ?_⟩
  · intro v hv
    obtain ⟨line, hp⟩ := hlists v hv
    exact (mem_of_mapM hkeys v).2 ⟨_, hp, hkey _ hp⟩
  · intro v hv
    obtain ⟨p, hp, hv⟩ := (mem_of_mapM hkeys v).1 hv
    cases (hkey p hp).symm.trans hv
    exact hconst p hp

theorem usedNames_of_wellFormed {t : Tree} (h : t.wellFormed = true) : ∃ names, usedNames t = .ok names ∧
    (∀ name, t.RefersTo name → .str name ∈ names) ∧ (∀ v, t.Lists v → v ∈ names) ∧
    ∀ v ∈ names, (∃ dotted, v = .str dotted ∧ t.HasRootOf dotted) ∨ t.HasConstant v := by
  obtain ⟨uses, huses, hparts, hroots⟩ := nameUses_of_wellFormed h
  obtain ⟨constants, keys, hconstants, hkeys, hlists, hconst⟩ := exportedKeys_of_wellFormed h
  refine ⟨uses.dotted.map (fun p => .str p.1) ++ keys, ?_, ?_, ?_, ?_⟩
  · unfold usedNames
    rw [huses, hconstants]
    exact congrArg (· >>= fun keys => .ok (uses.dotted.map (fun p => .str p.1) ++ keys)) hkeys
  · rintro name ⟨u, hu, chain, hchain, i, hi, rfl⟩
    obtain ⟨line, hline⟩ := hparts u hu chain hchain i hi
    exact List.mem_append_left _ (List.mem_map.2 ⟨_, hline, rfl⟩)
  · intro v hv
    exact List.mem_append_right _ (hlists v hv)
  · intro v hv
    rcases List.mem_append.1 hv with hv | hv
    · obtain ⟨p, hp, rfl⟩ := List.mem_map.1 hv
      exact .inl ⟨p.1, rfl, hroots p hp⟩
    · exact .inr (hconst v hv)

/-! ## Records -/

def isUnused (names : List Value) (r : ImportRecord) : Bool :=
  !r.binding.isNone && !r.binding.among names

theorem step_eq {names : List Value} {r : ImportRecord} (hr : r.binding.isKey = true) (s : Usage) :
    step names s r.toValue = .ok (if isUnused names r then { s with unused := s.unused ++ [r.toValue] }
      else { s with used := s.used ++ [r.toValue] }) := by
  have hkey : r.binding.asKey = .ok r.binding := if_pos hr
  unfold step isUnused
  rw [r.ofValue_toValue]
  by_cases hnone : r.binding.isNone = true
  · simp [hnone, bind, Except.bind, pure, Except.pure]
  · by_cases hamong : r.binding.among names = true
    · simp [hnone, hamong, hkey, bind, Except.bind, pure, Except.pure]
    · simp [hnone, hamong, hkey, bind, Except.bind, pure, Except.pure]

theorem foldlM_step {names : List Value} {records : List ImportRecord} (hkeys : ∀ r ∈ records, r.binding.isKey = true)
    (s : Usage) : (records.map ImportRecord.toValue).foldlM (step names) s = .ok
      { used := s.used ++ (records.filter fun r => !isUnused names r).map ImportRecord.toValue
        unused := s.unused ++ (records.filter (isUnused names)).map ImportRecord.toValue } := by
  induction records generalizing s with
  | nil => simp; rfl
  | cons r records ih =>
    rw [List.map_cons, List.foldlM_cons, step_eq (hkeys r List.mem_cons_self)]
    refine (ih (fun r' hr' => hkeys r' (List.mem_cons_of_mem r hr')) _).trans ?_
    by_cases hr : isUnused names r = true
    · simp [hr]
    · simp [hr]

end Usage

open Usage

theorem Value.isNone_iff {v : Value} : v.isNone = true ↔ v = .none := by
  cases v <;> simp [isNone]

theorem Value.among_iff {v : Value} {vs : List Value} : v.among vs = true ↔ ∃ w ∈ vs, v.same w = true := by
  simp [among]

/-- **Unused imports are unmentioned.** The imports are split in two, each part in their order. One that is found unused
binds a name, which is no part of a chain from its root and no constant listed in `__all__`. One that is found used
binds no name, or one whose root is a name of the tree, or a constant of the tree. -/
theorem unused_only_if_unmentioned {t : Tree} (h : t.wellFormed = true) {records : List ImportRecord}
    (hkeys : ∀ r ∈ records, r.binding.isKey = true) : ∃ unused : ImportRecord → Bool,
    Usage.split t (records.map ImportRecord.toValue) = .ok
      { used := (records.filter fun r => !unused r).map ImportRecord.toValue
        unused := (records.filter unused).map ImportRecord.toValue } ∧
    (∀ r, unused r = true → r.binding ≠ .none ∧ (∀ name, t.RefersTo name → r.binding ≠ .str name) ∧
      ∀ v, t.Lists v → r.binding.same v = false) ∧
    ∀ r, unused r = false → r.binding = .none ∨
      ∃ v, r.binding.same v = true ∧ ((∃ dotted, v = .str dotted ∧ t.HasRootOf dotted) ∨ t.HasConstant v) := by
  obtain ⟨names, hnames, hrefers, hlists, honly⟩ := usedNames_of_wellFormed h
  refine ⟨isUnused names, ?_, ?_, ?_⟩
  · unfold Usage.split
    rw [hnames]
    exact (foldlM_step hkeys {}).trans (by simp)
  · intro r hr
    simp only [isUnused, Bool.and_eq_true, Bool.not_eq_true'] at hr
    obtain ⟨hnone, hamong⟩ := hr
    have hdiffers : ∀ v ∈ names, r.binding.same v = false := by
      intro v hv
      rw [← Bool.not_eq_true]
      intro hsame
      rw [Value.among_iff.2 ⟨v, hv, hsame⟩] at hamong
      cases hamong
    refine ⟨?_, ?_, fun v hv => hdiffers v (hlists v hv)⟩
    · intro hb
      rw [hb] at hnone
      cases hnone
    · intro name hname hb
      have hself := hdiffers _ (hrefers name hname)
      rw [hb] at hself
      simp [Value.same] at hself
  · intro r hr
    by_cases hnone : r.binding.isNone = true
    · exact .inl (Value.isNone_iff.1 hnone)
    · have hamong : r.binding.among names = true := by simpa [isUnused, hnone] using hr
      obtain ⟨v, hv, hsame⟩ := Value.among_iff.1 hamong
      exact .inr ⟨v, hsame, honly v hv⟩

/-! ## A client

It lists one of its imports, and takes an attribute of the result of a call, which waits until the name of the function
is met. -/

namespace Client

def osPathJoin : Tree :=
  node .attribute (.int 5) [node .attribute (.int 5) [node .name (.int 5) [word "os"], word "path"], word "join"]

def program : Tree :=
  node .program .none [plain .none, node .block .none [list [
    node .assign (.int 4) [list [node .assignName (.int 4) [word "__all__", word "OP_ASSIGN"]],
      node .list (.int 4) [list [node .const (.int 4) [word "listed"]]]],
    node .discard (.int 5) [node .attribute (.int 5) [
      node .call (.int 5) [node .name (.int 5) [word "f"], list [osPathJoin], plain .none, plain .none],
        word "name"]]]]]

def importAs (binding : Value) : ImportRecord where
  module := .str "m"
  symbol := .none
  binding := binding
  line := .int 1
  level := .int 0
  pragma := .none

def importRecords : List ImportRecord := [.none, .str "os.path", .str "listed", .str "lost"].map importAs

end Client

open Client

theorem unused_of_client : ∃ unused : ImportRecord → Bool,
    Usage.split program (importRecords.map ImportRecord.toValue) = .ok
      { used := (importRecords.filter fun r => !unused r).map ImportRecord.toValue
        unused := (importRecords.filter unused).map ImportRecord.toValue } ∧
    importRecords.map unused = [false, false, false, true] := by
  have hkeys : ∀ r ∈ importRecords, r.binding.isKey = true := by decide
  obtain ⟨unused, hsplit, hunused, -⟩ := unused_only_if_unmentioned (t := program) (by decide) hkeys
  have hpath : program.RefersTo "os.path" :=
    ⟨osPathJoin, List.mem_of_getElem? (i := 10) (by cbv), ["os", "path", "join"], rfl, 1, by decide, rfl⟩
  have hlisted : program.Lists (.str "listed") :=
    ⟨_, List.mem_of_getElem? (i := 2) (by cbv), rfl, ⟨_, List.mem_singleton_self _, rfl⟩, _,
      List.mem_of_getElem? (i := 1) (by cbv), rfl, rfl⟩
  have h₁ : unused (importAs .none) = false := Bool.eq_false_iff.2 fun h => (hunused _ h).1 rfl
  have h₂ : unused (importAs (.str "os.path")) = false := Bool.eq_false_iff.2 fun h => (hunused _ h).2.1 _ hpath rfl
  have h₃ : unused (importAs (.str "listed")) = false :=
    Bool.eq_false_iff.2 fun h => Bool.noConfusion ((hunused _ h).2.2 _ hlisted)
  have hrun : Usage.split program (importRecords.map ImportRecord.toValue) = .ok
      { used := (importRecords.take 3).map ImportRecord.toValue, unused := [(importAs (.str "lost")).toValue] } := rfl
  have h₄ : unused (importAs (.str "lost")) = true := by
    rw [← Bool.not_eq_false]
    intro h
    rw [hsplit] at hrun
    simp [importRecords, h₁, h₂, h₃, h] at hrun
  exact ⟨unused, hsplit, by simp [importRecords, h₁, h₂, h₃, h₄]⟩

end ImportAtlas
