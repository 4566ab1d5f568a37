import ImportAtlas.Imports.Duplicates
import ImportAtlas.Proofs.Equality
import ImportAtlas.Proofs.ListedModules

/-!
# Repeated imports

Imports that bring in one name repeat each other: the module with the symbol, joined by a dot. An import counts as
repeated if one before it has its name, whatever the levels of the two are, and also if one of them is not stated but
listed in `__all__`. So all real repeats are found, and others with them.
-/

namespace ImportAtlas

def withEarlier {α : Type} (earlier : List α) : List α → List (List α × α)
  | [] => []
  | x :: xs => (earlier, x) :: withEarlier (earlier ++ [x]) xs

theorem withEarlier_map {α β : Type} (f : α → β) (earlier xs : List α) : withEarlier (earlier.map f) (xs.map f) =
    (withEarlier earlier xs).map fun p => (p.1.map f, f p.2) := by
  induction xs generalizing earlier with
  | nil => rfl
  | cons x xs ih =>
    have hearlier : earlier.map f ++ [f x] = (earlier ++ [x]).map f := by simp
    rw [List.map_cons, withEarlier, hearlier, ih, withEarlier, List.map_cons]

theorem map_snd_withEarlier {α : Type} (earlier xs : List α) : (withEarlier earlier xs).map Prod.snd = xs := by
  induction xs generalizing earlier with
  | nil => rfl
  | cons x xs ih => rw [withEarlier, List.map_cons, ih]

theorem mem_of_mem_withEarlier {α : Type} {earlier xs : List α} {p : List α × α} (h : p ∈ withEarlier earlier xs) :
    p.2 ∈ xs ∧ ∀ y ∈ p.1, y ∈ earlier ∨ y ∈ xs := by
  induction xs generalizing earlier with
  | nil => cases h
  | cons x xs ih =>
    rw [withEarlier, List.mem_cons] at h
    rcases h with rfl | h
    · exact ⟨List.mem_cons_self, fun y hy => .inl hy⟩
    · obtain ⟨hmem, hearlier⟩ := ih h
      refine ⟨List.mem_cons_of_mem x hmem, fun y hy => ?_⟩
      rcases hearlier y hy with hy | hy
      · rcases List.mem_append.1 hy with hy | hy
        · exact .inl hy
        · exact .inr (List.mem_cons.2 (.inl (List.mem_singleton.1 hy)))
      · exact .inr (List.mem_cons_of_mem x hy)

namespace Repeats

/-! ## Names -/

def nameOf (r : ImportRecord) : Value :=
  (fullName r).toOption.getD .none

def Named (r : ImportRecord) : Prop :=
  fullName r = .ok (nameOf r) ∧ (nameOf r).isKey = true

theorem named_of_eq {r : ImportRecord} {name : Value} (h : fullName r = .ok name) (hkey : name.isKey = true) :
    Named r := by
  have hname : nameOf r = name := by rw [nameOf, h]; rfl
  exact ⟨by rw [h, hname], by rw [hname, hkey]⟩

def repeatsName (p : List ImportRecord × ImportRecord) : Bool :=
  (nameOf p.2).among (p.1.map nameOf)

def firsts (records : List ImportRecord) : List ImportRecord :=
  ((withEarlier [] records).filter fun p => !repeatsName p).map Prod.snd

/-! ## One import -/

theorem step_eq {r : ImportRecord} (hr : Named r) (s : Repeats) : step s r.toValue =
    .ok (if (nameOf r).among s.names then { s with repeated := s.repeated ++ [r.toValue] }
      else { s with unique := s.unique ++ [r.toValue], names := s.names ++ [nameOf r] }) := by
  have hkey : (nameOf r).asKey = .ok (nameOf r) := if_pos hr.2
  unfold step
  rw [r.ofValue_toValue]
  simp only [bind, Except.bind, hr.1, hkey]
  split <;> rfl

theorem named_of_step {r : ImportRecord} {s s' : Repeats} (h : step s r.toValue = .ok s') : Named r := by
  unfold step at h
  obtain ⟨r', hr, h⟩ := except_bind_inv h
  cases r.ofValue_toValue.symm.trans hr
  obtain ⟨name, hname, h⟩ := except_bind_inv h
  obtain ⟨key, hkey, -⟩ := except_bind_inv h
  refine named_of_eq hname ?_
  unfold Value.asKey at hkey
  split at hkey
  · assumption
  · cases hkey

/-- What is remembered after an import stands for all names so far: a name that is not kept is like one that is. -/
theorem among_names {names earlier : List Value} (h : ∀ v : Value, v.among names = v.among earlier) (name v : Value) :
    v.among (if name.among names then names else names ++ [name]) = v.among (earlier ++ [name]) := by
  have hboth : v.among (earlier ++ [name]) = (v.among names || v.same name) := by
    rw [h v]
    simp [Value.among]
  rw [hboth]
  split
  · rename_i hamong
    cases hsame : v.same name with
    | false => rw [Bool.or_false]
    | true =>
      obtain ⟨w, hw, hname⟩ := Value.among_iff.1 hamong
      rw [Bool.or_true, Value.among_iff]
      exact ⟨w, hw, Value.same_trans hsame hname⟩
  · simp [Value.among]

/-! ## All imports -/

theorem foldlM_step {records : List ImportRecord} (hrecords : ∀ r ∈ records, Named r) {s : Repeats}
    {earlier : List ImportRecord} (hnames : ∀ v : Value, v.among s.names = v.among (earlier.map nameOf)) :
    ∃ names, (records.map ImportRecord.toValue).foldlM step s = .ok
      { unique := s.unique ++ ((withEarlier earlier records).filter fun p => !repeatsName p).map fun p => p.2.toValue
        repeated := s.repeated ++ ((withEarlier earlier records).filter repeatsName).map fun p => p.2.toValue
        names } := by
  induction records generalizing s earlier with
  | nil =>
    refine ⟨s.names, ?_⟩
    simp only [withEarlier, List.filter_nil, List.map_nil, List.append_nil]
    rfl
  | cons r records ih =>
    obtain ⟨hr, hrecords⟩ := List.forall_mem_cons.1 hrecords
    rw [List.map_cons, List.foldlM_cons, step_eq hr]
    have hnext := among_names hnames (nameOf r)
    rw [← List.map_singleton, ← List.map_append] at hnext
    have hsame : repeatsName (earlier, r) = (nameOf r).among s.names := (hnames _).symm
    change ∃ names, (records.map ImportRecord.toValue).foldlM step _ = _
    by_cases hamong : (nameOf r).among s.names = true
    · rw [if_pos hamong] at hnext ⊢
      obtain ⟨names, hrun⟩ := ih hrecords (s := { s with repeated := s.repeated ++ [r.toValue] }) hnext
      refine ⟨names, hrun.trans ?_⟩
      simp [withEarlier, hsame, hamong]
    · rw [if_neg hamong] at hnext ⊢
      obtain ⟨names, hrun⟩ := ih hrecords
        (s := { s with unique := s.unique ++ [r.toValue], names := s.names ++ [nameOf r] }) hnext
      refine ⟨names, hrun.trans ?_⟩
      simp [withEarlier, hsame, hamong]

theorem split_eq {records : List ImportRecord} (hrecords : ∀ r ∈ records, Named r) :
    ∃ names, split (records.map ImportRecord.toValue) = .ok
      { unique := (firsts records).map ImportRecord.toValue
        repeated := ((withEarlier [] records).filter repeatsName).map fun p => p.2.toValue
        names } := by
  obtain ⟨names, hrun⟩ := @foldlM_step records hrecords {} [] fun _ => rfl
  refine ⟨names, hrun.trans ?_⟩
  simp [firsts]

theorem named_of_foldlM {records : List ImportRecord} {s s' : Repeats}
    (h : (records.map ImportRecord.toValue).foldlM step s = .ok s') : ∀ r ∈ records, Named r := by
  induction records generalizing s with
  | nil => simp
  | cons r records ih =>
    rw [List.map_cons, List.foldlM_cons] at h
    obtain ⟨next, hstep, h⟩ := except_bind_inv h
    exact List.forall_mem_cons.2 ⟨named_of_step hstep, ih h⟩

theorem split_inv {records : List ImportRecord} {s : Repeats} (h : split (records.map ImportRecord.toValue) = .ok s) :
    s.unique = (firsts records).map ImportRecord.toValue ∧
      s.repeated = ((withEarlier [] records).filter repeatsName).map fun p => p.2.toValue := by
  obtain ⟨names, hrun⟩ := split_eq (named_of_foldlM h)
  cases h.symm.trans hrun
  exact ⟨rfl, rfl⟩

end Repeats

open ImportScan ImportAtlas.Tree Repeats

/-! ## Imports and where they come from -/

namespace Tree

def traced : List Tree → List (Tree × ImportRecord)
  | [] => []
  | t :: rest => (t.broughtIn.map fun i => (t, withRemark (nextRemark rest) i)) ++ traced rest

theorem map_snd_traced (nodes : List Tree) : (traced nodes).map Prod.snd = recorded nodes := by
  induction nodes with
  | nil => rfl
  | cons t rest ih => simp [traced, recorded, ih, Function.comp_def]

def importHistory (t : Tree) : List (List (Tree × ImportRecord) × (Tree × ImportRecord)) :=
  withEarlier [] (traced t.scanned)

theorem map_importHistory (t : Tree) :
    t.importHistory.map (fun p => (p.1.map Prod.snd, p.2.2)) = withEarlier [] (recorded t.scanned) := by
  rw [importHistory, ← map_snd_traced, ← withEarlier_map, List.map_nil]

def isStatement (t : Tree) : Bool :=
  t.isA .importNames || t.isA .fromImport

def sharesName (p : List (Tree × ImportRecord) × (Tree × ImportRecord)) : Bool :=
  p.1.any fun q => (nameOf p.2.2).same (nameOf q.2)

/-- The import is stated, and one before it is stated too, with the same level and the same name. -/
def isRepeat (p : List (Tree × ImportRecord) × (Tree × ImportRecord)) : Bool :=
  p.2.1.isStatement && p.1.any fun q =>
    q.1.isStatement && p.2.2.level.same q.2.level && (nameOf p.2.2).same (nameOf q.2)

theorem sharesName_of_isRepeat {p : List (Tree × ImportRecord) × (Tree × ImportRecord)} (h : isRepeat p = true) :
    sharesName p = true := by
  rw [isRepeat, Bool.and_eq_true, List.any_eq_true] at h
  obtain ⟨-, q, hq, h⟩ := h
  rw [Bool.and_eq_true] at h
  exact List.any_eq_true.2 ⟨q, hq, h.2⟩

theorem repeatsName_importHistory (p : List (Tree × ImportRecord) × (Tree × ImportRecord)) :
    repeatsName (p.1.map Prod.snd, p.2.2) = sharesName p := by
  simp [repeatsName, sharesName, Value.among, Function.comp_def]

theorem filter_importHistory (t : Tree) (keep : Bool → Bool) :
    ((withEarlier [] (recorded t.scanned)).filter fun p => keep (repeatsName p)).map (fun p => p.2.toValue) =
      (t.importHistory.filter fun p => keep (sharesName p)).map fun p => p.2.2.toValue := by
  rw [← map_importHistory, List.filter_map, List.map_map]
  simp only [Function.comp_def, repeatsName_importHistory]

end Tree

theorem named_of_broughtIn {t : Tree} (h : t.wellFormed = true)
    (hmodule : t.isA .fromImport = true → (t.child 0).isText = true) {r : ImportRecord}
    (hr : r.toImport ∈ t.broughtIn) :
    Named r := by
  obtain ⟨i, pragma⟩ := r
  rcases broughtIn_cases h hr with ⟨-, name, other, rfl⟩ | ⟨hfrom, name, other, rfl⟩ | ⟨ha, c, hc, rfl⟩
  · exact named_of_eq rfl rfl
  · obtain ⟨module, hchild⟩ := exists_of_isText (hmodule hfrom)
    have hdatum : t.datum 0 = .str module := by simp [datum, hchild, value?]
    unfold importOfSymbol
    rw [hdatum]
    split
    · exact named_of_eq rfl rfl
    · exact named_of_eq rfl rfl
  · exact named_of_eq rfl (isKey_of_listedConstants h ha hc)

theorem exists_split {t : Tree} (h : t.wellFormed = true)
    (hmodules : ∀ u ∈ t.scanned, u.isA .fromImport = true → (u.child 0).isText = true) :
    ∃ split, Repeats.split ((recorded t.scanned).map ImportRecord.toValue) = .ok split := by
  have hnamed : ∀ r ∈ recorded t.scanned, Named r := by
    intro r hr
    obtain ⟨u, hu, hi⟩ := mem_recorded hr
    exact named_of_broughtIn (wellFormed_of_mem_outline h hu) (hmodules u hu) hi
  obtain ⟨names, hsplit⟩ := Repeats.split_eq hnamed
  exact ⟨_, hsplit⟩

theorem split_importHistory {t : Tree} {split : Repeats}
    (h : Repeats.split ((recorded t.scanned).map ImportRecord.toValue) = .ok split) :
    split.unique = (t.importHistory.filter fun p => !sharesName p).map (fun p => p.2.2.toValue) ∧
      split.repeated = (t.importHistory.filter sharesName).map fun p => p.2.2.toValue := by
  obtain ⟨hunique, hrepeated⟩ := split_inv h
  constructor
  · rw [hunique, firsts, List.map_map]
    exact filter_importHistory t not
  · rw [hrepeated]
    exact filter_importHistory t id

/-- **Repeats by name.** If the modules of a tree are named by texts, its imports are split into those whose name none
before them has and those whose name has come before, both in their order. Among the latter are all that are stated
twice with one level. Nothing else is among them if all imports are stated and their levels are the same. -/
theorem repeats_by_name {t : Tree} (h : t.wellFormed = true) : ∃ records, t.imports = .ok records ∧
    records = t.importHistory.map (fun p => p.2.2) ∧
    ((∀ u ∈ t.scanned, u.isA .fromImport = true → (u.child 0).isText = true) →
      ∃ split, Repeats.split (records.map ImportRecord.toValue) = .ok split) ∧
    (∀ split, Repeats.split (records.map ImportRecord.toValue) = .ok split →
      split.unique = (t.importHistory.filter fun p => !sharesName p).map (fun p => p.2.2.toValue) ∧
      split.repeated = (t.importHistory.filter sharesName).map fun p => p.2.2.toValue) ∧
    (∀ p ∈ t.importHistory, isRepeat p = true → sharesName p = true) ∧
    ((∀ x ∈ traced t.scanned, x.1.isStatement = true ∧ ∀ y ∈ traced t.scanned, x.2.level.same y.2.level = true) →
      ∀ p ∈ t.importHistory, sharesName p = true → isRepeat p = true) := by
  refine ⟨recorded t.scanned, imports_eq h, ?_, exists_split h, fun split => split_importHistory, ?_, ?_⟩
  · have hsnd := congrArg (List.map Prod.snd) (map_importHistory t)
    rw [map_snd_withEarlier, List.map_map] at hsnd
    exact hsnd.symm
  · intro p _ hp
    exact sharesName_of_isRepeat hp
  · intro hall p hp hname
    obtain ⟨q, hq, hsame⟩ := List.any_eq_true.1 hname
    obtain ⟨hmem, hearlier⟩ := mem_of_mem_withEarlier hp
    have hq' : q ∈ traced t.scanned := (hearlier q hq).resolve_left List.not_mem_nil
    rw [isRepeat, (hall p.2 hmem).1, Bool.true_and, List.any_eq_true]
    exact ⟨q, hq, by simp [(hall q hq').1, (hall p.2 hmem).2 q hq', hsame]⟩

/-! ## Repeats that are none

One symbol is taken from two packages, and a module that is imported is listed in `__all__`. -/

namespace Restated

def relativeSymbol (line level : Int) (other : Tree) : Tree :=
  node .fromImport (.int line) [word "", list [tuple [word "x", other]], plain (.int level)]

def stated : Tree := node .importNames (.int 3) [list [tuple [word "a", plain .none]]]

def listing : Tree :=
  node .assign (.int 4) [list [node .assignName (.int 4) [word "__all__", word "OP_ASSIGN"]],
    node .list (.int 4) [list [node .const (.int 4) [word "a"]]]]

/-- `from . import x; from .. import x as y; import a; __all__ = ['a']` -/
def program : Tree :=
  node .program .none [plain .none, node .block .none [list [
    relativeSymbol 1 1 (plain .none), relativeSymbol 2 2 (word "y"), stated, listing]]]

def symbolRecord (binding : String) (level : Int) : ImportRecord where
  module := .str ""
  symbol := .str "x"
  binding := .str binding
  line := .int level
  level := .int level
  pragma := .none

def moduleRecord (line : Int) : ImportRecord where
  module := .str "a"
  symbol := .none
  binding := .str "a"
  line := .int line
  level := .int 0
  pragma := .none

theorem traced_program : traced program.scanned =
    [(relativeSymbol 1 1 (plain .none), symbolRecord "x" 1), (relativeSymbol 2 2 (word "y"), symbolRecord "y" 2),
      (stated, moduleRecord 3), (listing, moduleRecord 4)] := by
  cbv

theorem repeated_program : (program.importHistory.filter sharesName).map (fun p => p.2.2.toValue) =
    [(symbolRecord "y" 2).toValue, (moduleRecord 4).toValue] := by
  rw [importHistory, traced_program]
  rfl

theorem texts_program : ∀ u ∈ program.scanned, u.isA .fromImport = true → (u.child 0).isText = true := by
  have hfrom : program.scanned.filter (isA .fromImport) =
      [relativeSymbol 1 1 (plain .none), relativeSymbol 2 2 (word "y")] := by cbv
  have htexts : ∀ u ∈ program.scanned.filter (isA .fromImport), (u.child 0).isText = true := by
    rw [hfrom]
    decide
  intro u hu hisA
  exact htexts u (List.mem_filter.2 ⟨hu, hisA⟩)

end Restated

open Restated

theorem repeats_not_restated : ∃ records split, program.imports = .ok records ∧
    Repeats.split (records.map ImportRecord.toValue) = .ok split ∧
    split.repeated = [(symbolRecord "y" 2).toValue, (moduleRecord 4).toValue] ∧
    (program.importHistory.filter sharesName).map isRepeat = [false, false] := by
  have hwell : program.wellFormed = true := by decide
  obtain ⟨split, hsplit⟩ := exists_split hwell texts_program
  refine ⟨_, split, imports_eq hwell, hsplit, (split_importHistory hsplit).2.trans repeated_program, ?_⟩
  rw [importHistory, traced_program]
  rfl

theorem repeats_of_program : ∃ records split, program.imports = .ok records ∧
    Repeats.split (records.map ImportRecord.toValue) = .ok split ∧
    split.repeated = [(symbolRecord "y" 2).toValue, (moduleRecord 4).toValue] := by
  obtain ⟨records, himports, -, hreturns, hsplit, -⟩ := repeats_by_name (t := program) (by decide)
  obtain ⟨split, hrun⟩ := hreturns texts_program
  exact ⟨records, split, himports, hrun, (hsplit split hrun).2.trans repeated_program⟩

end ImportAtlas
