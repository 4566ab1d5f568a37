import ImportAtlas.Proofs.DependencyLines
import Mathlib.Data.List.Nodup

/-!
# Tables of dependencies

Sources and targets are added to a table one by one. A table that was made from references in this way is a
dictionary, and it holds what was added.
-/

namespace ImportAtlas

theorem Ref.same_part (a b : Option String) : (part a).same (part b) = decide (a = b) := by
  cases a with
  | none => cases b <;> rfl
  | some a =>
    cases b with
    | none => rfl
    | some b => simp [part, Value.same]

theorem Ref.same_value (a b : Ref) : a.value.same b.value = decide (a = b) := by
  obtain ⟨root, name⟩ := a
  obtain ⟨root', name'⟩ := b
  simp [value, Value.ofPair, Value.same, Value.sameAll, same_part]

theorem Ref.value_injective : Function.Injective Ref.value := by
  intro a b h
  have hsame := same_value a b
  rw [h, same_value b b] at hsame
  simpa using hsame

theorem Dependency.value_injective : Function.Injective Dependency.value := by
  intro p q h
  obtain ⟨source, target⟩ := p
  obtain ⟨source', target'⟩ := q
  simp only [value, Value.tuple.injEq, List.cons.injEq, and_true] at h
  rw [Ref.value_injective h.1, Ref.value_injective h.2]

/-- A value is among the values of some things if and only if its thing is one of them. -/
theorem Value.among_map {α : Type} [DecidableEq α] {f : α → Value} (h : ∀ a b, (f a).same (f b) = decide (a = b))
    (a : α) (bs : List α) : (f a).among (bs.map f) = decide (a ∈ bs) := by
  rw [among, List.any_map, Bool.eq_iff_iff]
  simp [h]

theorem Ref.among_values (a : Ref) (bs : List Ref) : a.value.among (bs.map value) = decide (a ∈ bs) :=
  Value.among_map same_value a bs

def Ref.nothing : Ref := ⟨none, none⟩

namespace Dictionary

def addTarget (targets : List Ref) (t : Ref) : List Ref :=
  if t ∈ targets then targets else targets ++ [t]

def addRow (p : Dependency) : List (Ref × List Ref) → List (Ref × List Ref)
  | [] => [(p.source, [p.target])]
  | row :: rest =>
    if p.source = row.1 then (row.1, addTarget row.2 p.target) :: rest else row :: addRow p rest

theorem mem_addTarget {targets : List Ref} {t u : Ref} : u ∈ addTarget targets t ↔ u ∈ targets ∨ u = t := by
  unfold addTarget
  split
  · rename_i h
    refine (or_iff_left_of_imp ?_).symm
    rintro rfl
    exact h
  · simp

theorem nodup_addTarget {targets : List Ref} (h : targets.Nodup) (t : Ref) : (addTarget targets t).Nodup := by
  unfold addTarget
  split
  · exact h
  · rename_i ht
    rw [← List.concat_eq_append]
    exact List.Nodup.concat ht h

theorem mem_sources_addRow {p : Dependency} {rows : List (Ref × List Ref)} {r : Ref}
    (h : r ∈ (addRow p rows).map (·.1)) : r = p.source ∨ r ∈ rows.map (·.1) := by
  induction rows with
  | nil => simpa [addRow] using h
  | cons row rest ih =>
    rw [addRow] at h
    split at h
    · exact .inr h
    · rcases List.mem_cons.1 h with rfl | h
      · exact .inr List.mem_cons_self
      · exact (ih h).imp_right (List.mem_cons_of_mem _)

theorem nodup_sources_addRow (p : Dependency) {rows : List (Ref × List Ref)} (h : (rows.map (·.1)).Nodup) :
    ((addRow p rows).map (·.1)).Nodup := by
  induction rows with
  | nil => simp [addRow]
  | cons row rest ih =>
    obtain ⟨hrow, hrest⟩ := List.nodup_cons.1 h
    rw [addRow]
    split
    · exact h
    · rename_i hne
      refine List.nodup_cons.2 ⟨fun hmem => ?_, ih hrest⟩
      rcases mem_sources_addRow hmem with he | hmem
      · exact hne he.symm
      · exact hrow hmem

theorem nodup_targets_addRow (p : Dependency) {rows : List (Ref × List Ref)} (h : ∀ row ∈ rows, row.2.Nodup) :
    ∀ row ∈ addRow p rows, row.2.Nodup := by
  induction rows with
  | nil => simp [addRow]
  | cons row rest ih =>
    obtain ⟨hrow, hrest⟩ := List.forall_mem_cons.1 h
    rw [addRow]
    split
    · exact List.forall_mem_cons.2 ⟨nodup_addTarget hrow p.target, hrest⟩
    · exact List.forall_mem_cons.2 ⟨hrow, ih hrest⟩

theorem exists_mem_addRow {p q : Dependency} {rows : List (Ref × List Ref)} :
    (∃ row ∈ addRow p rows, q.source = row.1 ∧ q.target ∈ row.2) ↔
      (∃ row ∈ rows, q.source = row.1 ∧ q.target ∈ row.2) ∨ q = p := by
  have hp : q = p ↔ q.source = p.source ∧ q.target = p.target := by
    cases p; cases q; simp
  rw [hp]
  induction rows with
  | nil => simp [addRow]
  | cons row rest ih =>
    rw [addRow]
    split
    · rename_i hs
      simp only [List.exists_mem_cons_iff, mem_addTarget, hs, and_or_left, or_assoc]
      exact or_congr_right or_comm
    · simp only [List.exists_mem_cons_iff, ih, or_assoc]

def add (d : Dictionary) (p : Dependency) : Dictionary where
  rows := addRow p d.rows
  sources_nodup := nodup_sources_addRow p d.sources_nodup
  targets_nodup := nodup_targets_addRow p d.targets_nodup

theorem mem_add {d : Dictionary} {p q : Dependency} : q ∈ d.add p ↔ q ∈ d ∨ q = p :=
  exists_mem_addRow

theorem withNew_values (targets : List Ref) (t : Ref) :
    Depends.withNew (targets.map Ref.value) t.value = (addTarget targets t).map Ref.value := by
  rw [Depends.withNew, Ref.among_values, addTarget]
  by_cases h : t ∈ targets <;> simp [h]

theorem table_add (d : Dictionary) (p : Dependency) :
    (d.add p).table = Depends.add d.table p.source.value p.target.value := by
  have run : ∀ rows : List (Ref × List Ref),
      (addRow p rows).map (fun row => (row.1.value, row.2.map Ref.value)) =
        Depends.add (rows.map fun row => (row.1.value, row.2.map Ref.value)) p.source.value p.target.value := by
    intro rows
    induction rows with
    | nil => rfl
    | cons row rest ih =>
      rw [addRow, List.map_cons, Depends.add, Ref.same_value]
      by_cases hs : p.source = row.1
      · simp [hs, withNew_values]
      · simp [hs, ih]
  exact run d.rows

end Dictionary

def Holds (table : Depends.Table) (P : Dependency → Prop) : Prop :=
  ∃ d : Dictionary, table = d.table ∧ ∀ p, p ∈ d ↔ P p

theorem holds_nil {P : Dependency → Prop} (h : ∀ p, ¬ P p) : Holds [] P := by
  refine ⟨⟨[], List.nodup_nil, nofun⟩, rfl, fun p => iff_of_false ?_ (h p)⟩
  rintro ⟨row, hrow, _⟩
  cases hrow

theorem Holds.congr {table : Depends.Table} {P Q : Dependency → Prop} (h : Holds table P) (hPQ : ∀ p, P p ↔ Q p) :
    Holds table Q := by
  obtain ⟨d, htable, hd⟩ := h
  exact ⟨d, htable, fun p => (hd p).trans (hPQ p)⟩

theorem Holds.add {table : Depends.Table} {P Q : Dependency → Prop} (h : Holds table P) (p : Dependency)
    (hQ : ∀ q, Q q ↔ P q ∨ q = p) : Holds (Depends.add table p.source.value p.target.value) Q := by
  obtain ⟨d, rfl, hd⟩ := h
  refine ⟨d.add p, (d.table_add p).symm, fun q => ?_⟩
  rw [Dictionary.mem_add, hd, hQ]

theorem Holds.foldl_add {table : Depends.Table} {P : Dependency → Prop} (h : Holds table P) (source : Ref)
    (targets : List Ref) :
    Holds (targets.foldl (fun table t => Depends.add table source.value t.value) table)
      fun q => P q ∨ q.source = source ∧ q.target ∈ targets := by
  induction targets generalizing table P with
  | nil => simpa using h
  | cons t targets ih =>
    have hadd := h.add (Q := fun q => P q ∨ q = ⟨source, t⟩) ⟨source, t⟩ fun _ => Iff.rfl
    obtain ⟨d, htable, hd⟩ := ih hadd
    refine ⟨d, htable, fun q => (hd q).trans ?_⟩
    dsimp only
    have hq : q = ⟨source, t⟩ ↔ q.source = source ∧ q.target = t := by
      cases q; simp
    rw [hq, List.mem_cons]
    tauto

/-! ## Sources without targets -/

def Filled (table : Depends.Table) : Prop := ∀ row ∈ table, row.2 ≠ []

theorem Filled.add {table : Depends.Table} (h : Filled table) (source target : Value) :
    Filled (Depends.add table source target) := by
  induction table with
  | nil => simp [Filled, Depends.add]
  | cons row rest ih =>
    obtain ⟨hrow, hrest⟩ := List.forall_mem_cons.1 h
    rw [Depends.add]
    split
    · refine List.forall_mem_cons.2 ⟨?_, hrest⟩
      unfold Depends.withNew
      split
      · exact hrow
      · simp
    · exact List.forall_mem_cons.2 ⟨hrow, ih hrest⟩

theorem Filled.foldl_add {table : Depends.Table} (h : Filled table) (source : Ref) (targets : List Ref) :
    Filled (targets.foldl (fun table t => Depends.add table source.value t.value) table) := by
  induction targets generalizing table with
  | nil => exact h
  | cons t targets ih => exact ih (h.add source.value t.value)

end ImportAtlas
