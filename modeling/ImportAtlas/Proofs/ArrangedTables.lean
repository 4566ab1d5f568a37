import ImportAtlas.Proofs.DependencyTable
import ImportAtlas.Proofs.ValueOrder

/-!
# Tables in order

Writing a table brings its sources and their targets into order. Any table of pairs can be written, and its text holds
the dependencies of the table in order. A table without repeats can be built again from its dependencies: what is read
off an ordered table and added one by one gives the ordered table itself.
-/

namespace ImportAtlas.Depends

def arranged (table : Table) : Table :=
  (sources table).map fun row => (row.1, Value.sort row.2)

def pairs (table : Table) : List (Value × Value) :=
  table.flatMap fun row => row.2.map (row.1, ·)

def pairValue (p : Value × Value) : Value := .tuple [p.1, p.2]

structure Distinct (table : Table) : Prop where
  sources : table.Pairwise fun a b => a.1.same b.1 = false
  targets : ∀ row ∈ table, row.2.Pairwise fun a b => a.same b = false
  filled : Filled table

structure Each (P : Value → Prop) (Q : Value → Value → Prop) (table : Table) : Prop where
  source : ∀ row ∈ table, P row.1
  target : ∀ row ∈ table, ∀ t ∈ row.2, Q row.1 t

theorem among_eq_false {v : Value} {vs : List Value} : v.among vs = false ↔ ∀ w ∈ vs, v.same w = false := by
  simp [Value.among]

theorem same_eq_false_symm {a b : Value} (h : a.same b = false) : b.same a = false := by
  by_contra hne
  rw [Value.same_symm (Bool.not_eq_false _ |>.mp hne)] at h
  cases h

/-! ## Adding -/

theorem distinct_withNew {vs : List Value} (h : vs.Pairwise fun a b => a.same b = false) (v : Value) :
    (withNew vs v).Pairwise fun a b => a.same b = false := by
  unfold withNew
  split
  · exact h
  · rename_i hnew
    rw [List.pairwise_append]
    refine ⟨h, List.pairwise_singleton _ v, fun a ha b hb => ?_⟩
    rw [List.mem_singleton.1 hb]
    exact same_eq_false_symm (among_eq_false.1 (Bool.not_eq_true _ |>.mp hnew) a ha)

theorem mem_sources_add {table : Table} {s t : Value} {row : Value × List Value} (h : row ∈ add table s t) :
    row.1 = s ∨ ∃ old ∈ table, old.1 = row.1 := by
  induction table with
  | nil =>
    simp only [add, List.mem_singleton] at h
    exact .inl (by rw [h])
  | cons head rest ih =>
    rw [add] at h
    split at h
    · rcases List.mem_cons.1 h with rfl | h
      · exact .inr ⟨head, List.mem_cons_self, rfl⟩
      · exact .inr ⟨row, List.mem_cons_of_mem _ h, rfl⟩
    · rcases List.mem_cons.1 h with rfl | h
      · exact .inr ⟨_, List.mem_cons_self, rfl⟩
      · rcases ih h with hs | ⟨old, hold, he⟩
        · exact .inl hs
        · exact .inr ⟨old, List.mem_cons_of_mem _ hold, he⟩

theorem Distinct.add {table : Table} (h : Distinct table) (s t : Value) : Distinct (add table s t) := by
  refine ⟨?_, ?_, h.filled.add s t⟩
  · have hsources := h.sources
    clear h
    induction table with
    | nil => exact List.pairwise_singleton _ _
    | cons head rest ih =>
      obtain ⟨hhead, hrest⟩ := List.pairwise_cons.1 hsources
      rw [Depends.add]
      split
      · exact List.pairwise_cons.2 ⟨hhead, hrest⟩
      · rename_i hnew
        refine List.pairwise_cons.2 ⟨fun row hrow => ?_, ih hrest⟩
        rcases mem_sources_add hrow with he | ⟨old, hold, he⟩
        · rw [he]
          exact same_eq_false_symm (Bool.not_eq_true _ |>.mp hnew)
        · rw [← he]
          exact hhead old hold
  · have htargets := h.targets
    clear h
    induction table with
    | nil => simp [Depends.add]
    | cons head rest ih =>
      obtain ⟨hhead, hrest⟩ := List.forall_mem_cons.1 htargets
      rw [Depends.add]
      split
      · exact List.forall_mem_cons.2 ⟨distinct_withNew hhead t, hrest⟩
      · exact List.forall_mem_cons.2 ⟨hhead, ih hrest⟩

/-- A dependency may be added under a source that is equal to its own. -/
theorem Each.add {P : Value → Prop} {Q : Value → Value → Prop} {table : Table} (h : Each P Q table) {s t : Value}
    (hs : P s) (ht : ∀ s', P s' → s.same s' = true → Q s' t) : Each P Q (add table s t) := by
  induction table with
  | nil =>
    refine ⟨?_, ?_⟩
    · simpa [Depends.add] using hs
    · simpa [Depends.add] using ht s hs (Value.same_refl s)
  | cons head rest ih =>
    obtain ⟨hhead, hsources⟩ := List.forall_mem_cons.1 h.source
    obtain ⟨hhead', htargets⟩ := List.forall_mem_cons.1 h.target
    rw [Depends.add]
    split
    · rename_i hsame
      refine ⟨List.forall_mem_cons.2 ⟨hhead, hsources⟩, List.forall_mem_cons.2 ⟨fun u hu => ?_, htargets⟩⟩
      unfold withNew at hu
      split at hu
      · exact hhead' u hu
      · rcases List.mem_append.1 hu with hu | hu
        · exact hhead' u hu
        · rw [List.mem_singleton.1 hu]
          exact ht head.1 hhead hsame
    · have hrest := ih ⟨hsources, htargets⟩
      exact ⟨List.forall_mem_cons.2 ⟨hhead, hrest.source⟩, List.forall_mem_cons.2 ⟨hhead', hrest.target⟩⟩

theorem each_nil (P : Value → Prop) (Q : Value → Value → Prop) : Each P Q [] := ⟨nofun, nofun⟩

theorem distinct_nil : Distinct [] := ⟨.nil, nofun, nofun⟩

/-! ## In order -/

theorem mem_arranged {table : Table} {row : Value × List Value} :
    row ∈ arranged table ↔ ∃ old ∈ table, row = (old.1, Value.sort old.2) := by
  simp only [arranged, sources, List.mem_map, List.mem_mergeSort, eq_comm]

theorem mem_sort {v : Value} {vs : List Value} : v ∈ Value.sort vs ↔ v ∈ vs := List.mem_mergeSort

theorem Each.arranged {P : Value → Prop} {Q : Value → Value → Prop} {table : Table} (h : Each P Q table) :
    Each P Q (arranged table) := by
  constructor
  · intro row hrow
    obtain ⟨old, hold, rfl⟩ := mem_arranged.1 hrow
    exact h.source old hold
  · intro row hrow t ht
    obtain ⟨old, hold, rfl⟩ := mem_arranged.1 hrow
    exact h.target old hold t (mem_sort.1 ht)

theorem Distinct.arranged {table : Table} (h : Distinct table) : Distinct (arranged table) := by
  refine ⟨?_, ?_, ?_⟩
  · rw [Depends.arranged, List.pairwise_map]
    exact ((List.mergeSort_perm table _).pairwise_iff fun hab => same_eq_false_symm hab).2 h.sources
  · intro row hrow
    obtain ⟨old, hold, rfl⟩ := mem_arranged.1 hrow
    exact ((List.mergeSort_perm old.2 _).pairwise_iff fun hab => same_eq_false_symm hab).2 (h.targets old hold)
  · intro row hrow
    obtain ⟨old, hold, rfl⟩ := mem_arranged.1 hrow
    intro hnil
    have hperm := List.mergeSort_perm old.2 Value.le
    rw [show old.2.mergeSort Value.le = [] from hnil] at hperm
    exact h.filled old hold hperm.nil_eq.symm

/-- What is in order stays as it is. -/
theorem arranged_arranged (table : Table) : arranged (arranged table) = arranged table := by
  have hsort : ∀ vs, Value.sort (Value.sort vs) = Value.sort vs := Value.mergeSort_mergeSort id
  have hsources : sources (arranged table) = arranged table := by
    have hmap := List.map_mergeSort (r := fun a b : Value × List Value => a.1.le b.1)
      (s := fun a b : Value × List Value => a.1.le b.1) (f := fun row => (row.1, Value.sort row.2)) (l := sources table)
      fun _ _ _ _ => rfl
    rw [arranged, sources, ← hmap, sources, Value.mergeSort_mergeSort Prod.fst table]
  calc arranged (arranged table) = (arranged table).map fun row => (row.1, Value.sort row.2) := by
        rw [arranged, hsources]
    _ = arranged table := by
        rw [arranged, List.map_map]
        exact List.map_congr_left fun row _ => by simp [hsort]

/-! ## Building a table again -/

theorem add_of_new {table : Table} {s t : Value} (h : ∀ row ∈ table, s.same row.1 = false) :
    add table s t = table ++ [(s, [t])] := by
  induction table with
  | nil => rfl
  | cons head rest ih =>
    obtain ⟨hhead, hrest⟩ := List.forall_mem_cons.1 h
    rw [add, if_neg (by simp [hhead]), ih hrest, List.cons_append]

theorem add_of_last {table : Table} {s t : Value} {ts : List Value} (h : ∀ row ∈ table, s.same row.1 = false) :
    add (table ++ [(s, ts)]) s t = table ++ [(s, withNew ts t)] := by
  induction table with
  | nil => simp [add, Value.same_refl]
  | cons head rest ih =>
    obtain ⟨hhead, hrest⟩ := List.forall_mem_cons.1 h
    rw [List.cons_append, add, if_neg (by simp [hhead]), ih hrest, List.cons_append]

theorem foldl_add_row {table : Table} {s : Value} (h : ∀ row ∈ table, s.same row.1 = false) {ts : List Value}
    (us : List Value) (hts : (us ++ ts).Pairwise fun a b => a.same b = false) :
    (ts.map (s, ·)).foldl (fun table p => add table p.1 p.2) (table ++ [(s, us)]) = table ++ [(s, us ++ ts)] := by
  induction ts generalizing us with
  | nil => simp
  | cons t ts ih =>
    have hnew : t.among us = false := by
      refine among_eq_false.2 fun u hu => same_eq_false_symm ?_
      exact (List.pairwise_append.1 hts).2.2 u hu t List.mem_cons_self
    have hus : withNew us t = us ++ [t] := by simp [withNew, hnew]
    rw [List.map_cons, List.foldl_cons, add_of_last h, hus, ih (us ++ [t]) (by simpa using hts)]
    simp

theorem foldl_add_pairs {table : Table} (h : Distinct table) :
    (pairs table).foldl (fun table p => add table p.1 p.2) [] = table := by
  -- the rows that are done stay in front, since no later source is equal to one of theirs
  have run : ∀ (rest done : Table), Distinct (done ++ rest) →
      (pairs rest).foldl (fun table p => add table p.1 p.2) done = done ++ rest := by
    intro rest
    induction rest with
    | nil => intro done _; simp [pairs]
    | cons row rest ih =>
      intro done h
      obtain ⟨s, ts⟩ := row
      have hnew : ∀ row ∈ done, s.same row.1 = false := by
        intro row hrow
        exact same_eq_false_symm ((List.pairwise_append.1 h.sources).2.2 row hrow (s, ts) List.mem_cons_self)
      have hmem : (s, ts) ∈ done ++ (s, ts) :: rest := by simp
      have hts := h.targets _ hmem
      have hfilled := h.filled _ hmem
      cases ts with
      | nil => exact absurd rfl hfilled
      | cons t ts =>
        have hrow : ((t :: ts).map (s, ·)).foldl (fun table p => add table p.1 p.2) done = done ++ [(s, t :: ts)] := by
          rw [List.map_cons, List.foldl_cons, add_of_new hnew]
          exact foldl_add_row hnew [t] hts
        have hpairs : pairs ((s, t :: ts) :: rest) = (t :: ts).map (s, ·) ++ pairs rest := rfl
        rw [hpairs, List.foldl_append, hrow, ih _ (by simpa using h)]
        simp
  exact run table [] h

/-! ## Writing -/

def IsPair (v : Value) : Prop := ∃ p, v = .ofPair p

theorem mapM_eq_map {α β : Type} {f : α → Except Fault β} {g : α → β} {xs : List α} (h : ∀ x ∈ xs, f x = .ok (g x)) :
    xs.mapM f = .ok (xs.map g) := by
  induction xs with
  | nil => rfl
  | cons x xs ih =>
    obtain ⟨hx, hxs⟩ := List.forall_mem_cons.1 h
    rw [List.mapM_cons, hx, ih hxs]
    rfl

theorem sourceLines_pairs {s : Value} {ts : List Value} (hs : IsPair s) (hts : ∀ t ∈ ts, IsPair t) :
    sourceLines s ts = .ok ((Value.sort ts).map fun t => (pairValue (s, t)).render ++ "\n") := by
  obtain ⟨p, rfl⟩ := hs
  refine mapM_eq_map fun t ht => ?_
  obtain ⟨q, rfl⟩ := hts t (mem_sort.1 ht)
  rfl

theorem written_pairs {table : Table} (h : Each IsPair (fun _ t => IsPair t) table) :
    written table = .ok (page ((pairs (arranged table)).map pairValue)) := by
  have hrows : (sources table).mapM (fun row : Value × List Value => sourceLines row.1 row.2) =
      .ok ((sources table).map fun row => (Value.sort row.2).map fun t => (pairValue (row.1, t)).render ++ "\n") := by
    refine mapM_eq_map fun row hrow => ?_
    have hrow := List.mem_mergeSort.1 hrow
    exact sourceLines_pairs (h.source row hrow) (h.target row hrow)
  unfold written
  rw [hrows]
  change Except.ok _ = _
  simp [page, pairs, arranged, List.flatMap_def, List.map_flatten, Function.comp_def]

end ImportAtlas.Depends
