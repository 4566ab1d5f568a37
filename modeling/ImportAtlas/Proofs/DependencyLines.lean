import ImportAtlas.Analysis.Lines
import ImportAtlas.Proofs.Literals
import ImportAtlas.Proofs.References

/-!
# Written dependencies are read back

A dictionary of references is written one dependency a line. Each line holds a literal and no newline of its
own, so the text falls back into its lines and every line into its dependency.
-/

namespace ImportAtlas

/-! ## Lines -/

namespace Value

theorem newline_not_mem_intercalate {texts : List String} (h : ∀ t ∈ texts, '\n' ∉ t.toList) :
    '\n' ∉ (", ".intercalate texts).toList := by
  induction texts with
  | nil => simp
  | cons t texts ih =>
    have ht := h t List.mem_cons_self
    have ih := ih fun u hu => h u (List.mem_cons_of_mem t hu)
    cases texts with
    | nil => simpa using ht
    | cons u texts =>
      rw [String.intercalate_cons_cons, String.toList_append, String.toList_append]
      simp only [List.mem_append, not_or]
      exact ⟨⟨ht, by decide⟩, ih⟩

theorem newline_not_mem_digits (n : Nat) : '\n' ∉ n.repr.toList := by
  intro h
  rw [Nat.toList_repr] at h
  have := Nat.isDigit_of_mem_toDigits (by omega) (by omega) h
  revert this; decide

mutual

theorem newline_not_mem_render : ∀ v : Value, v.isLiteral = true → '\n' ∉ v.render.toList
  | .none, _ => by decide
  | .bool true, _ => by decide
  | .bool false, _ => by decide
  | .int (.ofNat n), _ => newline_not_mem_digits n
  | .int (.negSucc n), _ => by
    change '\n' ∉ ("-" ++ (n + 1).repr).toList
    rw [String.toList_append, List.mem_append, not_or]
    exact ⟨by decide, newline_not_mem_digits (n + 1)⟩
  | .str s, _ => Text.newline_not_mem_quoted s
  | .list items, h => by
    have := newline_not_mem_intercalate (newline_not_mem_renderAll items h)
    simp only [render, String.toList_append, List.mem_append, not_or]
    exact ⟨⟨by decide, this⟩, by decide⟩
  | .tuple [], _ => by decide
  | .tuple [item], h => by
    have := newline_not_mem_render item (by simpa [isLiteral, allLiteral] using h)
    simp only [render, String.toList_append, List.mem_append, not_or]
    exact ⟨⟨by decide, this⟩, by decide⟩
  | .tuple (v :: w :: vs), h => by
    have := newline_not_mem_intercalate (newline_not_mem_renderAll (v :: w :: vs) h)
    simp only [render, String.toList_append, List.mem_append, not_or]
    exact ⟨⟨by decide, this⟩, by decide⟩
  | .real _, h => by simp [isLiteral] at h
  | .table _ _, h => by simp [isLiteral] at h

theorem newline_not_mem_renderAll : ∀ vs : List Value, allLiteral vs = true →
    ∀ t ∈ renderAll vs, '\n' ∉ t.toList
  | [], _, t, ht => by cases ht
  | v :: vs, h, t, ht => by
    simp only [allLiteral, Bool.and_eq_true] at h
    rcases List.mem_cons.1 ht with rfl | ht
    · exact newline_not_mem_render v h.1
    · exact newline_not_mem_renderAll vs h.2 t ht

end

end Value

namespace Text

theorem cutAfterFeeds_append {body : List Char} (h : '\n' ∉ body) (line rest : List Char) :
    cutAfterFeeds line (body ++ '\n' :: rest) =
      String.ofList (line.reverse ++ body ++ ['\n']) :: cutAfterFeeds [] rest := by
  induction body generalizing line with
  | nil => simp [cutAfterFeeds]
  | cons c body ih =>
    have hc : c ≠ '\n' := fun e => h (e ▸ List.mem_cons_self)
    rw [List.cons_append, cutAfterFeeds.eq_3 _ _ _ hc, ih fun m => h (List.mem_cons_of_mem c m)]
    simp

theorem feedLines_join {bodies : List String} (h : ∀ b ∈ bodies, '\n' ∉ b.toList) :
    feedLines (String.join (bodies.map (· ++ "\n"))) = bodies.map (· ++ "\n") := by
  induction bodies with
  | nil => simp [feedLines, cutAfterFeeds]
  | cons b bodies ih =>
    have ih := ih fun c hc => h c (List.mem_cons_of_mem b hc)
    simp only [feedLines, List.map_cons, String.join_cons, String.toList_append, List.append_assoc] at ih ⊢
    change cutAfterFeeds [] (b.toList ++ '\n' :: _) = _
    rw [cutAfterFeeds_append (h b List.mem_cons_self)]
    refine congrArg₂ List.cons ?_ ih
    rw [← String.toList_inj]
    simp

end Text

namespace Depends

def page (vs : List Value) : String := String.join (vs.map fun v => v.render ++ "\n")

theorem readings_page {vs : List Value} (h : ∀ v ∈ vs, v.isLiteral = true) :
    readings (page vs) = vs.map fun v => { line := v.render ++ "\n", value := .ok v } := by
  have hb : ∀ b ∈ vs.map Value.render, '\n' ∉ b.toList := by
    intro b hb
    obtain ⟨v, hv, rfl⟩ := List.mem_map.1 hb
    exact Value.newline_not_mem_render v (h v hv)
  have hl := Text.feedLines_join hb
  simp only [List.map_map, Function.comp_def] at hl
  rw [readings, page, hl, List.map_map]
  refine List.map_congr_left fun v hv => ?_
  simp [Value.read_render (h v hv)]

def Reads (input : String) (v : Value) : Prop := ∃ r ∈ readings input, r.value = .ok v

theorem reads_line {body : String} (h : '\n' ∉ body.toList) (rest : String) (v : Value) :
    Reads (body ++ "\n" ++ rest) v ↔ Value.read (body ++ "\n") = .ok v ∨ Reads rest v := by
  have hfirst : Text.feedLines (body ++ "\n" ++ rest) = (body ++ "\n") :: Text.feedLines rest := by
    simp only [Text.feedLines, String.toList_append, List.append_assoc]
    change Text.cutAfterFeeds [] (body.toList ++ '\n' :: rest.toList) = _
    rw [Text.cutAfterFeeds_append h]
    refine congrArg (· :: _) ?_
    rw [← String.toList_inj]
    simp
  unfold Reads readings
  rw [hfirst, List.map_cons]
  simp only [List.mem_cons, exists_eq_or_imp]

theorem reads_page {vs : List Value} (h : ∀ v ∈ vs, v.isLiteral = true) (v : Value) : Reads (page vs) v ↔ v ∈ vs := by
  unfold Reads
  rw [readings_page h]
  constructor
  · rintro ⟨r, hr, hv⟩
    obtain ⟨w, hw, rfl⟩ := List.mem_map.1 hr
    cases hv
    exact hw
  · exact fun hv => ⟨_, List.mem_map.2 ⟨v, hv, rfl⟩, rfl⟩

theorem foldValues_page {α : Type} (step : α → Value → Run α) (start : α) {vs : List Value}
    (h : ∀ v ∈ vs, v.isLiteral = true) : Run.foldValues step start (page vs) = vs.foldlM step start := by
  rw [Run.foldValues, readings_page h, List.foldlM_map]

theorem foldlM_append_singleton (seen vs : List Value) (s : Session) :
    vs.foldlM (fun values v => (return values ++ [v] : Run (List Value))) seen s = .ok (seen ++ vs) s := by
  induction vs generalizing seen with
  | nil => simp; rfl
  | cons v vs ih =>
    rw [List.foldlM_cons]
    change vs.foldlM (fun values v => (return values ++ [v] : Run (List Value))) (seen ++ [v]) s = _
    rw [ih]
    simp

theorem allValues_page {vs : List Value} (h : ∀ v ∈ vs, v.isLiteral = true) (s : Session) :
    Run.allValues (page vs) s = .ok vs s := by
  rw [Run.allValues, foldValues_page _ _ h, foldlM_append_singleton]
  rfl

end Depends

/-! ## Dictionaries -/

structure Dictionary where
  rows : List (Ref × List Ref)
  sources_nodup : (rows.map (·.1)).Nodup
  targets_nodup : ∀ row ∈ rows, row.2.Nodup

namespace Dictionary

instance : Membership Dependency Dictionary where
  mem d p := ∃ row ∈ d.rows, p.source = row.1 ∧ p.target ∈ row.2

def table (d : Dictionary) : Depends.Table :=
  d.rows.map fun row => (row.1.value, row.2.map Ref.value)

def sortedTargets (targets : List Ref) : List Ref :=
  targets.mergeSort fun a b => a.value.le b.value

def sortedRows (d : Dictionary) : List (Ref × List Ref) :=
  d.rows.mergeSort fun a b => a.1.value.le b.1.value

def dependencies (d : Dictionary) : List Dependency :=
  d.sortedRows.flatMap fun row => (sortedTargets row.2).map (⟨row.1, ·⟩)

theorem mem_dependencies (d : Dictionary) (p : Dependency) : p ∈ d.dependencies ↔ p ∈ d := by
  obtain ⟨source, target⟩ := p
  simp only [dependencies, sortedRows, sortedTargets, List.mem_flatMap, List.mem_map, List.mem_mergeSort]
  constructor
  · rintro ⟨row, hrow, t, ht, he⟩
    cases he
    exact ⟨row, hrow, rfl, ht⟩
  · rintro ⟨row, hrow, hs, ht⟩
    exact ⟨row, hrow, target, ht, by cases hs; rfl⟩

theorem pairwise_dependencies (d : Dictionary) : d.dependencies.Pairwise Dependency.Before := by
  rw [dependencies, List.pairwise_flatMap]
  constructor
  · intro row hrow
    rw [sortedRows, List.mem_mergeSort] at hrow
    rw [List.pairwise_map]
    refine (Ref.pairwise_mergeSort id (l := row.2) ?_).imp fun hb => Or.inr ⟨rfl, hb⟩
    simpa using d.targets_nodup row hrow
  · refine (Ref.pairwise_mergeSort Prod.fst d.sources_nodup).imp fun hb p hp q hq => ?_
    obtain ⟨t, _, rfl⟩ := List.mem_map.1 hp
    obtain ⟨u, _, rfl⟩ := List.mem_map.1 hq
    exact Or.inl hb

theorem sourceLines_eq (source : Ref) (targets : List Ref) :
    Depends.sourceLines source.value (targets.map Ref.value) =
      .ok ((sortedTargets targets).map fun t => (Dependency.mk source t).value.render ++ "\n") := by
  have hs : Value.sort (targets.map Ref.value) = (sortedTargets targets).map Ref.value := by
    rw [Value.sort, sortedTargets, List.map_mergeSort]
    exact fun _ _ _ _ => rfl
  have hm : ∀ ts : List Ref, ((ts.map Ref.value).mapM fun target => do
      return Depends.line (Ref.part source.root, Ref.part source.name) (← target.pair)) =
      (.ok (ts.map fun t => (Dependency.mk source t).value.render ++ "\n") : Except Fault (List String)) := by
    intro ts
    induction ts with
    | nil => rfl
    | cons t ts ih =>
      rw [List.map_cons, List.mapM_cons, ih]
      rfl
  unfold Depends.sourceLines
  rw [hs]
  exact hm _

theorem written_table (d : Dictionary) :
    Depends.written d.table = .ok (Depends.page (d.dependencies.map Dependency.value)) := by
  have hs : Depends.sources d.table = d.sortedRows.map fun row => (row.1.value, row.2.map Ref.value) := by
    rw [Depends.sources, table, sortedRows, List.map_mergeSort]
    exact fun _ _ _ _ => rfl
  have hm : ∀ rows : List (Ref × List Ref),
      (rows.map fun row => (row.1.value, row.2.map Ref.value)).mapM
        (fun row : Value × List Value => Depends.sourceLines row.1 row.2) =
      .ok (rows.map fun row => (sortedTargets row.2).map fun t => (Dependency.mk row.1 t).value.render ++ "\n") := by
    intro rows
    induction rows with
    | nil => rfl
    | cons row rows ih =>
      rw [List.map_cons, List.mapM_cons, ih]
      simp only [sourceLines_eq]
      rfl
  unfold Depends.written
  rw [hs, hm]
  change Except.ok _ = _
  congr 1
  simp [Depends.page, dependencies, List.flatMap_def, List.map_flatten, Function.comp_def]

end Dictionary

theorem Dependency.isLiteral_values (ps : List Dependency) : ∀ v ∈ ps.map Dependency.value, v.isLiteral = true := by
  intro v hv
  obtain ⟨⟨⟨a, b⟩, ⟨c, d⟩⟩, _, rfl⟩ := List.mem_map.1 hv
  cases a <;> cases b <;> cases c <;> cases d <;> rfl

/-- Reading undoes writing. Whatever stands in the references of a dictionary, its text can be written, and
reading that text says nothing and gives every dependency, in strictly increasing order. -/
theorem allValues_written (d : Dictionary) (s : Session) :
    ∃ (text : String) (ps : List Dependency), Depends.written d.table = .ok text ∧
      Run.allValues text s = .ok (ps.map Dependency.value) s ∧
      ps.Nodup ∧ ps.Pairwise Dependency.Before ∧ ∀ p, p ∈ ps ↔ p ∈ d := by
  have hsorted := d.pairwise_dependencies
  refine ⟨_, d.dependencies, d.written_table, ?_, hsorted.imp Dependency.Before.ne, hsorted, d.mem_dependencies⟩
  exact Depends.allValues_page (Dependency.isLiteral_values _) s

end ImportAtlas
