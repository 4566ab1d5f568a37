import ImportAtlas.Proofs.ArrangedTables
import Mathlib.Data.List.Induction

/-!
# First occurrences

Dependencies without repeats are the first of every group of equal ones, and the references of dependencies are the
first of every group of equal sides, those of nothing left out. Both loops add what they have not seen to what they
have; a dependency that is left out as a repeat has only sides that have been seen, so the references stay as they are.
-/

namespace ImportAtlas

namespace Value

/-- The values that are equal to none before them, in order. -/
def firsts (vs : List Value) : List Value :=
  (vs.zipIdx.filter fun p => !p.1.among (vs.take p.2)).map (·.1)

theorem firsts_concat (vs : List Value) (v : Value) :
    firsts (vs ++ [v]) = if v.among vs then firsts vs else firsts vs ++ [v] := by
  have hbefore : (vs.zipIdx.filter fun p => !p.1.among ((vs ++ [v]).take p.2)) =
      vs.zipIdx.filter fun p => !p.1.among (vs.take p.2) := by
    apply List.filter_congr
    intro p hp
    have hlt : p.2 < vs.length := by simpa using List.snd_lt_of_mem_zipIdx hp
    rw [List.take_append_of_le_length hlt.le]
  rw [firsts, List.zipIdx_append, List.filter_append, hbefore, List.map_append, ← firsts]
  cases h : v.among vs <;> simp [h]

structure FirstsOf (vs once : List Value) : Prop where
  eq : once = firsts vs
  sublist : once.Sublist vs
  different : once.Pairwise fun a b => a.same b = false
  complete : ∀ v ∈ vs, v.among once = true

theorem among_append (v : Value) (vs ws : List Value) : v.among (vs ++ ws) = (v.among vs || v.among ws) :=
  List.any_append

theorem among_of_same {v w : Value} (h : v.same w = true) {vs : List Value} (hw : w.among vs = true) :
    v.among vs = true := by
  obtain ⟨u, hu, hsame⟩ := List.any_eq_true.1 hw
  exact List.any_eq_true.2 ⟨u, hu, same_trans h hsame⟩

end Value

namespace Depends

open Value

/-! ## What has been seen -/

theorem among_withNew (v w : Value) (vs : List Value) : v.among (withNew vs w) = (v.among vs || v.same w) := by
  unfold withNew
  split
  · rename_i hw
    cases h : v.same w with
    | false => rw [Bool.or_false]
    | true => rw [among_of_same h hw, Bool.true_or]
  · rw [among_append, among, among, List.any_cons, List.any_nil, Bool.or_false]

theorem among_foldl_withNew (v : Value) (vs seen : List Value) :
    v.among (vs.foldl withNew seen) = (v.among seen || v.among vs) := by
  induction vs generalizing seen with
  | nil => simp [among]
  | cons w vs ih => rw [List.foldl_cons, ih, among_withNew, Bool.or_assoc]; rfl

theorem foldl_withNew_seen {vs seen : List Value} (h : ∀ v ∈ vs, v.among seen = true) :
    vs.foldl withNew seen = seen := by
  induction vs with
  | nil => rfl
  | cons v vs ih =>
    obtain ⟨hv, hvs⟩ := List.forall_mem_cons.1 h
    rw [List.foldl_cons, withNew, if_pos hv, ih hvs]

/-- What has been seen first stays in front, and what is equal to it is passed over. -/
theorem foldl_withNew_cons (first : Value) (vs seen : List Value) :
    vs.foldl withNew (first :: seen) = first :: (vs.filter fun v => !v.same first).foldl withNew seen := by
  induction vs generalizing seen with
  | nil => rfl
  | cons v vs ih =>
    have hamong : v.among (first :: seen) = (v.same first || v.among seen) := rfl
    rw [List.foldl_cons, withNew, hamong]
    cases h : v.same first with
    | true => rw [Bool.true_or, if_pos rfl, ih, List.filter_cons_of_neg (by simp [h])]
    | false =>
      rw [Bool.false_or, List.filter_cons_of_pos (by simp [h]), List.foldl_cons, withNew]
      split
      · exact ih seen
      · exact ih (seen ++ [v])

theorem distinct_concat (vs : List Value) (v : Value) : distinct (vs ++ [v]) = withNew (distinct vs) v :=
  List.foldl_concat ..

theorem among_distinct (v : Value) (vs : List Value) : v.among (distinct vs) = v.among vs :=
  among_foldl_withNew v vs []

theorem distinct_eq_firsts (vs : List Value) : distinct vs = firsts vs := by
  induction vs using List.reverseRecOn with
  | nil => rfl
  | append_singleton vs v ih => rw [distinct_concat, withNew, among_distinct, firsts_concat, ih]

theorem pairwise_distinct (vs : List Value) : (distinct vs).Pairwise fun a b => a.same b = false := by
  induction vs using List.reverseRecOn with
  | nil => exact List.Pairwise.nil
  | append_singleton vs v ih =>
    rw [distinct_concat]
    exact distinct_withNew ih v

theorem sublist_distinct (vs : List Value) : (distinct vs).Sublist vs := by
  induction vs using List.reverseRecOn with
  | nil => exact List.Sublist.refl _
  | append_singleton vs v ih =>
    rw [distinct_concat, withNew]
    split
    · exact ih.trans (List.sublist_append_left vs [v])
    · exact ih.append (List.Sublist.refl [v])

theorem firstsOf_distinct (vs : List Value) : FirstsOf vs (distinct vs) where
  eq := distinct_eq_firsts vs
  sublist := sublist_distinct vs
  different := pairwise_distinct vs
  complete v hv := by
    rw [among_distinct]
    exact List.any_eq_true.2 ⟨v, hv, same_refl v⟩

theorem distinct_of_pairwise {vs : List Value} (h : vs.Pairwise fun a b => a.same b = false) : distinct vs = vs := by
  induction vs using List.reverseRecOn with
  | nil => rfl
  | append_singleton vs v ih =>
    obtain ⟨hvs, -, hv⟩ := List.pairwise_append.1 h
    have hnew : v.among vs = false :=
      among_eq_false.2 fun w hw => same_eq_false_symm (hv w hw v (List.mem_singleton_self v))
    rw [distinct_concat, ih hvs, withNew, hnew, if_neg Bool.false_ne_true]

/-! ## Dependencies and their sides -/

/-- The value is a dependency: it has two sides, and both can be compared. -/
def TwoSided (d : Value) : Prop :=
  ∃ source target, d = .tuple [source, target] ∧ source.isKey = true ∧ target.isKey = true

def sides : Value → List Value
  | .tuple parts => parts
  | _ => []

theorem TwoSided.asKey_eq {d : Value} (h : TwoSided d) : d.asKey = .ok d := by
  obtain ⟨source, target, rfl, hsource, htarget⟩ := h
  rw [asKey, if_pos]
  simp [isKey, allKeys, hsource, htarget]

theorem withoutRepeats_eq {deps : List Value} (h : ∀ d ∈ deps, TwoSided d) :
    withoutRepeats deps = .ok (distinct deps) := by
  have hkeys : deps.mapM (fun d => d.asKey) = .ok deps := by
    induction deps with
    | nil => rfl
    | cons d deps ih =>
      obtain ⟨hd, hdeps⟩ := List.forall_mem_cons.1 h
      rw [List.mapM_cons, hd.asKey_eq, ih hdeps]
      rfl
  unfold withoutRepeats
  rw [hkeys]
  rfl

theorem fresh_eq {refs : List Value} (h : ∀ r ∈ refs, r.isKey = true) (seen : List Value) :
    ∃ more, fresh seen refs = (more, Option.none) ∧ seen ++ more = refs.foldl withNew seen := by
  induction refs generalizing seen with
  | nil => exact ⟨[], rfl, List.append_nil seen⟩
  | cons r refs ih =>
    obtain ⟨hr, hrefs⟩ := List.forall_mem_cons.1 h
    rw [fresh, hr, List.foldl_cons, withNew]
    cases r.among seen with
    | true => exact ih hrefs seen
    | false =>
      obtain ⟨more, hmore, hseen⟩ := ih hrefs (seen ++ [r])
      refine ⟨r :: more, ?_, ?_⟩
      · simp [hmore]
      · rw [if_neg Bool.false_ne_true, ← hseen, List.append_assoc]
        rfl

theorem TwoSided.step_eq {d : Value} (h : TwoSided d) (seen : List Value) :
    ∃ more, step seen d = (more, Option.none) ∧ seen ++ more = (sides d).foldl withNew seen := by
  obtain ⟨source, target, rfl, hsource, htarget⟩ := h
  exact fresh_eq (by simp [hsource, htarget]) seen

theorem foldlM_eq_foldl {f : List Value → Value → Except Fault (List Value)} {g : List Value → Value → List Value}
    {deps : List Value} (h : ∀ d ∈ deps, ∀ seen, f seen d = .ok (g seen d)) (seen : List Value) :
    deps.foldlM f seen = .ok (deps.foldl g seen) := by
  induction deps generalizing seen with
  | nil => rfl
  | cons d deps ih =>
    obtain ⟨hd, hdeps⟩ := List.forall_mem_cons.1 h
    rw [List.foldlM_cons, hd]
    exact ih hdeps (g seen d)

/-- The references are the first of the sides that are equal, after those of nothing. -/
theorem references_eq {deps : List Value} (h : ∀ d ∈ deps, TwoSided d) :
    references deps = .ok (((deps.flatMap sides).foldl withNew [nothing]).drop 1) := by
  unfold references
  rw [foldlM_eq_foldl (g := fun seen d => (sides d).foldl withNew seen), List.foldl_flatMap]
  · rfl
  · intro d hd seen
    obtain ⟨more, hstep, hmore⟩ := (h d hd).step_eq seen
    rw [hstep, ← hmore]

theorem references_eq_distinct {deps : List Value} (h : ∀ d ∈ deps, TwoSided d) :
    references deps = .ok (distinct ((deps.flatMap sides).filter fun r => !r.same nothing)) := by
  rw [references_eq h, foldl_withNew_cons]
  rfl

/-! ## Repeats -/

theorem among_of_sameAll : ∀ {as bs : List Value}, sameAll as bs = true → ∀ a ∈ as, a.among bs = true
  | [], _, _ => List.forall_mem_nil _
  | a :: as, b :: bs, h => by
    rw [sameAll, Bool.and_eq_true] at h
    refine List.forall_mem_cons.2 ⟨?_, fun c hc => ?_⟩
    · exact List.any_eq_true.2 ⟨b, List.mem_cons_self, h.1⟩
    · exact Bool.or_eq_true_iff.2 (.inr (among_of_sameAll h.2 c hc))

/-- A dependency that repeats another has no side that the other does not have. -/
theorem among_sides {d : Value} {deps : List Value} (h : d.among deps = true) :
    ∀ side ∈ sides d, side.among (deps.flatMap sides) = true := by
  intro side hside
  obtain ⟨e, he, hsame⟩ := List.any_eq_true.1 h
  cases d with
  | tuple parts =>
    obtain ⟨parts', rfl, hparts⟩ := same_tuple hsame
    obtain ⟨w, hw, hsame⟩ := List.any_eq_true.1 (among_of_sameAll hparts side hside)
    exact List.any_eq_true.2 ⟨w, List.mem_flatMap.2 ⟨_, he, hw⟩, hsame⟩
  | _ => cases hside

theorem foldl_sides_distinct (deps seen : List Value) :
    ((distinct deps).flatMap sides).foldl withNew seen = (deps.flatMap sides).foldl withNew seen := by
  induction deps using List.reverseRecOn with
  | nil => rfl
  | append_singleton deps d ih =>
    rw [distinct_concat, withNew, among_distinct, List.flatMap_append, List.foldl_append, List.flatMap_singleton]
    split
    · rename_i hrepeat
      have hseen : ∀ side ∈ sides d, side.among ((deps.flatMap sides).foldl withNew seen) = true := by
        intro side hside
        rw [among_foldl_withNew, among_sides hrepeat side hside, Bool.or_true]
      rw [ih, foldl_withNew_seen hseen]
    · rw [List.flatMap_append, List.foldl_append, List.flatMap_singleton, ih]

/-- **Repeats hide no side.** Without repeats, dependencies are the first ones of those that are equal, and leaving out
repeats once more changes nothing. The references are the first ones of the sides other than nothing, each once and in
order, and they are the same with and without repeats. -/
theorem references_without_repeats {deps : List Value} (h : ∀ d ∈ deps, TwoSided d) :
    ∃ once refs, withoutRepeats deps = .ok once ∧ references deps = .ok refs ∧
      FirstsOf deps once ∧ withoutRepeats once = .ok once ∧
      FirstsOf ((deps.flatMap sides).filter fun side => !side.same nothing) refs ∧ references once = .ok refs := by
  have honce : ∀ d ∈ distinct deps, TwoSided d := fun d hd => h d ((sublist_distinct deps).subset hd)
  refine ⟨_, _, withoutRepeats_eq h, references_eq_distinct h, firstsOf_distinct deps, ?_, firstsOf_distinct _, ?_⟩
  · rw [withoutRepeats_eq honce, distinct_of_pairwise (pairwise_distinct deps)]
  · rw [← references_eq_distinct h, references_eq honce, references_eq h, foldl_sides_distinct]

def circular : List Value :=
  let a : Value := .tuple [.str "/r", .str "a.py"]
  let b : Value := .tuple [.str "/r", .str "b.py"]
  [.tuple [a, b], .tuple [b, nothing], .tuple [a, b], .tuple [b, b], .tuple [b, a]]

theorem circular_references : ∃ once refs, withoutRepeats circular = .ok once ∧ once.length = 4 ∧
    references circular = .ok refs ∧ refs.length = 2 ∧ withoutRepeats once = .ok once ∧ references once = .ok refs := by
  have hdeps : ∀ d ∈ circular, TwoSided d := by
    simp only [circular, List.forall_mem_cons]
    refine ⟨⟨_, _, rfl, ?_⟩, ⟨_, _, rfl, ?_⟩, ⟨_, _, rfl, ?_⟩, ⟨_, _, rfl, ?_⟩, ⟨_, _, rfl, ?_⟩,
      List.forall_mem_nil _⟩ <;> decide
  obtain ⟨once, refs, honce, hrefs, hfirst, hagain, hsides, hsame⟩ := references_without_repeats hdeps
  refine ⟨once, refs, honce, ?_, hrefs, ?_, hagain, hsame⟩
  · rw [hfirst.eq]
    decide +kernel
  · rw [hsides.eq]
    decide +kernel

end Depends

end ImportAtlas
