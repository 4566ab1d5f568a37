import ImportAtlas.Proofs.Equality
import ImportAtlas.Proofs.References

/-!
# The order of all values

Values of different kinds are ordered by their kinds, values of one kind by what they hold. The order is total and
can be chained, so values that are sorted once stay as they are when they are sorted again; and the equality of
values is an equivalence.
-/

namespace ImportAtlas

namespace Decimal.Scaled

theorem order_eq_compare {a b : Scaled} {e : Int} (ha : e ≤ a.exponent) (hb : e ≤ b.exponent) :
    a.order b = compare (a.mantissaAt e) (b.mantissaAt e) := by
  have hpos : (0 : Int) < twoTo (min a.exponent b.exponent - e).toNat := by
    exact_mod_cast twoTo_pos (min a.exponent b.exponent - e).toNat
  rw [order, mantissaAt_eq (f := e) (by omega) (by omega : min a.exponent b.exponent ≤ a.exponent),
    mantissaAt_eq (f := e) (by omega) (by omega : min a.exponent b.exponent ≤ b.exponent)]
  simp only [compare, compareOfLessAndEq, Int.mul_lt_mul_right hpos, Int.mul_eq_mul_right_iff (ne_of_gt hpos)]

theorem order_swap (a b : Scaled) : (a.order b).swap = b.order a := by
  rw [order_eq_compare (e := min a.exponent b.exponent) (by omega) (by omega),
    order_eq_compare (e := min a.exponent b.exponent) (by omega) (by omega), Int.compare_swap]

theorem order_congr {a b : Scaled} (h : a.order b = .eq) (c : Scaled) : a.order c = b.order c := by
  let e := min a.exponent (min b.exponent c.exponent)
  have ha : e ≤ a.exponent := by omega
  have hb : e ≤ b.exponent := by omega
  have hc : e ≤ c.exponent := by omega
  rw [order_eq_compare ha hb, Int.compare_eq_eq] at h
  rw [order_eq_compare ha hc, order_eq_compare hb hc, h]

theorem order_lt_trans {a b c : Scaled} (h : a.order b = .lt) (k : b.order c = .lt) : a.order c = .lt := by
  let e := min a.exponent (min b.exponent c.exponent)
  have ha : e ≤ a.exponent := by omega
  have hb : e ≤ b.exponent := by omega
  have hc : e ≤ c.exponent := by omega
  rw [order_eq_compare ha hb, Int.compare_eq_lt] at h
  rw [order_eq_compare hb hc, Int.compare_eq_lt] at k
  rw [order_eq_compare ha hc, Int.compare_eq_lt]
  omega

end Decimal.Scaled

namespace Value

/-! ## Kinds decide -/

theorem order_of_rank_ne {a b : Value} (h : a.rank ≠ b.rank) : a.order b = compare a.rank b.rank := by
  cases a <;> cases b <;> simp_all [order, rank, number?]

theorem rank_eq_of_order {a b : Value} (h : a.order b = .eq) : a.rank = b.rank := by
  by_contra hne
  rw [order_of_rank_ne hne, Nat.compare_eq_eq] at h
  exact hne h

theorem order_number {a b : Value} {x y : Decimal.Scaled} (ha : a.number? = some x) (hb : b.number? = some y) :
    a.order b = x.order y := by
  cases a <;> cases b <;> simp_all [order, number?]

theorem exists_number {a b : Value} {x : Decimal.Scaled} (ha : a.number? = some x) (h : a.rank = b.rank) :
    ∃ y, b.number? = some y := by
  cases a <;> cases b <;> simp_all [rank, number?]

theorem order_table (ks ls : List String) (as bs : List Value) :
    order (table ks as) (table ls bs) = (compare ks.length ls.length).then (orderAll as bs) := by
  rw [order]

/-! ## Turning round -/

theorem order_str_gt {s t : String} (h : t < s) : order (str s) (str t) = .gt := by
  cases ho : order (str s) (str t) with
  | gt => rfl
  | lt => exact absurd ((Ref.order_str s t).1.1 ho) (lt_asymm h)
  | eq => exact absurd ((Ref.order_str s t).2.1 ho) (ne_of_gt h)

theorem order_swap_str (s t : String) : (order (str s) (str t)).swap = order (str t) (str s) := by
  rcases lt_trichotomy s t with h | rfl | h
  · rw [order_str_gt h, (Ref.order_str s t).1.2 h]
    rfl
  · rw [(Ref.order_str s s).2.2 rfl]
    rfl
  · rw [order_str_gt h, (Ref.order_str t s).1.2 h]
    rfl

mutual

theorem order_swap : ∀ a b : Value, (order a b).swap = order b a
  | a, b => by
    by_cases hrank : a.rank = b.rank
    · cases a with
      | none => cases b <;> simp_all [rank, order, number?]
      | bool _ | int _ | real _ =>
        obtain ⟨y, hy⟩ := exists_number rfl hrank
        rw [order_number rfl hy, order_number hy rfl, Decimal.Scaled.order_swap]
      | str s =>
        cases b with
        | str t => exact order_swap_str s t
        | _ => cases hrank
      | list as =>
        cases b with
        | list bs => rw [order, order, orderAll_swap as bs]
        | _ => cases hrank
      | tuple as =>
        cases b with
        | tuple bs => rw [order, order, orderAll_swap as bs]
        | _ => cases hrank
      | table ks as =>
        cases b with
        | table ls bs => rw [order_table, order_table, Ordering.swap_then, Nat.compare_swap, orderAll_swap as bs]
        | _ => cases hrank
    · rw [order_of_rank_ne hrank, order_of_rank_ne (Ne.symm hrank), Nat.compare_swap]

theorem orderAll_swap : ∀ as bs : List Value, (orderAll as bs).swap = orderAll bs as
  | [], [] => rfl
  | [], _ :: _ => rfl
  | _ :: _, [] => rfl
  | a :: as, b :: bs => by
    rw [orderAll, orderAll, Ordering.swap_then, order_swap a b, orderAll_swap as bs]

end

/-! ## Chains -/

mutual

/-- Values that are equal in the order stand in the same places. -/
theorem order_congr : ∀ {a b : Value}, order a b = .eq → ∀ c, order a c = order b c
  | a, b, h, c => by
    have hrank := rank_eq_of_order h
    by_cases hc : a.rank = c.rank
    · cases a with
      | none =>
        cases b with
        | none => rfl
        | _ => cases hrank
      | bool _ | int _ | real _ =>
        obtain ⟨y, hy⟩ := exists_number rfl hrank
        obtain ⟨z, hz⟩ := exists_number rfl hc
        rw [order_number rfl hy] at h
        rw [order_number rfl hz, order_number hy hz, Decimal.Scaled.order_congr h]
      | str s =>
        cases b with
        | str t => rw [(Ref.order_str s t).2.1 h]
        | _ => cases hrank
      | list as =>
        cases b with
        | list bs =>
          cases c with
          | list cs =>
            rw [order] at h ⊢
            rw [order, orderAll_congr h cs]
          | _ => cases hc
        | _ => cases hrank
      | tuple as =>
        cases b with
        | tuple bs =>
          cases c with
          | tuple cs =>
            rw [order] at h ⊢
            rw [order, orderAll_congr h cs]
          | _ => cases hc
        | _ => cases hrank
      | table ks as =>
        cases b with
        | table ls bs =>
          cases c with
          | table ms cs =>
            rw [order_table, Ordering.then_eq_eq, Nat.compare_eq_eq] at h
            rw [order_table, order_table, h.1, orderAll_congr h.2 cs]
          | _ => cases hc
        | _ => cases hrank
    · rw [order_of_rank_ne hc, order_of_rank_ne (hrank ▸ hc), hrank]

theorem orderAll_congr : ∀ {as bs : List Value}, orderAll as bs = .eq → ∀ cs, orderAll as cs = orderAll bs cs
  | [], [], _, _ => rfl
  | a :: as, b :: bs, h, [] => rfl
  | a :: as, b :: bs, h, c :: cs => by
    rw [orderAll, Ordering.then_eq_eq] at h
    rw [orderAll, orderAll, order_congr h.1 c, orderAll_congr h.2 cs]

end

theorem order_congr_right {b c : Value} (h : order b c = .eq) (a : Value) : order a b = order a c := by
  rw [← order_swap b a, ← order_swap c a, order_congr h a]

theorem then_lt_trans {p q r o o' o'' : Ordering} (hp : p = .eq → r = q) (hq : q = .eq → r = p)
    (hlt : p = .lt → q = .lt → r = .lt) (ho : o = .lt → o' = .lt → o'' = .lt) (h : p.then o = .lt)
    (k : q.then o' = .lt) : r.then o'' = .lt := by
  cases p <;> cases q <;> simp_all

mutual

theorem order_lt_trans : ∀ {a b c : Value}, order a b = .lt → order b c = .lt → order a c = .lt
  | a, b, c, h, k => by
    have hle : ∀ {x y : Value}, order x y = .lt → x.rank ≤ y.rank := by
      intro x y hxy
      by_contra hgt
      rw [order_of_rank_ne (by omega), Nat.compare_eq_lt] at hxy
      omega
    have hab := hle h
    have hbc := hle k
    by_cases hac : a.rank = c.rank
    · have hab : a.rank = b.rank := by omega
      cases a with
      | none =>
        cases b with
        | none => simp [order, number?] at h
        | _ => cases hab
      | bool _ | int _ | real _ =>
        obtain ⟨y, hy⟩ := exists_number rfl hab
        obtain ⟨z, hz⟩ := exists_number rfl hac
        rw [order_number rfl hy] at h
        rw [order_number hy hz] at k
        rw [order_number rfl hz]
        exact Decimal.Scaled.order_lt_trans h k
      | str s =>
        cases b with
        | str t =>
          cases c with
          | str u => exact (Ref.order_str s u).1.2 (lt_trans ((Ref.order_str s t).1.1 h) ((Ref.order_str t u).1.1 k))
          | _ => cases hac
        | _ => cases hab
      | list as =>
        cases b with
        | list bs =>
          cases c with
          | list cs =>
            rw [order] at h k ⊢
            exact orderAll_lt_trans h k
          | _ => cases hac
        | _ => cases hab
      | tuple as =>
        cases b with
        | tuple bs =>
          cases c with
          | tuple cs =>
            rw [order] at h k ⊢
            exact orderAll_lt_trans h k
          | _ => cases hac
        | _ => cases hab
      | table ks as =>
        cases b with
        | table ls bs =>
          cases c with
          | table ms cs =>
            rw [order_table] at h k ⊢
            refine then_lt_trans ?_ ?_ ?_ orderAll_lt_trans h k
            · intro he
              rw [Nat.compare_eq_eq.1 he]
            · intro he
              rw [Nat.compare_eq_eq.1 he]
            · simp only [Nat.compare_eq_lt]
              omega
          | _ => cases hac
        | _ => cases hab
    · rw [order_of_rank_ne hac, Nat.compare_eq_lt]
      omega

theorem orderAll_lt_trans : ∀ {as bs cs : List Value},
    orderAll as bs = .lt → orderAll bs cs = .lt → orderAll as cs = .lt
  | [], _ :: _, _ :: _, _, _ => rfl
  | a :: as, b :: bs, c :: cs, h, k => by
    rw [orderAll] at h k ⊢
    exact then_lt_trans (fun he => order_congr he c) (fun he => (order_congr_right he a).symm) order_lt_trans
      orderAll_lt_trans h k

end

theorem le_total (a b : Value) : (a.le b || b.le a) = true := by
  rw [le, le, ← order_swap a b]
  cases order a b <;> rfl

theorem le_trans (a b c : Value) (h : a.le b = true) (k : b.le c = true) : a.le c = true := by
  simp only [le, bne_iff_ne] at h k ⊢
  cases hab : order a b with
  | gt => exact absurd hab h
  | eq => rwa [order_congr hab c]
  | lt =>
    cases hbc : order b c with
    | gt => exact absurd hbc k
    | eq => rw [← order_congr_right hbc a, hab]; decide
    | lt => rw [order_lt_trans hab hbc]; decide

/-! ## Sorting again -/

theorem pairwise_mergeSort {α : Type} (f : α → Value) (xs : List α) :
    (xs.mergeSort fun x y => (f x).le (f y)).Pairwise fun x y => (f x).le (f y) = true :=
  List.pairwise_mergeSort (fun x y z => le_trans (f x) (f y) (f z)) (fun x y => le_total (f x) (f y)) xs

theorem mergeSort_mergeSort {α : Type} (f : α → Value) (xs : List α) :
    (xs.mergeSort fun x y => (f x).le (f y)).mergeSort (fun x y => (f x).le (f y)) =
      xs.mergeSort fun x y => (f x).le (f y) :=
  List.mergeSort_of_pairwise (pairwise_mergeSort f xs)

/-! ## Equality -/

mutual

theorem same_refl : ∀ a : Value, same a a = true
  | none => rfl
  | bool _ | int _ | real _ => (same_number rfl).2 ⟨_, rfl, by rw [Decimal.Scaled.order, Int.compare_eq_eq]⟩
  | str s => by simp [same]
  | list as => by simpa [same] using sameAll_refl as
  | tuple as => by simpa [same] using sameAll_refl as
  | table ks as => by simpa [same] using sameAll_refl as

theorem sameAll_refl : ∀ as : List Value, sameAll as as = true
  | [] => rfl
  | a :: as => by simp [sameAll, same_refl a, sameAll_refl as]

end

theorem same_symm_number {a b : Value} {x : Decimal.Scaled} (ha : a.number? = some x) (h : same a b = true) :
    same b a = true := by
  obtain ⟨y, hb, h⟩ := (same_number ha).1 h
  refine (same_number hb).2 ⟨x, ha, ?_⟩
  rw [← Decimal.Scaled.order_swap, h]
  rfl

mutual

theorem same_symm : ∀ {a b : Value}, same a b = true → same b a = true
  | none, _, h => by rw [same_none h]; rfl
  | bool _, _, h => same_symm_number rfl h
  | int _, _, h => same_symm_number rfl h
  | real _, _, h => same_symm_number rfl h
  | str s, _, h => by rw [same_str h]; exact same_refl (str s)
  | list as, _, h => by
    obtain ⟨bs, rfl, h⟩ := same_list h
    simpa [same] using sameAll_symm h
  | tuple as, _, h => by
    obtain ⟨bs, rfl, h⟩ := same_tuple h
    simpa [same] using sameAll_symm h
  | table ks as, _, h => by
    obtain ⟨bs, rfl, hbs⟩ := same_table h
    simpa [same] using sameAll_symm hbs

theorem sameAll_symm : ∀ {as bs : List Value}, sameAll as bs = true → sameAll bs as = true
  | [], [], _ => rfl
  | a :: as, b :: bs, h => by
    simp only [sameAll, Bool.and_eq_true] at h ⊢
    exact ⟨same_symm h.1, sameAll_symm h.2⟩

end

end Value

end ImportAtlas
