import ImportAtlas.Value.Basic

/-!
# Equality of values

Values count as equal across the kinds of numbers. This equality can be chained, and equal values are true
together.
-/

namespace ImportAtlas

namespace Decimal.Scaled

theorem twoTo_pos (n : Nat) : 0 < twoTo n := Nat.pow_pos (by decide)

theorem twoTo_add (m n : Nat) : twoTo (m + n) = twoTo m * twoTo n := Nat.pow_add 2 m n

theorem mantissaAt_eq {a : Scaled} {e f : Int} (hf : f ≤ e) (he : e ≤ a.exponent) :
    a.mantissaAt f = a.mantissaAt e * twoTo (e - f).toNat := by
  have hexp : (a.exponent - f).toNat = (a.exponent - e).toNat + (e - f).toNat := by omega
  rw [mantissaAt, mantissaAt, hexp, twoTo_add, Int.natCast_mul, Int.mul_assoc]

/-- At whatever exponent both numbers can be written, they are equal if their mantissas are. -/
theorem order_eq_iff {a b : Scaled} {e : Int} (ha : e ≤ a.exponent) (hb : e ≤ b.exponent) :
    a.order b = .eq ↔ a.mantissaAt e = b.mantissaAt e := by
  have hne : (twoTo (min a.exponent b.exponent - e).toNat : Int) ≠ 0 := by
    have := twoTo_pos (min a.exponent b.exponent - e).toNat
    omega
  rw [order, Int.compare_eq_eq,
    mantissaAt_eq (f := e) (by omega) (by omega : min a.exponent b.exponent ≤ a.exponent),
    mantissaAt_eq (f := e) (by omega) (by omega : min a.exponent b.exponent ≤ b.exponent)]
  exact (Int.mul_eq_mul_right_iff hne).symm

theorem order_eq_trans {a b c : Scaled} (h : a.order b = .eq) (k : b.order c = .eq) : a.order c = .eq := by
  let e := min a.exponent (min b.exponent c.exponent)
  have ha : e ≤ a.exponent := by omega
  have hb : e ≤ b.exponent := by omega
  have hc : e ≤ c.exponent := by omega
  rw [order_eq_iff ha hb] at h
  rw [order_eq_iff hb hc] at k
  rw [order_eq_iff ha hc]
  exact h.trans k

theorem mantissa_eq_zero_iff {a b : Scaled} (h : a.order b = .eq) : a.mantissa = 0 ↔ b.mantissa = 0 := by
  rw [order_eq_iff (e := min a.exponent b.exponent) (by omega) (by omega), mantissaAt, mantissaAt] at h
  have ha := twoTo_pos (a.exponent - min a.exponent b.exponent).toNat
  have hb := twoTo_pos (b.exponent - min a.exponent b.exponent).toNat
  constructor
  · intro hz
    rw [hz, Int.zero_mul] at h
    rcases Int.mul_eq_zero.1 h.symm with h | h <;> omega
  · intro hz
    rw [hz, Int.zero_mul] at h
    rcases Int.mul_eq_zero.1 h with h | h <;> omega

end Decimal.Scaled

namespace Value

/-! ## What a value of each kind is equal to -/

theorem same_none {b : Value} (h : same none b = true) : b = none := by
  cases b <;> simp_all [same, number?]

theorem same_str {s : String} {b : Value} (h : same (str s) b = true) : b = str s := by
  cases b <;> simp_all [same, number?]

theorem same_list {as : List Value} {b : Value} (h : same (list as) b = true) :
    ∃ bs, b = list bs ∧ sameAll as bs = true := by
  cases b <;> simp_all [same, number?]

theorem same_tuple {as : List Value} {b : Value} (h : same (tuple as) b = true) :
    ∃ bs, b = tuple bs ∧ sameAll as bs = true := by
  cases b <;> simp_all [same, number?]

theorem same_table {names : List String} {as : List Value} {b : Value} (h : same (table names as) b = true) :
    ∃ bs, b = table names bs ∧ sameAll as bs = true := by
  cases b <;> simp_all [same, number?]

theorem same_number {a b : Value} {x : Decimal.Scaled} (ha : a.number? = some x) :
    same a b = true ↔ ∃ y, b.number? = some y ∧ x.order y = .eq := by
  cases a <;> cases b <;> simp_all [same, number?]

theorem same_number_trans {a b c : Value} {x : Decimal.Scaled} (ha : a.number? = some x)
    (h : same a b = true) (k : same b c = true) : same a c = true := by
  obtain ⟨y, hb, h⟩ := (same_number ha).1 h
  obtain ⟨z, hc, k⟩ := (same_number hb).1 k
  exact (same_number ha).2 ⟨z, hc, Decimal.Scaled.order_eq_trans h k⟩

/-! ## Chains, and truth -/

mutual

theorem same_trans : ∀ {a b c : Value}, same a b = true → same b c = true → same a c = true
  | none, _, _, h, k => by rwa [same_none h] at k
  | str _, _, _, h, k => by rwa [same_str h] at k
  | list as, _, _, h, k => by
    obtain ⟨bs, rfl, h⟩ := same_list h
    obtain ⟨cs, rfl, k⟩ := same_list k
    simpa [same] using sameAll_trans h k
  | tuple as, _, _, h, k => by
    obtain ⟨bs, rfl, h⟩ := same_tuple h
    obtain ⟨cs, rfl, k⟩ := same_tuple k
    simpa [same] using sameAll_trans h k
  | table names as, _, _, h, k => by
    obtain ⟨bs, rfl, hab⟩ := same_table h
    obtain ⟨cs, rfl, hbc⟩ := same_table k
    simpa [same] using sameAll_trans hab hbc
  | bool _, _, _, h, k => same_number_trans rfl h k
  | int _, _, _, h, k => same_number_trans rfl h k
  | real _, _, _, h, k => same_number_trans rfl h k

theorem sameAll_trans : ∀ {as bs cs : List Value},
    sameAll as bs = true → sameAll bs cs = true → sameAll as cs = true
  | [], [], [], _, _ => rfl
  | a :: as, b :: bs, c :: cs, h, k => by
    simp only [sameAll, Bool.and_eq_true] at h k ⊢
    exact ⟨same_trans h.1 k.1, sameAll_trans h.2 k.2⟩

end

theorem truthy_of_number {a : Value} {x : Decimal.Scaled} (ha : a.number? = some x) :
    a.truthy = true ↔ x.mantissa ≠ 0 := by
  cases a with
  | bool b => cases ha; cases b <;> simp [truthy, Decimal.Scaled.ofInt]
  | int n => cases ha; simp [truthy, Decimal.Scaled.ofInt]
  | real y => cases ha; simp [truthy]
  | _ => cases ha

theorem isEmpty_of_sameAll : ∀ {as bs : List Value}, sameAll as bs = true → as.isEmpty = bs.isEmpty
  | [], [], _ => rfl
  | _ :: _, _ :: _, _ => rfl

theorem truthy_of_same_number {a b : Value} {x : Decimal.Scaled} (ha : a.number? = some x)
    (h : same a b = true) : a.truthy = b.truthy := by
  obtain ⟨y, hb, h⟩ := (same_number ha).1 h
  rw [Bool.eq_iff_iff, truthy_of_number ha, truthy_of_number hb]
  exact not_congr (Decimal.Scaled.mantissa_eq_zero_iff h)

theorem truthy_of_same {a b : Value} (h : same a b = true) : a.truthy = b.truthy := by
  cases a with
  | none => rw [same_none h]
  | str s => rw [same_str h]
  | list as =>
    obtain ⟨bs, rfl, h⟩ := same_list h
    simp only [truthy, isEmpty_of_sameAll h]
  | tuple as =>
    obtain ⟨bs, rfl, h⟩ := same_tuple h
    simp only [truthy, isEmpty_of_sameAll h]
  | table names as =>
    obtain ⟨bs, rfl, _⟩ := same_table h
    rfl
  | bool _ => exact truthy_of_same_number rfl h
  | int _ => exact truthy_of_same_number rfl h
  | real _ => exact truthy_of_same_number rfl h

/-! ## Keys -/

theorem eq_of_asKey {v key : Value} (h : v.asKey = .ok key) : key = v := by
  unfold asKey at h
  split at h
  · exact (Except.ok.inj h).symm
  · cases h

end Value

end ImportAtlas
