import ImportAtlas.Value.Order
import Mathlib.Data.Prod.Lex
import Mathlib.Data.String.Basic
import Mathlib.Data.List.Lex

/-!
# References and their order

The values that dependencies are made of: a root and a name below it, either of which may be missing. On these
the order of values is a linear order: what is missing comes first, then texts by their characters.
-/

namespace ImportAtlas

structure Ref where
  root : Option String
  name : Option String
  deriving DecidableEq

structure Dependency where
  source : Ref
  target : Ref
  deriving DecidableEq

namespace Ref

def part : Option String → Value
  | none => .none
  | some s => .str s

def value (r : Ref) : Value := .ofPair (part r.root, part r.name)

def Before (a b : Ref) : Prop :=
  a.root < b.root ∨ a.root = b.root ∧ a.name < b.name

/-- The place of a reference in the linear order of pairs of lists: what is missing is an empty list. -/
def key (r : Ref) : Lex (List String × List String) := toLex (r.root.toList, r.name.toList)

theorem toList_inj (a b : Option String) : a.toList = b.toList ↔ a = b := by
  cases a <;> cases b <;> simp

theorem toList_lt_iff (a b : Option String) : a.toList < b.toList ↔ a < b := by
  cases a with
  | none => cases b <;> simp
  | some a =>
    cases b with
    | none => simp
    | some b => simp only [Option.toList_some, List.cons_lt_cons_iff, List.not_lt_nil, and_false, or_false]; rfl

theorem before_iff (a b : Ref) : a.Before b ↔ a.key < b.key := by
  rw [Before, key, key, Prod.Lex.toLex_lt_toLex]
  simp only [toList_lt_iff, toList_inj]

theorem order_str (a b : String) :
    (Value.order (.str a) (.str b) = .lt ↔ a < b) ∧ (Value.order (.str a) (.str b) = .eq ↔ a = b) := by
  have h : Value.order (.str a) (.str b) = compareOfLessAndEq a b := by rw [Value.order]; rfl
  rw [h, compareOfLessAndEq]
  split
  · rename_i hlt
    simp [hlt, ne_of_lt hlt]
  · split <;> simp_all

theorem order_part (a b : Option String) :
    ((part a).order (part b) = .lt ↔ a < b) ∧ ((part a).order (part b) = .eq ↔ a = b) := by
  cases a with
  | none =>
    cases b with
    | none => exact ⟨iff_of_false nofun (fun h => h), iff_of_true rfl rfl⟩
    | some b => exact ⟨iff_of_true rfl trivial, iff_of_false nofun nofun⟩
  | some a =>
    cases b with
    | none => exact ⟨iff_of_false nofun (fun h => h), iff_of_false nofun nofun⟩
    | some b => simpa [part] using order_str a b

theorem order_value (a b : Ref) : a.value.order b.value =
    ((part a.root).order (part b.root)).then ((part a.name).order (part b.name)) := by
  simp [value, Value.ofPair, Value.order, Value.orderAll]

theorem le_iff (a b : Ref) : a.value.le b.value = true ↔ a.key ≤ b.key := by
  obtain ⟨hr, hr'⟩ := order_part a.root b.root
  obtain ⟨hn, hn'⟩ := order_part a.name b.name
  rw [Value.le, order_value, key, key, Prod.Lex.toLex_le_toLex]
  simp only [le_iff_lt_or_eq, toList_lt_iff, toList_inj]
  rw [← hr, ← hr', ← hn, ← hn']
  cases (part a.root).order (part b.root) <;> cases (part a.name).order (part b.name) <;> simp

theorem key_injective : Function.Injective key := by
  intro a b h
  cases a; cases b
  simpa [key, toList_inj] using h

theorem Before.ne {a b : Ref} (h : a.Before b) : a ≠ b := by
  rintro rfl
  exact lt_irrefl _ ((before_iff a a).1 h)

theorem Before.asymm {a b : Ref} (h : a.Before b) (k : b.Before a) : False :=
  lt_asymm ((before_iff a b).1 h) ((before_iff b a).1 k)

/-- Things with different references are in strict order once they are sorted by these. -/
theorem pairwise_mergeSort {α : Type} (f : α → Ref) {l : List α} (h : (l.map f).Nodup) :
    (l.mergeSort fun a b => (f a).value.le (f b).value).Pairwise fun a b => (f a).Before (f b) := by
  have hs : (l.mergeSort fun a b => (f a).value.le (f b).value).Pairwise fun a b =>
      (f a).value.le (f b).value = true := by
    apply List.pairwise_mergeSort
    · intro a b c
      simp only [le_iff]
      exact le_trans
    · intro a b
      simp only [Bool.or_eq_true, le_iff]
      exact le_total _ _
  have hn : (l.mergeSort fun a b => (f a).value.le (f b).value).Pairwise fun a b => f a ≠ f b := by
    rw [← List.pairwise_map (f := f) (R := (· ≠ ·))]
    exact ((List.mergeSort_perm l _).map f).nodup_iff.2 h
  refine (hs.and hn).imp fun ⟨hle, hne⟩ => ?_
  rw [before_iff]
  exact lt_of_le_of_ne ((le_iff _ _).1 hle) (key_injective.ne hne)

end Ref

namespace Dependency

def value (d : Dependency) : Value := .tuple [d.source.value, d.target.value]

def Before (a b : Dependency) : Prop :=
  a.source.Before b.source ∨ a.source = b.source ∧ a.target.Before b.target

theorem Before.ne {a b : Dependency} (h : a.Before b) : a ≠ b := by
  rintro rfl
  rcases h with h | ⟨_, h⟩
  · exact h.ne rfl
  · exact h.ne rfl

theorem Before.asymm {a b : Dependency} (h : a.Before b) (k : b.Before a) : False := by
  rcases h with h | ⟨he, h⟩
  · rcases k with k | ⟨he, _⟩
    · exact h.asymm k
    · exact h.ne he.symm
  · rcases k with k | ⟨_, k⟩
    · exact k.ne he.symm
    · exact h.asymm k

instance : Std.Irrefl Before := ⟨fun _ h => h.ne rfl⟩

instance : Std.Antisymm Before := ⟨fun _ _ h k => (h.asymm k).elim⟩

end Dependency

end ImportAtlas
