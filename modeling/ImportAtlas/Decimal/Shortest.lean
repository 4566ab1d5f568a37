import ImportAtlas.Decimal.Scaled

/-!
# Shortest decimals

The fewest decimal digits that read back as a given double, and of those the nearest to it.

A double with mantissa `m` and exponent `q` is read back from every decimal in the interval that ends
half way to its neighbours. The ends count exactly if `m` is even. Below a power of two the lower
neighbour is at half the distance.
-/

namespace ImportAtlas.Decimal

/-- The number `digits * 10 ^ exponent`. -/
structure Digits where
  digits : Nat
  exponent : Int
  deriving DecidableEq, Repr

/-- `a * 10 ^ k ≤ b * 2 ^ r`, in whole numbers. -/
def tenLeTwo (a : Nat) (k : Int) (b : Nat) (r : Int) : Bool :=
  a * tenTo k.toNat * twoTo (-r).toNat ≤ b * twoTo r.toNat * tenTo (-k).toNat

/-- `b * 2 ^ r ≤ a * 10 ^ k`, in whole numbers. -/
def twoLeTen (b : Nat) (r : Int) (a : Nat) (k : Int) : Bool :=
  b * twoTo r.toNat * tenTo (-k).toNat ≤ a * tenTo k.toNat * twoTo (-r).toNat

/-- The interval of a double, its middle and its ends in units of `2 ^ unit`. -/
structure Interval where
  low : Nat
  middle : Nat
  high : Nat
  unit : Int
  closed : Bool

def Interval.of (m : Nat) (q : Int) : Interval where
  low := if m = twoTo 52 ∧ -1074 < q then 4 * m - 1 else 4 * m - 2
  middle := 4 * m
  high := 4 * m + 2
  unit := q - 2
  closed := m % 2 = 0

/-- The decimal reads back as the double of the interval. -/
def Interval.holds (i : Interval) (d : Digits) : Bool :=
  if i.closed then twoLeTen i.low i.unit d.digits d.exponent && tenLeTwo d.digits d.exponent i.high i.unit
  else !tenLeTwo d.digits d.exponent i.low i.unit && !twoLeTen i.high i.unit d.digits d.exponent

/-- The greatest `e` with `10 ^ e` at most the middle, looked for downwards from `e`. -/
def Interval.magnitude (i : Interval) : Nat → Int → Int
  | 0, e => e
  | n + 1, e => if tenLeTwo 1 e i.middle i.unit then e else i.magnitude n (e - 1)

/-- The whole number of steps `10 ^ k` that fit below the middle. -/
def Interval.stepsBelow (i : Interval) (k : Int) : Nat :=
  i.middle * twoTo i.unit.toNat * tenTo (-k).toNat / (tenTo k.toNat * twoTo (-i.unit).toNat)

/-- The lower of the two decimals is the nearer one; half way, the even one. -/
def Interval.prefersLower (i : Interval) (d : Nat) (k : Int) : Bool :=
  let middle := 2 * (i.middle * twoTo i.unit.toNat * tenTo (-k).toNat)
  let between := (2 * d + 1) * (tenTo k.toNat * twoTo (-i.unit).toNat)
  middle < between || (middle = between && d % 2 = 0)

/-- On the grid of step `10 ^ k`, a neighbour of the middle that reads back. -/
def Interval.onGrid (i : Interval) (k : Int) : Option Digits :=
  let d := i.stepsBelow k
  let below := i.holds ⟨d, k⟩
  let above := i.holds ⟨d + 1, k⟩
  if below && (!above || i.prefersLower d k) then some ⟨d, k⟩
  else if above then some ⟨d + 1, k⟩
  else none

def Interval.search (i : Interval) : Nat → Int → Digits
  | 0, k => ⟨i.stepsBelow k, k⟩
  | n + 1, k => (i.onGrid k).getD (i.search n (k - 1))

def Digits.trim : Nat → Digits → Digits
  | 0, d => d
  | n + 1, d =>
    if d.digits ≠ 0 ∧ d.digits % 10 = 0 then Digits.trim n ⟨d.digits / 10, d.exponent + 1⟩ else d

def shortest (m : Nat) (q : Int) : Digits :=
  if m = 0 then ⟨0, 0⟩
  else
    let i := Interval.of m q
    (i.search 17 (i.magnitude 640 309)).trim 20

def shortestOf (x : Float) : Digits :=
  let s := Scaled.ofFloat x
  shortest s.mantissa.natAbs s.exponent

end ImportAtlas.Decimal
