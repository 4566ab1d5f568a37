/-!
# Binary fractions

Whole numbers times a power of two: the exact values of floating-point numbers, and their order.
-/

namespace ImportAtlas.Decimal

def twoTo (n : Nat) : Nat :=
  Nat.pow 2 n

def tenTo (n : Nat) : Nat :=
  Nat.pow 10 n

/-- The number `mantissa * 2 ^ exponent`. -/
structure Scaled where
  mantissa : Int
  exponent : Int
  deriving DecidableEq, Repr

namespace Scaled

def ofInt (n : Int) : Scaled :=
  ⟨n, 0⟩

/-- The mantissa when the exponent is lowered to `e`. -/
def mantissaAt (a : Scaled) (e : Int) : Int :=
  a.mantissa * twoTo (a.exponent - e).toNat

/-- The order of the numbers, taken at the lower of the two exponents. -/
def order (a b : Scaled) : Ordering :=
  let e := min a.exponent b.exponent
  compare (a.mantissaAt e) (b.mantissaAt e)

/-- Sign, exponent and fraction of a double; an exponent field of zero has no hidden bit. -/
def ofFloat (x : Float) : Scaled :=
  let bits := x.toBits.toNat
  let field : Nat := bits / twoTo 52 % twoTo 11
  let fraction : Nat := bits % twoTo 52
  let size : Int := if field = 0 then fraction else twoTo 52 + fraction
  let exponent : Int := if field = 0 then -1074 else field - 1075
  ⟨if bits / twoTo 63 = 1 then -size else size, exponent⟩

/-- The whole number that is left when the places after the point are cut off. -/
def whole (a : Scaled) : Int :=
  (a.mantissa * twoTo a.exponent.toNat).tdiv (twoTo (-a.exponent).toNat)

end Scaled

def isNegative (x : Float) : Bool :=
  x.toBits.toNat / twoTo 63 = 1

/-- The greatest exponent field is kept for what is not a number on the line. -/
def isBounded (x : Float) : Bool :=
  x.toBits.toNat / twoTo 52 % twoTo 11 ≠ 2047

end ImportAtlas.Decimal
