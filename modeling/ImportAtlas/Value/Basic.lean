import ImportAtlas.Decimal.Scaled
import ImportAtlas.Fault

/-!
# Values

The plain data that dependency lines, tree fields and import records are made of. Numbers are equal
across their kinds, and the truth values are the numbers zero and one.
-/

namespace ImportAtlas

inductive Value where
  | none
  | bool (b : Bool)
  | int (n : Int)
  | real (x : Float)
  | str (s : String)
  | list (items : List Value)
  | tuple (items : List Value)
  /-- A table by name: the names in order, and their values in the same order. -/
  | table (names : List String) (items : List Value)
  deriving Inhabited

namespace Value

def number? : Value → Option Decimal.Scaled
  | bool b => some (.ofInt (if b then 1 else 0))
  | int n => some (.ofInt n)
  | real x => some (.ofFloat x)
  | _ => Option.none

/-- The whole number that a value is, truth values included. -/
def integer? : Value → Option Int
  | bool b => some (if b then 1 else 0)
  | int n => some n
  | _ => Option.none

/-- Everything counts as true but none, zero and what is empty. -/
def truthy : Value → Bool
  | none => false
  | bool b => b
  | int n => n ≠ 0
  | real x => (Decimal.Scaled.ofFloat x).mantissa ≠ 0
  | str s => s ≠ ""
  | list items => !items.isEmpty
  | tuple items => !items.isEmpty
  | table names _ => !names.isEmpty

def isNone : Value → Bool
  | none => true
  | _ => false

/-! ## Equality -/

mutual

/-- Equality of values: numbers by size, groups part by part. -/
def same : Value → Value → Bool
  | none, none => true
  | str a, str b => a = b
  | list as, list bs => sameAll as bs
  | tuple as, tuple bs => sameAll as bs
  | table ks as, table ls bs => ks = ls && sameAll as bs
  | a, b =>
    match a.number?, b.number? with
    | some x, some y => x.order y = .eq
    | _, _ => false

def sameAll : List Value → List Value → Bool
  | [], [] => true
  | a :: as, b :: bs => same a b && sameAll as bs
  | _, _ => false

end

def among (v : Value) (vs : List Value) : Bool :=
  vs.any (same v)

mutual

/-- Lists and tables can change, so no value that holds one can be a key. -/
def isKey : Value → Bool
  | list _ => false
  | table _ _ => false
  | tuple items => allKeys items
  | _ => true

def allKeys : List Value → Bool
  | [] => true
  | v :: vs => isKey v && allKeys vs

end

def asKey (v : Value) : Except Fault Value :=
  if v.isKey then .ok v else .error .wrongKind

/-! ## Parts -/

def parts : Value → Except Fault (List Value)
  | list items => .ok items
  | tuple items => .ok items
  | str s => .ok (s.toList.map fun c => str (String.singleton c))
  | table names _ => .ok (names.map str)
  | _ => .error .wrongKind

def part (place : Nat) : Value → Except Fault Value
  | table _ _ => .error .missingKey
  | v => do
    match (← v.parts)[place]? with
    | some part => .ok part
    | Option.none => .error .outOfRange

def pair (v : Value) : Except Fault (Value × Value) := do
  match ← v.parts with
  | [a, b] => .ok (a, b)
  | _ => .error .wrongCount

def ends (v : Value) : Except Fault ((Value × Value) × (Value × Value)) := do
  let (source, target) ← v.pair
  let source ← source.pair
  let target ← target.pair
  return (source, target)

def ofPair (p : Value × Value) : Value :=
  tuple [p.1, p.2]

/-- The text of a value whose operations on text are asked for. -/
def text : Value → Except Fault String
  | str s => .ok s
  | _ => .error .noOperation

/-- The text of a value where only a text will do. -/
def onlyText : Value → Except Fault String
  | str s => .ok s
  | _ => .error .wrongKind

end Value

end ImportAtlas
