import ImportAtlas.Value.Basic

/-!
# Choice by type

A table of answers for types of values. A value gets the answer for the first of its types, from the most special
to the most general, that has one.
-/

namespace ImportAtlas

inductive ValueType where
  | int
  | str
  | list
  | bool
  | table
  | object
  | real
  | none
  deriving DecidableEq, Repr

namespace ValueType

def ofName? : String → Option ValueType
  | "int" => some int
  | "str" => some str
  | "list" => some list
  | "bool" => some bool
  | "dict" => some table
  | "object" => some object
  | "float" => some real
  | "NoneType" => some none
  | _ => Option.none

end ValueType

/-- The types of a value, the most special first. A truth value is a number too. -/
def Value.types : Value → List ValueType
  | none => [.none, .object]
  | bool _ => [.bool, .int, .object]
  | int _ => [.int, .object]
  | real _ => [.real, .object]
  | str _ => [.str, .object]
  | list _ => [.list, .object]
  | tuple _ => [.object]
  | table _ _ => [.table, .object]

/-- The answers that have been given for types, the latest first. -/
structure Dispatch where
  answers : List (ValueType × String) := []

namespace Dispatch

/-- An answer for a type, in place of the one before. -/
def register (type : ValueType) (answer : String) (d : Dispatch) : Dispatch :=
  { answers := (type, answer) :: d.answers }

def choose (base : String) (v : Value) (d : Dispatch) : String :=
  (v.types.findSome? fun type => d.answers.lookup type).getD base

def call (base : String) (arguments : List Value) (d : Dispatch) : Except Fault String :=
  match arguments with
  | [] => .error .outOfRange
  | v :: _ => .ok (d.choose base v)

end Dispatch

end ImportAtlas
