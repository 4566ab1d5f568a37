import ImportAtlas.Decimal.Shortest
import ImportAtlas.Text.Basic
import ImportAtlas.Text.Quoted
import ImportAtlas.Value.Basic

/-!
# The text of values

`render` writes a value so that it reads back. `display` is the same, but a text stands for itself.
-/

namespace ImportAtlas

/-- Doubles are written in positional notation from 10^-4 up to 10^16, with at least one digit on
either side of the point; outside that range with an exponent of at least two digits. A decimal that
is too great for a double has become the infinity of its sign. -/
def renderReal (x : Float) : String :=
  let d := Decimal.shortestOf x
  let sign := if Decimal.isNegative x then "-" else ""
  let digits := toString d.digits
  let n := digits.length
  -- The point stands after this many digits.
  let point : Int := if d.digits = 0 then 1 else n + d.exponent
  if !Decimal.isBounded x then sign ++ "inf"
  else if -4 < point ∧ point ≤ 16 then
    if point ≤ 0 then sign ++ "0." ++ Text.times "0" (-point).toNat ++ digits
    else if point < n then
      sign ++ String.ofList (digits.toList.take point.toNat) ++ "." ++ Text.dropFirst digits point.toNat
    else sign ++ digits ++ Text.times "0" (point.toNat - n) ++ ".0"
  else
    let tail := if n = 1 then "" else "." ++ Text.dropFirst digits 1
    let power := toString (point - 1).natAbs
    let power := Text.times "0" (2 - power.length) ++ power
    sign ++ String.ofList (digits.toList.take 1) ++ tail ++ "e" ++
      (if point - 1 < 0 then "-" else "+") ++ power

namespace Value

mutual

/-- The value as it is written in a program. -/
def render : Value → String
  | none => "None"
  | bool true => "True"
  | bool false => "False"
  | int n => toString n
  | real x => renderReal x
  | str s => Text.quoted s
  | list items => "[" ++ ", ".intercalate (renderAll items) ++ "]"
  | tuple [item] => "(" ++ render item ++ ",)"
  | tuple items => "(" ++ ", ".intercalate (renderAll items) ++ ")"
  | table names items =>
    "\x7b" ++ ", ".intercalate ((names.zip (renderAll items)).map fun p => Text.quoted p.1 ++ ": " ++ p.2) ++
      "\x7d"

def renderAll : List Value → List String
  | [] => []
  | v :: vs => render v :: renderAll vs

end

/-- The value as it is shown to a reader. -/
def display : Value → String
  | str s => s
  | v => v.render

/-- The value put into a text with a single gap: a tuple is what fills the gaps, so it must have one
part. -/
def fillGap : Value → Except Fault String
  | tuple [v] => .ok v.display
  | tuple _ => .error .wrongKind
  | v => .ok v.display

/-- The value as a line number: of a double the whole part. -/
def lineNumber (v : Value) : Except Fault String :=
  match v, v.integer? with
  | _, some n => .ok (toString n)
  | real x, Option.none =>
    if Decimal.isBounded x then .ok (toString (Decimal.Scaled.ofFloat x).whole) else .error .tooGreat
  | _, Option.none => .error .wrongKind

end Value

end ImportAtlas
