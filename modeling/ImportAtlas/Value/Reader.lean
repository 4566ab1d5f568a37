import ImportAtlas.Value.Basic
import ImportAtlas.Value.Token

/-!
# Reading values

The tokens of a line are folded into an expression, and the expression is evaluated. Brackets that are open are
kept as a stack of groups, so that the fold goes through the tokens once, from left to right.
-/

namespace ImportAtlas

inductive ReadError where
  /-- The line ends before anything begins. -/
  | blank
  | malformed (reason : String)
  | undefinedName (name : String)
  | divisionByZero
  | badOperand (reason : String)
  deriving DecidableEq, Repr

def ReadError.message : ReadError → String
  | blank => "invalid syntax (<string>, line 0)"
  | malformed reason => reason ++ " (<string>, line 1)"
  | undefinedName name => "name '" ++ name ++ "' is not defined"
  | divisionByZero => "division by zero"
  | badOperand reason => reason

namespace Reader

/-! ## Expressions -/

inductive Expr where
  | const (v : Value)
  | name (s : String)
  | tuple (items : List Expr)
  | list (items : List Expr)
  | minus (e : Expr)
  | quotient (a b : Expr)

def kindName : Value → String
  | .none => "NoneType"
  | .bool _ => "bool"
  | .int _ => "int"
  | .real _ => "float"
  | .str _ => "str"
  | .list _ => "list"
  | .tuple _ => "tuple"
  | .table _ _ => "dict"

def negated : Value → Except ReadError Value
  | .bool b => .ok (.int (if b then -1 else 0))
  | .int n => .ok (.int (-n))
  | .real x => .ok (.real (-x))
  | v => .error (.badOperand ("bad operand type for unary -: '" ++ kindName v ++ "'"))

def divided (a b : Value) : Except ReadError Value :=
  match a.integer?, b.integer? with
  | some m, some n => if n = 0 then .error .divisionByZero else .ok (.real (.ofInt m / .ofInt n))
  | _, _ =>
    .error (.badOperand
      ("unsupported operand type(s) for /: '" ++ kindName a ++ "' and '" ++ kindName b ++ "'"))

mutual

def Expr.value : Expr → Except ReadError Value
  | .const v => .ok v
  | .name s => .error (.undefinedName s)
  | .tuple items => do return .tuple (← Expr.values items)
  | .list items => do return .list (← Expr.values items)
  | .minus e => do negated (← e.value)
  | .quotient a b => do
    let x ← a.value
    let y ← b.value
    divided x y

def Expr.values : List Expr → Except ReadError (List Value)
  | [] => .ok []
  | e :: es => do
    let v ← e.value
    return v :: (← Expr.values es)

end

/-! ## The fold over the tokens -/

/-- An operand that has been read. Two texts side by side are one text. -/
inductive Operand where
  | text (s : String)
  | other (e : Expr)

def Operand.expr : Operand → Expr
  | text s => .const (.str s)
  | other e => e

/-- What has been read since a bracket was opened, or since the line began. -/
structure Group where
  bracket : Option Token.Bracket
  /-- The operands before the last comma, the latest first. -/
  items : List Expr := []
  comma : Bool := false
  /-- Minus signs that wait for their operand. -/
  signs : Nat := 0
  /-- The numerator of a quotient that waits for its denominator. -/
  numerator : Option Expr := none
  last : Option Operand := none

structure State where
  top : Group
  outer : List Group := []

def invalid {α : Type} : Except ReadError α :=
  .error (.malformed "invalid syntax")

def withSigns : Nat → Expr → Expr
  | 0, e => e
  | n + 1, e => .minus (withSigns n e)

def Group.put (g : Group) (operand : Operand) : Except ReadError Group :=
  match g.last, operand with
  | none, _ =>
    if g.signs = 0 ∧ g.numerator.isNone then .ok { g with last := some operand }
    else
      let signed := withSigns g.signs operand.expr
      let whole := match g.numerator with
        | some e => .quotient e signed
        | none => signed
      .ok { g with signs := 0, numerator := none, last := some (.other whole) }
  | some (.text s), .text t => .ok { g with last := some (.text (s ++ t)) }
  | _, _ => invalid

def Group.operands (g : Group) : Except ReadError (List Expr) :=
  if g.signs ≠ 0 ∨ g.numerator.isSome then invalid
  else .ok (g.items.reverse ++ g.last.toList.map Operand.expr)

def Group.close (g : Group) : Except ReadError Expr := do
  let items ← g.operands
  match g.bracket, items with
  | some .square, items => return .list items
  | _, [e] => return if g.comma then .tuple [e] else e
  | none, [] => invalid
  | _, items => return .tuple items

def State.put (s : State) (operand : Operand) : Except ReadError State := do
  return { s with top := ← s.top.put operand }

def State.opened (s : State) (bracket : Token.Bracket) : Except ReadError State :=
  if s.top.last.isSome then invalid
  else .ok { top := { bracket := some bracket }, outer := s.top :: s.outer }

/-- A bracket closes the innermost group, which becomes an operand of the one around it. -/
def State.closed (s : State) (bracket : Token.Bracket) : Except ReadError State := do
  match s.outer with
  | [] => invalid
  | g :: outer =>
    if s.top.bracket ≠ some bracket then invalid
    else
      let e ← s.top.close
      return { top := ← g.put (.other e), outer := outer }

def constant : String → Expr
  | "None" => .const .none
  | "True" => .const (.bool true)
  | "False" => .const (.bool false)
  | name => .name name

def State.mark (s : State) (c : Char) : Except ReadError State :=
  if c = '(' then s.opened .round
  else if c = '[' then s.opened .square
  else if c = ')' then s.closed .round
  else if c = ']' then s.closed .square
  else if c = ',' then
    match s.top.last with
    | none => invalid
    | some e =>
      .ok { s with top := { s.top with items := e.expr :: s.top.items, comma := true, last := none } }
  else if c = '-' then
    if s.top.last.isSome then invalid
    else .ok { s with top := { s.top with signs := s.top.signs + 1 } }
  else if c = '/' then
    match s.top.last with
    | none => invalid
    | some e => .ok { s with top := { s.top with numerator := some e.expr, last := none } }
  else invalid

def State.step (s : State) : Token → Except ReadError State
  | .text t => s.put (.text t)
  | .number n => s.put (.other (.const (.int n)))
  | .word w => s.put (.other (constant w))
  | .mark c => s.mark c
  | .bad reason => .error (.malformed reason)

def expression (ts : List Token) : Except ReadError Expr := do
  let s ← ts.foldlM State.step { top := { bracket := none } }
  match s.top.bracket with
  | none => s.top.close
  | some b => .error (.malformed (Token.shown b.opener ++ " was never closed"))

end Reader

/-- The value that a line of text stands for. Only a fragment of all expressions is read: texts, whole numbers with
their minus signs and quotients, `None`, `True`, `False`, and tuples and lists of these. Decimal fractions, sums,
calls, bytes, dictionaries, characters by name and whatever else an expression may hold count as invalid. What no
token can be, and brackets that do not fit, count before all else that is wrong. -/
def Value.read (line : String) : Except ReadError Value := do
  if line.toList.all (fun c => c = ' ' || c = '\t') then throw .blank
  let tokens := Token.ofChars line.toList
  match Token.flaw? [] tokens with
  | some reason => throw (.malformed reason)
  | .none => (← Reader.expression tokens).value

end ImportAtlas
