import ImportAtlas.Text.Basic
import ImportAtlas.Text.Blank
import ImportAtlas.Text.Lines
import ImportAtlas.Text.Name
import ImportAtlas.Value.Reader

/-!
# Code

Just enough of running a source text to say how loading a module ends. A text is a list of statements: a
definition, the raising of an import error, an expression, or something without consequence. A definition without
a name does not compile, nor does a character that no name has. Names with letters beyond ASCII have to be
normalised, and what does that is a module that no search path holds here.
-/

namespace ImportAtlas

inductive Statement where
  | namelessDef
  | raiseImport (message : String)
  | divideByZero
  | other
  deriving DecidableEq, Repr

namespace Statement

/-- The text between the parentheses of a call of the given name. -/
def argument? (name : String) (line : String) : Option String :=
  let start := name ++ "("
  if Text.beginsWith line start && Text.endsIn line ")" then
    some (Text.dropLast (Text.dropFirst line start.length) 1)
  else none

def raised? (line : String) : Option String :=
  match argument? "raise ImportError" line with
  | some argument =>
    match Value.read argument with
    | .ok (.str message) => some message
    | _ => none
  | none => none

def isNamelessDef (line : String) : Bool :=
  Text.beginsWith line "def " &&
    match (Text.trim (Text.dropFirst line 4)).toList with
    | [] => true
    | c :: _ => !Text.isWord c || c.isDigit

def ofLine (line : String) : Statement :=
  let line := Text.trimRight line
  if isNamelessDef line then namelessDef
  else
    match raised? line with
    | some message => raiseImport message
    | none =>
      match Value.read line with
      | .error .divisionByZero => divideByZero
      | _ => other

def run : Statement → Except Fault Unit
  | namelessDef => .error .malformedSource
  | raiseImport message => .error (.loadFailed message)
  | divideByZero => .error .divisionByZero
  | other => .ok ()

end Statement

namespace Code

/-- What is wrong with the first character beyond ASCII that stands outside remarks and quotes, if there is one.
`quote` is the quote in which the text stands, and `named` says that a name or a number is going on. -/
def wideFault? (quote : Option Char) (remark named : Bool) : List Char → Option Fault
  | [] => none
  | '\n' :: rest => wideFault? quote false false rest
  | '\\' :: _ :: rest => wideFault? quote remark false rest
  | c :: rest =>
    if remark then wideFault? quote true false rest
    else
      match quote with
      | some q => wideFault? (if c = q then none else quote) false false rest
      | none =>
        if c = '\'' || c = '"' then wideFault? (some c) false false rest
        else if c = '#' then wideFault? none true false rest
        else if c.toNat < 0x80 then wideFault? none false (Text.isWord c) rest
        else
          let more := rest.takeWhile fun d => 0x7f < d.toNat || Text.isWord d
          if (if named then Text.continuesName c else Text.startsName c) && more.all Text.continuesName then
            some .moduleNotFound
          else some .malformedSource

/-- The text compiles. Of two faults the one on the earlier line is found. -/
def compile (text : String) : Except Fault (List Statement) :=
  let lines := Text.splitLines text
  let sound := lines.takeWhile (Statement.ofLine · ≠ .namelessDef)
  let isSound := sound.length = lines.length
  let part := if isSound then text else "\n".intercalate sound
  if '\x00' ∈ text.toList then .error .malformedSource
  else
    match wideFault? none false false part.toList with
    | some fault => .error fault
    | none => if isSound then .ok (lines.map Statement.ofLine) else .error .malformedSource

def run (text : String) : Except Fault Unit := do
  (← compile text).forM Statement.run

end Code

end ImportAtlas
