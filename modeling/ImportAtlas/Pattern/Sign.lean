import ImportAtlas.Fault
import ImportAtlas.Pattern.Basic

/-!
# Signs of patterns

The text of a pattern is a list of signs, and a reader goes from one to the next. A backslash and the character
after it are one sign. A backslash that nothing follows makes the text no pattern as soon as the reader comes
to it, so faults before it are found first.
-/

namespace ImportAtlas.Pattern

inductive Sign where
  | plain (c : Char)
  | escaped (c : Char)
  | broken
  deriving DecidableEq, Repr

namespace Sign

def ofChars : List Char → List Sign
  | [] => []
  | ['\\'] => [broken]
  | '\\' :: c :: rest => escaped c :: ofChars rest
  | c :: rest => plain c :: ofChars rest

def chars : Sign → List Char
  | plain c => [c]
  | escaped c => ['\\', c]
  | broken => ['\\']

def isPlain (test : Char → Bool) : Sign → Bool
  | plain c => test c
  | _ => false

theorem ofChars_eq_map {cs : List Char} (h : '\\' ∉ cs) : ofChars cs = cs.map plain := by
  fun_induction ofChars cs with
  | case1 => rfl
  | case2 => simp at h
  | case3 => simp at h
  | case4 c rest _ _ ih => simp [ih fun hr => h (List.mem_cons_of_mem _ hr)]

end Sign

structure ReaderState where
  rest : List Sign
  /-- The number of groups that have been opened, the whole pattern included. -/
  opened : Nat := 1
  names : List (String × Nat) := []
  closed : List (Nat × Width) := []
  conditions : List Nat := []
  /-- Some look behind does not know how far to go. -/
  looseLook : Bool := false
  repeats : Bool := false

abbrev PatternReader := EStateM Fault ReaderState

namespace PatternReader

def refuse {α : Type} : PatternReader α :=
  throw .badPattern

def peek : PatternReader (Option Sign) := do
  return (← get).rest.head?

/-- So many signs are passed, unless one of them or the one after them is broken. -/
def advance (n : Nat) : PatternReader Unit := do
  let rest := (← get).rest
  if .broken ∈ rest.take (n + 1) then refuse
  modify fun s => { s with rest := rest.drop n }

def next : PatternReader Sign := do
  match (← get).rest with
  | sign :: _ =>
    advance 1
    return sign
  | [] => refuse

def accept (c : Char) : PatternReader Bool := do
  if (← peek) = some (.plain c) then
    advance 1
    return true
  else return false

def expect (c : Char) : PatternReader Unit := do
  if !(← accept c) then refuse

def takeWhile (limit : Nat) (test : Char → Bool) : PatternReader (List Char) := do
  let taken := ((← get).rest.take limit).takeWhile (Sign.isPlain test)
  advance taken.length
  return taken.flatMap Sign.chars

/-- The characters up to a plain one, which is taken too. -/
def takeUntil (stop : Char) : PatternReader (List Char) := do
  let taken := (← get).rest.takeWhile (· ≠ .plain stop)
  advance taken.length
  expect stop
  return taken.flatMap Sign.chars

def skipLine : PatternReader Unit := do
  let taken := (← get).rest.takeWhile (· ≠ .plain '\n')
  advance taken.length
  let _ ← accept '\n'

end PatternReader

end ImportAtlas.Pattern
