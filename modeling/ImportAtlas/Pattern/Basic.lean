import ImportAtlas.Pattern.Set

/-!
# Patterns

A pattern is a regular expression with anchors, back references and looks ahead and behind.
-/

namespace ImportAtlas

/-! ## Places -/

inductive Anchor where
  | textStart
  | lineStart
  | textEnd
  /-- The end, or before a line feed at the end. -/
  | finalEnd
  | lineEnd
  /-- Between a word and what is no word, or not; an empty text has neither. -/
  | edge (ascii wanted : Bool)
  deriving DecidableEq, Repr

def wordAt (ascii : Bool) (text : Array Char) (place : Nat) : Bool :=
  match text[place]? with
  | some c => CharClass.word.holds ascii c
  | none => false

def wordBefore (ascii : Bool) (text : Array Char) (place : Nat) : Bool :=
  0 < place && wordAt ascii text (place - 1)

def Anchor.holds (text : Array Char) (place : Nat) : Anchor → Bool
  | textStart => place = 0
  | lineStart => place = 0 || text[place - 1]? = some '\n'
  | textEnd => place = text.size
  | finalEnd => place = text.size || (place + 1 = text.size && text[place]? = some '\n')
  | lineEnd => place = text.size || text[place]? = some '\n'
  | edge ascii wanted => !text.isEmpty && (wordBefore ascii text place != wordAt ascii text place) = wanted

/-! ## Patterns -/

inductive Eagerness where
  | greedy
  | lazy
  | possessive
  deriving DecidableEq, Repr

inductive Pattern where
  | empty
  | one (set : CharSet)
  | anchor (a : Anchor)
  | seq (first second : Pattern)
  | alt (first second : Pattern)
  | repeated (least : Nat) (most : Option Nat) (eagerness : Eagerness) (body : Pattern)
  /-- A group, with the number under which its match is kept. -/
  | group (index : Option Nat) (body : Pattern)
  | back (index : Nat) (ignoreCase ascii : Bool)
  | ahead (wanted : Bool) (body : Pattern)
  /-- A look at the given number of characters before the place. -/
  | behind (width : Nat) (wanted : Bool) (body : Pattern)
  /-- Only the preferred outcome of the body. -/
  | atomic (body : Pattern)
  | ifGroup (index : Nat) (yes no : Pattern)
  deriving DecidableEq, Repr

namespace Pattern

/-- The set, if the pattern asks for one character of a set and nothing else. -/
def unit? : Pattern → Option CharSet
  | one set => some set
  | group none body => unit? body
  | _ => none

def sequence : List Pattern → Pattern
  | [] => empty
  | [p] => p
  | p :: ps => seq p (sequence ps)

def choice : List Pattern → Pattern
  | [] => empty
  | [p] => p
  | p :: ps => alt p (choice ps)

/-! ## Widths -/

/-- The least and the greatest number of characters of a match, the latter if there is one. -/
abbrev Width := Nat × Option Nat

def Width.add (a b : Width) : Width :=
  (a.1 + b.1, do return (← a.2) + (← b.2))

def Width.either (a b : Width) : Width :=
  (min a.1 b.1, do return max (← a.2) (← b.2))

def Width.times (least : Nat) (most : Option Nat) (a : Width) : Width :=
  (a.1 * least, if a.2 = some 0 || most = some 0 then some 0 else do return (← a.2) * (← most))

/-- The width of a pattern; `known` holds the widths of the groups. -/
def width (known : List (Nat × Width)) : Pattern → Width
  | empty => (0, some 0)
  | one _ => (1, some 1)
  | anchor _ => (0, some 0)
  | seq first second => (width known first).add (width known second)
  | alt first second => (width known first).either (width known second)
  | repeated least most _ body => (width known body).times least most
  | group _ body => width known body
  | back index _ _ => (known.lookup index).getD (0, none)
  | ahead _ _ => (0, some 0)
  | behind _ _ _ => (0, some 0)
  | atomic body => width known body
  | ifGroup _ yes no => (width known yes).either (width known no)

def groupWidths (known : List (Nat × Width)) : Pattern → List (Nat × Width)
  | seq first second => groupWidths (groupWidths known first) second
  | alt first second => groupWidths (groupWidths known first) second
  | repeated _ _ _ body => groupWidths known body
  | group none body => groupWidths known body
  | group (some index) body =>
    let known := groupWidths known body
    (index, body.width known) :: known
  | ahead _ body => groupWidths known body
  | behind _ _ body => groupWidths known body
  | atomic body => groupWidths known body
  | ifGroup _ yes no => groupWidths (groupWidths known yes) no
  | _ => known

def leastWidth (p : Pattern) : Nat :=
  (p.width (p.groupWidths [])).1

end Pattern

end ImportAtlas
