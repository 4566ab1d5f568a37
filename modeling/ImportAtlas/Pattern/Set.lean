import ImportAtlas.Text.Blank
import ImportAtlas.Text.Case
import ImportAtlas.Text.Digit
import ImportAtlas.Text.Word

/-!
# Sets of characters

What a pattern asks of a single character. A set lists characters, ranges and classes; it accepts what it lists
or, if it is inverted, what it does not. Characters are listed by their numbers.
-/

namespace ImportAtlas

inductive CharClass where
  | digit
  | blank
  | word
  deriving DecidableEq, Repr

/-- The character is in the class; with `ascii`, no other characters are. -/
def CharClass.holds (ascii : Bool) (c : Char) : CharClass → Bool
  | digit => (!ascii || c.toNat < 0x80) && Text.isDecimal c
  | blank => if ascii then c.toNat = 32 || (9 ≤ c.toNat && c.toNat ≤ 13) else Text.isBlank c
  | word => (!ascii || c.toNat < 0x80) && Text.isWord c

inductive SetItem where
  | char (code : Nat)
  | range (low high : Nat)
  | class (kind : CharClass) (inside : Bool)
  deriving DecidableEq, Repr

structure CharSet where
  items : List SetItem
  inverted : Bool
  ignoreCase : Bool
  ascii : Bool
  deriving DecidableEq, Repr

namespace CharSet

/-- The characters that count as the given one, which are more than itself if case is ignored. -/
def alike (s : CharSet) (code : Nat) : List Nat :=
  if !s.ignoreCase then [code]
  else if s.ascii then
    let small := Text.asciiSmall code
    if 97 ≤ small && small ≤ 122 then [small, small - 32] else [code]
  else Text.spellings code

/-- The last character of the first plane. Letters beyond it are listed with less care for their case. -/
def lastOfPlane : Nat := 0xffff

/-- One item of several lists the character. Beyond the first plane a character that is listed by itself has to be
the small letter, and a range that goes there lists the small letters of its capital ones in any mode. -/
def itemLists (s : CharSet) (c : Char) : SetItem → Bool
  | .char code =>
    if s.ignoreCase && !s.ascii && lastOfPlane < code then Text.small c.toNat = code
    else code ∈ s.alike c.toNat
  | .range low high =>
    let within (code : Nat) := low ≤ code && code ≤ high
    (s.alike c.toNat).any within || (s.ignoreCase && lastOfPlane < high && within (Text.capital c.toNat))
  | .class kind inside => kind.holds s.ascii c = inside

def lists (s : CharSet) (c : Char) : Bool :=
  match s.items with
  | [.char code] => code ∈ s.alike c.toNat
  | items => items.any (s.itemLists c)

def accepts (s : CharSet) (c : Char) : Bool :=
  s.lists c != s.inverted

end CharSet

end ImportAtlas
