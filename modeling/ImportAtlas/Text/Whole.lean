import ImportAtlas.Text.Basic
import ImportAtlas.Text.Blank
import ImportAtlas.Text.Digit

/-!
# Whole numbers

A whole number is written with the digits of any script and with single underscores between them, perhaps with
a sign before it and blanks around it.
-/

namespace ImportAtlas.Text

def digit? (c : Char) : Option Nat :=
  match decimal? c with
  | some n => some n
  | none => if c.isAlpha then some (c.toLower.toNat - 'a'.toNat + 10) else none

/-- Digits in a base, single underscores allowed between them. -/
def digits? (base : Nat) (cs : List Char) : Option Nat :=
  let groups := cs.splitOn '_'
  if groups.any List.isEmpty then none
  else
    groups.flatten.foldlM (fun n c =>
      match digit? c with
      | some d => if d < base then some (n * base + d) else none
      | none => none) 0

def baseMark : Nat → Option Char
  | 16 => some 'x'
  | 8 => some 'o'
  | 2 => some 'b'
  | _ => none

def unsigned? (base : Nat) : List Char → Option Nat
  | '0' :: c :: rest =>
    if baseMark base = some c.toLower then digits? base (if rest.head? = some '_' then rest.drop 1 else rest)
    else digits? base ('0' :: c :: rest)
  | cs => digits? base cs

/-- A number in a base, with blanks around it and a sign before it. -/
def signed? (base : Nat) (text : String) : Option Int :=
  match (trim text).toList with
  | '-' :: rest => (unsigned? base rest).map fun n => -(n : Int)
  | '+' :: rest => (unsigned? base rest).map fun n => (n : Int)
  | cs => (unsigned? base cs).map fun n => (n : Int)

end ImportAtlas.Text
