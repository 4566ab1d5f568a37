import ImportAtlas.Text.Hidden

/-!
# Quoted text

A text between quotes: which quote is chosen, which characters are escaped, and how both are undone.
-/

namespace ImportAtlas.Text

/-- Single quotes, unless they stand in the text and double quotes do not. -/
def quoteFor (text : List Char) : Char :=
  if '\'' ∈ text ∧ '"' ∉ text then '"' else '\''

/-- The last `width` digits of a number in base sixteen. -/
def hexDigits : Nat → Nat → List Char
  | 0, _ => []
  | width + 1, n => hexDigits width (n / 16) ++ [Nat.digitChar (n % 16)]

/-- A character by its number, in two, four or eight digits. -/
def byNumber (c : Char) : List Char :=
  if c.toNat < 0x100 then '\\' :: 'x' :: hexDigits 2 c.toNat
  else if c.toNat < 0x10000 then '\\' :: 'u' :: hexDigits 4 c.toNat
  else '\\' :: 'U' :: hexDigits 8 c.toNat

def escapeChar (quote c : Char) : List Char :=
  if c = '\\' || c = quote then ['\\', c]
  else if c = '\n' then ['\\', 'n']
  else if c = '\r' then ['\\', 'r']
  else if c = '\t' then ['\\', 't']
  else if isHidden c then byNumber c
  else [c]

def escape (quote : Char) (text : List Char) : List Char :=
  text.flatMap (escapeChar quote)

def quoted (text : String) : String :=
  let q := quoteFor text.toList
  String.ofList (q :: escape q text.toList ++ [q])

/-- Bytes in quotes, those beyond ASCII by their numbers. -/
def quotedBytes (bytes : List UInt8) : String :=
  let chars := bytes.map fun b => Char.ofNat b.toNat
  let q := quoteFor chars
  let shown := chars.flatMap fun c => if c.toNat < 0x80 then escapeChar q c else byNumber c
  String.ofList ('b' :: q :: shown ++ [q])

/-! ## Undoing it -/

/-- What stands before the closing quote, and what after it. A backslash takes the next character
with it; there is no closing quote on the next line. -/
def bodyOf (quote : Char) : List Char → Option (List Char × List Char)
  | '\\' :: c :: rest => (bodyOf quote rest).map fun (body, after) => ('\\' :: c :: body, after)
  | c :: rest =>
    if c = quote then some ([], rest)
    else if c = '\n' then none
    else (bodyOf quote rest).map fun (body, after) => (c :: body, after)
  | [] => none

def namedEscape : Char → Option Char
  | '\\' => some '\\'
  | '\'' => some '\''
  | '"' => some '"'
  | 'n' => some '\n'
  | 'r' => some '\r'
  | 't' => some '\t'
  | 'a' => some '\x07'
  | 'b' => some '\x08'
  | 'f' => some '\x0c'
  | 'v' => some '\x0b'
  | _ => none

def digitValue (c : Char) : Option Nat :=
  if '0' ≤ c ∧ c ≤ '9' then some (c.toNat - '0'.toNat)
  else if 'a' ≤ c ∧ c ≤ 'f' then some (c.toNat - 'a'.toNat + 10)
  else if 'A' ≤ c ∧ c ≤ 'F' then some (c.toNat - 'A'.toNat + 10)
  else none

/-- The number written by `digits` in the given base, if all of them are digits of it. -/
def numeral (base : Nat) (digits : List Char) : Option Nat :=
  digits.foldlM (fun n c => (digitValue c).bind fun d => if d < base then some (n * base + d) else none) 0

def isOctal (c : Char) : Bool :=
  '0' ≤ c && c ≤ '7'

/-- The text that escapes stand for. A backslash before any other character stays. `none` if a
numbered escape lacks digits. -/
def unescape : List Char → Option (List Char)
  | [] => some []
  | '\\' :: c :: rest =>
    match namedEscape c with
    | some d => (unescape rest).map (d :: ·)
    | none =>
      if c = 'x' then
        match rest with
        | a :: b :: rest => do return Char.ofNat (← numeral 16 [a, b]) :: (← unescape rest)
        | _ => none
      else if c = 'u' then
        match rest with
        | a :: b :: d :: e :: rest => do return Char.ofNat (← numeral 16 [a, b, d, e]) :: (← unescape rest)
        | _ => none
      else if c = 'U' then
        match rest with
        | a :: b :: d :: e :: f :: g :: h :: i :: rest => do
          return Char.ofNat (← numeral 16 [a, b, d, e, f, g, h, i]) :: (← unescape rest)
        | _ => none
      else if isOctal c then
        match rest with
        | [] => do return [Char.ofNat (← numeral 8 [c])]
        | a :: rest =>
          if isOctal a then
            match rest with
            | [] => do return [Char.ofNat (← numeral 8 [c, a])]
            | b :: rest =>
              if isOctal b then do return Char.ofNat (← numeral 8 [c, a, b]) :: (← unescape rest)
              else do return Char.ofNat (← numeral 8 [c, a]) :: (← unescape (b :: rest))
          else do return Char.ofNat (← numeral 8 [c]) :: (← unescape (a :: rest))
      else (unescape rest).map fun text => '\\' :: c :: text
  | c :: rest => (unescape rest).map (c :: ·)

end ImportAtlas.Text
