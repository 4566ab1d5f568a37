import ImportAtlas.Fault
import ImportAtlas.Text.Basic
import ImportAtlas.Text.CharTable
import ImportAtlas.Text.Quoted

/-!
# Encodings

An encoding says which characters the bytes of a file stand for. Files are kept as the texts that their bytes
are in UTF-8, so to read one in another encoding is to take its bytes in UTF-8 for something else.
-/

namespace ImportAtlas.Text

inductive Encoding where
  | utf8
  /-- UTF-8 with a mark at the start that is no part of the text. -/
  | utf8Marked
  | ascii
  | table (t : CharTable)
  /-- Bytes that stand for the characters of their own numbers, with escapes as between quotes. -/
  | escaped
  /-- Units of two bytes, the greater one first or last. Without an order a mark has to say which. -/
  | pairs (greaterFirst : Option Bool)
  /-- Units of four bytes, which bytes of ASCII never are. -/
  | fours
  | unreadable
  /-- A conversion that is not from bytes to texts. -/
  | notText
  deriving DecidableEq, Repr

namespace Encoding

def mark : Char := '\ufeff'

def unmarked (text : String) : String :=
  match text.toList with
  | c :: rest => if c = mark then String.ofList rest else text
  | [] => text

def unitsOf (greaterFirst : Bool) : List UInt8 → Option (List Nat)
  | [] => some []
  | [_] => none
  | a :: b :: rest =>
    let unit := if greaterFirst then a.toNat * 256 + b.toNat else b.toNat * 256 + a.toNat
    (unitsOf greaterFirst rest).map (unit :: ·)

/-- The characters of units; some characters take two units. -/
def ofUnits : List Nat → Option (List Char)
  | [] => some []
  | a :: rest =>
    if a < 0xd800 || 0xe000 ≤ a then (ofUnits rest).map (Char.ofNat a :: ·)
    else
      match rest with
      | b :: rest =>
        if a < 0xdc00 && 0xdc00 ≤ b && b < 0xe000 then
          (ofUnits rest).map (Char.ofNat (0x10000 + (a - 0xd800) * 0x400 + (b - 0xdc00)) :: ·)
        else none
      | [] => none

def ofPairs (greaterFirst : Bool) (bytes : List UInt8) : Option String := do
  return String.ofList (← ofUnits (← unitsOf greaterFirst bytes))

/-- The text that a file has in an encoding. The mark that pairs without an order need is never there. -/
def decode (text : String) (encoding : Encoding) : Except Fault String :=
  let bytes := text.toUTF8.toList
  let found := match encoding with
    | utf8 => some text
    | utf8Marked => some (unmarked text)
    | ascii => if text.toList.all (·.toNat < 0x80) then some text else none
    | table t => t.decode bytes
    | escaped => do return String.ofList (← unescape (← CharTable.latin.decode bytes).toList)
    | pairs order => ofPairs (order.getD false) bytes
    | _ => none
  match found, encoding with
  | some _, pairs none => .error .unreadable
  | some text, _ => .ok text
  | none, unreadable => .error .unreadable
  | none, _ => .error .undecodable

/-! ## Names -/

def asciiNames : List String :=
  ["ascii", "646", "ansi_x3.4_1968", "ansi_x3.4_1986", "ansi_x3_4_1968", "cp367", "csascii", "ibm367", "iso646_us",
    "iso_646.irv_1991", "iso_ir_6", "us", "us_ascii", "utf_7", "u7", "unicode_1_1_utf_7", "utf7"]

def utf8Names : List String :=
  ["utf_8", "cp65001", "u8", "utf", "utf8", "utf8_ucs2", "utf8_ucs4"]

def conversionNames : List String :=
  ["bz2_codec", "bz2", "hex_codec", "hex", "rot_13", "rot13", "uu_codec", "uu", "zlib_codec", "zip", "zlib"]

def known : List (List String × Encoding) :=
  [(utf8Names, utf8), (["utf_8_sig"], utf8Marked), (asciiNames, ascii), (CharTable.latin.names, table .latin),
    (["unicode_escape"], escaped), (["raw_unicode_escape"], table .latin),
    (["utf_16", "u16", "utf16"], pairs none),
    (["utf_16_be", "unicodebigunmarked", "utf_16be"], pairs (some true)),
    (["utf_16_le", "unicodelittleunmarked", "utf_16le"], pairs (some false))] ++
    CharTable.all.map (fun t => (t.names, table t)) ++
    [(["utf_32", "u32", "utf32", "utf_32_be", "utf_32be", "utf_32_le", "utf_32le"], fours),
      (["punycode"], unreadable), (["undefined"], unreadable), (conversionNames, notText)]

/-- Words of letters, digits and dots, joined by single underscores, in small letters. -/
def plainName (name : String) : String :=
  let words := (name.toLower.toList.map fun c => if c.isAlphanum || c = '.' then c else '_').splitOn '_'
  "_".intercalate ((words.filter (!·.isEmpty)).map String.ofList)

/-- The encoding of a name. In all names but the first one dots may stand for underscores. -/
def named? (name : String) : Option Encoding :=
  let name := plainName name
  (known.find? fun (names, _) => name ∈ names || swap name '.' '_' ∈ names.tail).map (·.2)

end Encoding

end ImportAtlas.Text
