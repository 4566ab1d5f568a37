import ImportAtlas.Fault
import ImportAtlas.Text.Encoding

/-!
# Declared encodings

A source says in which encoding it is written in a remark on its first line, or on the second one if the first
is blank or a remark. A mark at its start says that it is UTF-8, and the remark may not say otherwise.
-/

namespace ImportAtlas

open Text (Encoding)

namespace Declared

def isBlank (c : Char) : Bool :=
  c = ' ' || c = '\t'

def isIndent (c : Char) : Bool :=
  isBlank c || c = '\x0c'

def isNameChar (c : Char) : Bool :=
  c.isAlphanum || c = '_' || c = '-' || c = '.'

def nameAt? (chars : List Char) : Option String :=
  if "coding".toList.isPrefixOf chars then
    match chars.drop 6 with
    | c :: rest =>
      let name := (rest.dropWhile isBlank).takeWhile isNameChar
      if (c = ':' || c = '=') && !name.isEmpty then some (String.ofList name) else none
    | [] => none
  else none

def nameIn? : List Char → Option String
  | [] => none
  | c :: rest =>
    match nameAt? (c :: rest) with
    | some name => some name
    | none => nameIn? rest

def name? (line : List Char) : Option String :=
  match line.dropWhile isIndent with
  | '#' :: rest => nameIn? rest
  | _ => none

def isIdle (line : List Char) : Bool :=
  match line.dropWhile isIndent with
  | [] => true
  | c :: _ => c = '#' || c = '\r'

/-- The common spellings of two names count as one, whatever follows them. -/
def usual (name : String) : String :=
  let start := Text.swap (String.ofList (name.toLower.toList.take 12)) '_' '-'
  let spells (usual : String) := start = usual || Text.beginsWith start (usual ++ "-")
  if spells "utf-8" then "utf-8"
  else if ["latin-1", "iso-8859-1", "iso-latin-1"].any spells then "iso-8859-1"
  else name

def resolve (marked : Bool) (name : String) : Except Fault Encoding :=
  let name := usual name
  match Encoding.named? name with
  | none => .error .malformedSource
  | some encoding =>
    if marked then if name = "utf-8" then .ok .utf8Marked else .error .malformedSource
    else if encoding = .notText then .error .noTextEncoding
    else .ok encoding

end Declared

open Declared in
def declaredEncoding (text : String) : Except Fault Encoding :=
  let marked := text.toList.head? = some Encoding.mark
  let chars := (Encoding.unmarked text).toList
  let first := chars.takeWhile (· ≠ '\n')
  let second := ((chars.dropWhile (· ≠ '\n')).drop 1).takeWhile (· ≠ '\n')
  match name? first, isIdle first, name? second with
  | some name, _, _ => resolve marked name
  | none, true, some name => resolve marked name
  | _, _, _ => .ok (if marked then .utf8Marked else .utf8)

end ImportAtlas
