import ImportAtlas.Fault
import ImportAtlas.Path
import ImportAtlas.Tree.Basic

/-!
# File trees

A file system is a tree of directories, files, links and archives, together with the directory from
which relative paths are taken. Directories keep their entries in the order of their names.
-/

namespace ImportAtlas

inductive Parse where
  | tree (t : Tree)
  | refused (cause : Refusal) (message : String)

structure Source where
  text : String
  parse : Parse

/-- A text whose program is empty. -/
def Source.plain (text : String) : Source :=
  { text, parse := .tree .empty }

inductive Entry where
  | file (source : Source)
  /-- A file that holds other files, known by their names. -/
  | archive (names : List String)
  | link (target : String)
  | dir (items : List (String × Entry))

namespace Entry

def emptyDir : Entry :=
  dir []

def child? : Entry → String → Option Entry
  | dir items, name => items.lookup name
  | _, _ => none

/-- The entry that is reached through directories alone. -/
def get? : Entry → List String → Option Entry
  | e, [] => some e
  | e, name :: rest =>
    match e.child? name with
    | some e => e.get? rest
    | none => none

def putItem (name : String) (e : Entry) : List (String × Entry) → List (String × Entry)
  | [] => [(name, e)]
  | (n, old) :: rest =>
    if name = n then (n, e) :: rest
    else if name < n then (name, e) :: (n, old) :: rest
    else (n, old) :: putItem name e rest

/-- The entry put at a place. Directories on the way are made as needed. -/
def put (new : Entry) : List String → Entry → Entry
  | [], _ => new
  | name :: rest, dir items =>
    dir (putItem name (put new rest ((items.lookup name).getD emptyDir)) items)
  | name :: rest, _ => dir [(name, put new rest emptyDir)]

def remove : List String → Entry → Entry
  | [name], dir items => dir (items.filter fun item => item.1 ≠ name)
  | name :: rest, dir items =>
    match items.lookup name with
    | some e => dir (putItem name (remove rest e) items)
    | none => dir items
  | _, e => e

mutual

def links : Entry → Nat
  | link _ => 1
  | dir items => linksIn items
  | _ => 0

def linksIn : List (String × Entry) → Nat
  | [] => 0
  | (_, e) :: rest => links e + linksIn rest

end

mutual

def size : Entry → Nat
  | dir items => sizeIn items + 1
  | _ => 1

def sizeIn : List (String × Entry) → Nat
  | [] => 0
  | (_, e) :: rest => size e + sizeIn rest

end

end Entry

structure FileSystem where
  root : Entry
  cwd : String

end ImportAtlas
