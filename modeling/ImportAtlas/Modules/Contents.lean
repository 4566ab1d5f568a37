import ImportAtlas.Modules.Importer

/-!
# Modules in a place

The modules that lie directly in a directory or in an archive, by their names.
-/

namespace ImportAtlas

structure Content where
  name : String
  isPackage : Bool
  deriving DecidableEq, Repr

namespace Content

/-- The endings of module files, the longest first. -/
def endings : List String :=
  ["module.so", ".pyc", ".so", ".py"]

def moduleName? (file : String) : Option String :=
  (endings.find? fun e => Text.endsIn file e).map fun e => Text.dropLast file e.length

def isSimple (name : String) : Bool :=
  name ≠ "" && '.' ∉ name.toList

def hasInit (fs : FileSystem) (dir : String) : Except Fault Bool := do
  return (← fs.names dir).any fun name => moduleName? name = some "__init__"

/-- The module that an entry of a directory is. A directory without a name of its own kind is a package if it
has an initial module. -/
def ofEntry (fs : FileSystem) (dir entry : String) : Except Fault (Option Content) := do
  let path := Path.join dir entry
  let name := (moduleName? entry).getD ""
  if name = "__init__" then return none
  if name ≠ "" then return if isSimple name then some { name, isPackage := false } else none
  if fs.isDir path && '.' ∉ entry.toList then
    return if ← hasInit fs path then some { name := entry, isPackage := true } else none
  else return none

def inDirectory (fs : FileSystem) (dir : String) : Except Fault (List Content) := do
  if !fs.isDir dir then return []
  (← fs.names dir).foldlM (fun found entry => do
    let seen (name : String) := found.any (·.name = name)
    match moduleName? entry with
    | some name => if seen name then return found
    | none => pure ()
    return found ++ (← ofEntry fs dir entry).toList) []

/-- The module that a name in an archive stands for, `parts` being its parts from the place on. -/
def ofParts : List String → Option Content
  | [dir, file] => if Text.beginsWith file "__init__.py" then some { name := dir, isPackage := true } else none
  | [file] =>
    match moduleName? file with
    | some name => if name ≠ "__init__" && isSimple name then some { name, isPackage := false } else none
    | none => none
  | _ => none

def inArchive (names : List String) (inside : String) : List Content :=
  let below := (Text.sort (Text.distinct names)).filter fun name => Text.beginsWith name inside
  (below.filterMap fun name => ofParts (Path.segments (Text.dropFirst name inside.length))).foldl
    (fun found c => if found.any (·.name = c.name) then found else found ++ [c]) []

end Content

namespace Importer

/-- The modules that an importer offers, under a common start. In an archive the start is not put before
packages. -/
def contents (fs : FileSystem) (start : String) : Importer → Except Fault (List Content)
  | directory none => .ok []
  | directory (some dir) => do
    return (← Content.inDirectory fs dir).map fun c => { c with name := start ++ c.name }
  | archive site =>
    .ok ((Content.inArchive ((fs.archive? site.archive).getD []) site.inside).map fun c =>
      if c.isPackage then c else { c with name := start ++ c.name })

end Importer

end ImportAtlas
