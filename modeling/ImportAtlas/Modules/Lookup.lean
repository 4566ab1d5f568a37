import ImportAtlas.Files.Resolve
import ImportAtlas.Modules.Declared

/-!
# Looking up modules

A module is looked for in one directory after another: as a package, as an extension, as source, as
compiled code. Some modules are built in and have no file. The modules and their endings are those of Python 2.7,
but a source is opened as Python 3 opens it: it is found only if the encoding that it declares is known.
-/

namespace ImportAtlas

inductive ModuleType where
  | source
  | compiled
  | extension
  | package
  | builtin
  deriving DecidableEq, Repr

def ModuleType.number : ModuleType → Nat
  | source => 1
  | compiled => 2
  | extension => 3
  | package => 5
  | builtin => 6

structure Loader where
  /-- The name under which it was asked for. -/
  name : String
  /-- Its file, or its directory if it is a package. -/
  file : Option String
  suffix : String
  type : ModuleType
  encoding : Text.Encoding := .utf8
  deriving DecidableEq, Repr

namespace Loader

/-- The endings of module files, in the order in which they are tried. -/
def suffixes : List (String × ModuleType) :=
  [(".so", .extension), ("module.so", .extension), (".py", .source), (".pyc", .compiled)]

end Loader

/-- The name of a module that lies in no package. -/
def isTopName (name : String) : Bool :=
  name ≠ "" && name.toList.all fun c => c ≠ '/' && c ≠ '.'

/-- What the interpreter that runs the look-ups brings along. -/
structure Installation where
  /-- The modules that have no file. -/
  builtins : List String
  /-- Where built-in modules are said to lie. -/
  libraryDir : String
  topNames : builtins.all isTopName = true

def Installation.standard : Installation where
  builtins :=
    ["__builtin__", "__main__", "errno", "exceptions", "gc", "imp", "marshal", "operator", "posix", "pwd",
      "signal", "sys", "syslog", "thread", "time", "zipimport"]
  libraryDir := "/usr/lib/python2.7"
  topNames := by decide

structure Finder where
  files : FileSystem
  /-- The entries of the search path. Some may be no paths. -/
  searchPath : List Value
  installation : Installation := .standard

namespace Finder

def inDir (fs : FileSystem) (dir name : String) : Option Loader :=
  let package := Path.join dir name
  if fs.isFile (Path.join package "__init__.py") || fs.isFile (Path.join package "__init__.pyc") then
    some { name, file := some package, suffix := "", type := .package }
  else
    Loader.suffixes.findSome? fun (suffix, type) =>
      let file := Path.join dir (name ++ suffix)
      if fs.isFile file then some { name, file := some file, suffix, type } else none

/-- A source is opened in the encoding that it declares. -/
def opened (fs : FileSystem) (m : Loader) : Except Fault Loader := do
  match m.type, m.file with
  | .source, some file => return { m with encoding := ← declaredEncoding (← fs.read file).text }
  | _, _ => return m

def inDirs (fs : FileSystem) (name : String) : List Value → Except Fault (Option Loader)
  | [] => .ok none
  | dir :: rest => do
    match inDir fs (← dir.onlyText) name with
    | some m => some <$> opened fs m
    | none => inDirs fs name rest

/-- The module in a directory or, without one, built in or on the search path. Of a dotted name only the
last part counts, and on the search path there is no module of a dotted name. -/
def find (finder : Finder) (dir : Option String) (name : String) : Except Fault (Option Loader) := do
  let last := ((Text.pieces name '.').getLast?).getD ""
  let found ← match dir with
    | some dir => inDirs finder.files last [.str (finder.files.realPath dir)]
    | none =>
      if last ≠ name then .ok none
      else if last ∈ finder.installation.builtins then
        .ok (some { name := last, file := none, suffix := "", type := .builtin })
      else inDirs finder.files last finder.searchPath
  return found.map fun m => { m with name }

def initial (finder : Finder) (m : Loader) : Except Fault Loader := do
  match ← finder.find m.file "__init__" with
  | some m => return m
  | none => .error .noOperation

/-- The file of a module: of a package, the one of its initial module. -/
def fileOf (finder : Finder) : Nat → Loader → Except Fault (Option String)
  | 0, _ => .error .tooDeep
  | fuel + 1, m =>
    match m.type with
    | .package => do finder.fileOf fuel (← finder.initial m)
    | .builtin => .ok none
    | _ => .ok m.file

/-- Packages lie in one another no deeper than there are entries. -/
def depth (finder : Finder) : Nat :=
  finder.files.root.size + 1

end Finder

end ImportAtlas
