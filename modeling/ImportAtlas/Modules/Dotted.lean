import ImportAtlas.Modules.Lookup

/-!
# Dotted names

A dotted name is looked up part by part, each part in the directory of the file of the one before. What is
imported is looked up in the directory of the importing file first, and then on the search path; what the
search path gave for a name is remembered.
-/

namespace ImportAtlas

inductive ProblemKind where
  | notFound
  | notModule
  | unused
  deriving DecidableEq, Repr

/-- The sentence about a problem, with gaps for a line number and a name. -/
def ProblemKind.sentence : ProblemKind → String
  | notFound => "    Line %d: Could not import module '%s'"
  | notModule => "    Line %d: Symbol is not a module: '%s'"
  | unused => "    Line %d: Ignored unused import: '%s'"

structure Problem where
  kind : ProblemKind
  name : Value

def ProblemKind.message : ProblemKind → String → String → String
  | notFound, line, name => "    Line " ++ line ++ ": Could not import module '" ++ name ++ "'"
  | notModule, line, name => "    Line " ++ line ++ ": Symbol is not a module: '" ++ name ++ "'"
  | unused, line, name => "    Line " ++ line ++ ": Ignored unused import: '" ++ name ++ "'"

/-- What the search path gave for names that were looked up there. -/
abbrev ModuleCache := List (String × Option String)

/-- The names that are taken for built-in modules before any look-up. -/
def Installation.builtinNames (installation : Installation) : List String :=
  installation.builtins ++ ["os.path"]

namespace Finder

/-- Looks up one name after another; `file` is the file of the last one. -/
def dottedFrom (finder : Finder) (file dir : Option String) : List Value → Except Fault (Option String)
  | [] => .ok file
  | name :: rest => do
    match ← finder.find dir (← name.text) with
    | none => return none
    | some m =>
      match ← finder.fileOf finder.depth m with
      | none => return none
      | some file => finder.dottedFrom (some file) (some (Path.parent file)) rest

/-- The file of a dotted name, from a directory or, without one, from the search path. -/
def dotted (finder : Finder) (names : List Value) (dir : Option String) : Except Fault (Option String) :=
  finder.dottedFrom none dir names

def startDir (dir : Option String) (level : Value) : Except Fault (Option String) := do
  match level.integer? with
  | none => .error .wrongKind
  | some level =>
    if level ≤ 1 then return dir
    match dir with
    | none => .error .wrongKind
    | some dir => return some (Nat.repeat Path.parent (level - 1).toNat dir)

def partsOf (name : String) : List Value :=
  (Text.pieces name '.').map Value.str

/-- What the search path gives for a module, from memory if it was asked before. -/
def remembered (finder : Finder) (module : String) : EStateM Fault ModuleCache (Option String) := do
  match (← get).lookup module with
  | some file => return file
  | none =>
    let file ← finder.dotted (partsOf module) none
    modify fun cache => cache ++ [(module, file)]
    return file

/-- The file of a module itself: found from where its import starts, else what the search path gives. -/
def ownFile (finder : Finder) (module : String) (dir : Option String) (level : Value) :
    EStateM Fault ModuleCache (Option String) := do
  match ← finder.dotted (partsOf module) (← startDir dir level) with
  | some file => return some file
  | none => finder.remembered module

/-- What an import means whose module has the given file. A symbol that is a module of the imported package is
meant itself. -/
def meant (finder : Finder) (module : String) (symbol : Value) :
    Option String → Except Fault (Option String × Option (List Problem))
  | none => .ok (none, some [{ kind := .notFound, name := .str module }])
  | some file => do
    if !symbol.truthy then return (some file, some [])
    match ← finder.dotted [symbol] (some (Path.parent file)) with
    | some file => return (some file, some [])
    | none =>
      let symbol ← symbol.onlyText
      return (some file, some [{ kind := .notModule, name := .str (module ++ "." ++ symbol) }])

/-- The file that an import means, with what is wrong with it. Built-in modules are taken before all others, and
nothing is wrong with them. -/
def importedFile (finder : Finder) (module symbol : Value) (dir : Option String) (level : Value) :
    EStateM Fault ModuleCache (Option String × Option (List Problem)) := do
  let name ← module.text
  if name ∈ finder.installation.builtinNames then
    return (some (Path.join finder.installation.libraryDir name), none)
  finder.meant name symbol (← finder.ownFile name dir level)

end Finder

end ImportAtlas
