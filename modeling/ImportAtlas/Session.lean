import ImportAtlas.Console
import ImportAtlas.Depends.Drawing
import ImportAtlas.Files.Update
import ImportAtlas.Modules.Dotted
import ImportAtlas.Modules.Importer
import ImportAtlas.Printout

/-!
# Sessions

What one computation leaves behind for the next: files, the search path, what has been looked up and
loaded, and settings that outlive a program.
-/

namespace ImportAtlas

def defaultIgnores : List String :=
  [".svn", "CVS", "build", ".hg", ".git"]

structure Session where
  files : FileSystem
  searchPath : List Value := []
  installation : Installation := .standard
  /-- The directory names that are passed over. Programs may add to them. -/
  ignores : List String := defaultIgnores
  cache : ModuleCache := []
  /-- The paths for which an importer has been asked, with the archives they lie in. -/
  importers : List (String × Option ArchiveSite) := []
  /-- The modules that have been loaded, with the directories of those that are packages. -/
  loaded : List (String × Option (List String)) := []
  drawing : Option Drawing.Options := none
  console : Console := {}

/-- A computation in a session. What it did before a fault stays done. -/
abbrev Run := EStateM Fault Session

namespace Run

def print (text : String) : Run Unit :=
  modify fun s => { s with console := s.console.print text }

def printLine (text : String) : Run Unit :=
  print (text ++ "\n")

def printOut (p : Printout) : Run Unit := do
  print p.text
  match p.fault with
  | some fault => throw fault
  | none => pure ()

def printError (text : String) : Run Unit :=
  modify fun s => { s with console := s.console.printError text }

def takeInput : Run String := do
  let s ← get
  set { s with console := { s.console with input := "" } }
  return s.console.input

/-- The text of a file as it is; a dash stands for the standard input. -/
def rawText (path : String) : Run String := do
  if path = "-" then takeInput else return (← (← get).files.read path).text

def message (level : Level) (text : String) : Run Unit :=
  modify fun s => { s with console := s.console.message level text }

def chooseLoudness (verbosity : Int) : Run Level := do
  match Level.ofVerbosity verbosity with
  | some level =>
    modify fun s => { s with console := { s.console with style := .columns level } }
    return level
  | none => throw (.exit (.message "Invalid verbose level."))

def files : Run FileSystem := do
  return (← get).files

def change {α : Type} (c : Change α) : Run α := do
  let s ← get
  match c s.files with
  | .ok a files =>
    set { s with files }
    return a
  | .error fault files =>
    set { s with files }
    throw fault

def finder : Run Finder := do
  let s ← get
  return { files := s.files, searchPath := s.searchPath, installation := s.installation }

def lookUp {α : Type} (c : EStateM Fault ModuleCache α) : Run α := do
  let s ← get
  match c s.cache with
  | .ok a cache =>
    set { s with cache }
    return a
  | .error fault cache =>
    set { s with cache }
    throw fault

end Run

/-- A computation in a session that hands out results one by one. -/
abbrev Listing (α : Type) := EStateM Fault (List α × Session)

namespace Listing

variable {α : Type}

def emit (a : α) : Listing α Unit :=
  modify fun (items, s) => (items ++ [a], s)

instance : MonadLift Run (Listing α) where
  monadLift r := fun (items, s) =>
    match r s with
    | .ok b s => .ok b (items, s)
    | .error fault s => .error fault (items, s)

def all (l : Listing α Unit) : Run (List α × Option Fault) := fun s =>
  match l ([], s) with
  | .ok _ (items, s) => .ok (items, none) s
  | .error fault (items, s) => .ok (items, some fault) s

end Listing

end ImportAtlas
