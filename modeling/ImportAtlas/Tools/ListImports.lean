import ImportAtlas.Analysis.Dependencies
import ImportAtlas.Analysis.Listing
import ImportAtlas.Tools.Manual

/-!
# The program that lists imports
-/

namespace ImportAtlas.Tools

structure ListSettings where
  ignores : List String
  /-- All names once and in order, without the places. -/
  unified : Bool := false
  verbosity : Int := 0

def listFlags : List (Flag ListSettings) :=
  [{ names := ["-I", "--ignore"], effect := .text fun name s => { s with ignores := s.ignores ++ [name] } },
    { names := ["-u", "--unified"], effect := .set fun s => { s with unified := true } },
    { names := ["-v", "--verbose"], effect := .set fun s => { s with verbosity := s.verbosity + 1 } }]

def listManual : Manual where
  program := "sfood-imports"
  text := "Parse Python files and output a unified list of imported symbols.\n\n" ++
    "The imported modules/symbols are output even if they cannot be found.  (You\n" ++
    "could try to do this with grep, but this is more accurate because it uses the\n" ++
    "AST to obtain the list of imports.)"

/-- Prints the lines of a statement from a place on; a backslash at the end of a line continues it. -/
def printStatement (lines : List String) : Nat → Int → Run Unit
  | 0, _ => pure ()
  | count + 1, place => do
    let line := Text.trimRight (← atPlace lines place)
    Run.printLine ("   " ++ line)
    match line.toList.getLast? with
    | none => throw .outOfRange
    | some c => if c = '\\' then printStatement lines count (place + 1)

def printImport (path : String) (lines : Option (List String)) (i : Listed) : Run Unit := do
  Run.printLine (path ++ ":" ++ (← i.line.lineNumber) ++ ": " ++ i.name)
  match lines, i.line.integer? with
  | some lines, some n =>
    printStatement lines (lines.length - (n - 1)).toNat (n - 1)
    Run.printLine ""
  | some _, none => throw .wrongKind
  | none, _ => pure ()

def uniqueNames (ignores : List String) (found : List FileSystem.Found) (names : List String) :
    Run (List String) :=
  found.foldlM (fun names found => do
    match found with
    | .missing path =>
      Run.message .warning ("File '" ++ path ++ "' does not exist.")
      return names
    | .file path => return names ++ (← Run.listedImports path (.names ignores)).map (·.name)) names

def listImports (arguments : List String) : Run Unit := do
  let start : ListSettings := { ignores := (← get).ignores }
  let keep (settings : ListSettings) (s : Session) := { s with ignores := settings.ignores }
  let (settings, paths) ← Run.options listManual listFlags start keep arguments
  let _ ← Run.chooseLoudness settings.verbosity
  if paths.isEmpty then Run.message .warning "Searching for files from root directory."
  let paths := if paths.isEmpty then ["."] else paths
  let found := (← Run.files).pythonFiles settings.ignores paths
  if settings.unified then
    let names ← uniqueNames settings.ignores found []
    (Text.sort (Text.distinct names)).forM Run.printLine
  else
    Run.eachFile found fun path => do
      let lines ← if settings.verbosity ≠ 0 then some <$> Run.feedLines path else pure none
      Run.listImports path (.names settings.ignores) (printImport path lines)

end ImportAtlas.Tools
