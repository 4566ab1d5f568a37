import ImportAtlas.Analysis.Dependencies
import ImportAtlas.Analysis.Roots
import ImportAtlas.Depends.Basic
import ImportAtlas.Tools.Manual

/-!
# The program that finds dependencies

Every Python file below the given paths is a source, and the files that it imports are its targets. On request
the targets are followed as sources in their turn, or only those inside or outside the given paths are kept.
-/

namespace ImportAtlas.Tools

structure DepsSettings where
  /-- How often only inner dependencies were asked for: once for those in the roots of the given paths, twice
  for those among the processed files. -/
  internal : Nat := 0
  external : Bool := false
  ignores : List String
  verbose : Int := 0
  quiet : Int := 0
  follow : Bool := false
  printRoots : Bool := false
  pragmas : Bool := true
  ignoreUnused : Bool := false

def DepsSettings.searchOptions (settings : DepsSettings) : SearchOptions where
  verbosity := settings.verbose
  pragmas := settings.pragmas
  ignoreUnused := settings.ignoreUnused

def depsFlags : List (Flag DepsSettings) :=
  [{ names := ["-i", "--internal", "--internal-only"]
     effect := .set fun s => { s with internal := s.internal + 1 } },
    { names := ["-e", "--external", "--external-only"], effect := .set fun s => { s with external := true } },
    { names := ["-I", "--ignore"], effect := .text fun name s => { s with ignores := s.ignores ++ [name] } },
    { names := ["-v", "--verbose"], effect := .set fun s => { s with verbose := s.verbose + 1 } },
    { names := ["-q", "--quiet"], effect := .set fun s => { s with quiet := s.quiet + 1 } },
    { names := ["-f", "--follow", "-r", "--recursive"], effect := .set fun s => { s with follow := true } },
    { names := ["--print-roots"], effect := .set fun s => { s with printRoots := true } },
    { names := ["-d", "--disable-pragmas"], effect := .set fun s => { s with pragmas := false } },
    { names := ["-u", "--ignore-unused"], effect := .set fun s => { s with ignoreUnused := true } }]

def depsManual : Manual where
  program := "sfood"
  text := "Detect import statements using the AST parser.\n\n" ++
    "This script outputs a comma-separated list of tuples:\n\n  " ++
    "((from_root, from_filename), (to_root, to_filename))\n\n" ++
    "The roots are the root directories where the modules lie.  You can use\n" ++
    "sfood-graph or some other tool to filter, cluster and generate a meaningful\n" ++
    "graph from this list of dependencies.\n\n" ++
    "As a special case, if the 'to' tuple is (None, None), this means to at least\n" ++
    "include the 'from' tuple as a node.  This may happen if the file has no\n" ++
    "dependencies on anything."

structure Found where
  table : Depends.Table := []
  problems : List Problem := []
  processed : List String := []
  /-- Targets found in the current round. -/
  fresh : List String := []

/-- A package is named by its directory. -/
def withoutInit (path : String) : String :=
  if Path.base path = "__init__.py" then Path.parent path else path

def referenceTo (ignores : List String) (path : String) : Run (String × Value) := do
  let (root, name) ← (← Run.files).relativeTo (.names ignores) path
  return (root, .tuple [.str root, .str name])

def addTarget (settings : DepsSettings) (roots : List String) (source : Value) (found : Found)
    (path : String) : Run Found := do
  let (root, target) ← referenceTo settings.ignores (withoutInit path)
  let inside := decide (root ∈ roots)
  if (0 < settings.internal && !inside) || (settings.external && inside) then return found
  return { found with table := Depends.add found.table source target, fresh := found.fresh ++ [path] }

/-- What a file needs. A file that is no Python source needs nothing. -/
def needsOf (settings : DepsSettings) (path : String) : Run Needs := do
  if (← Run.files).isPython path then Run.dependenciesOf settings.searchOptions path else return {}

def addNeeds (settings : DepsSettings) (roots : List String) (found : Found) (path : String) (needs : Needs) :
    Run Found := do
  let found := { found with
    processed := found.processed ++ [path], problems := found.problems ++ needs.problems }
  let (root, source) ← referenceTo settings.ignores (withoutInit path)
  if 0 < settings.internal && root ∉ roots then return found
  let found := if settings.external then found
    else { found with table := Depends.add found.table source Depends.nothing }
  needs.files.foldlM (addTarget settings roots source) found

def addSource (settings : DepsSettings) (roots : List String) (found : Found) (path : String) : Run Found := do
  if path ∈ found.processed then return found
  Run.message .info ("  " ++ path)
  addNeeds settings roots found path (← needsOf settings path)

def addFound (settings : DepsSettings) (roots : List String) (found : Found) :
    FileSystem.Found → Run Found
  | .file path => addSource settings roots found path
  | .missing path => do
    Run.reportMissing path
    return found

/-- Further rounds, as long as they bring targets. Each round but the last two processes a new file. -/
def followTargets (settings : DepsSettings) (roots : List String) : Nat → Found → Run Found
  | 0, _ => throw .endless
  | fuel + 1, found => do
    if !settings.follow || found.fresh.isEmpty then return found
    let next := Text.sort (Text.distinct found.fresh)
    let found ← next.foldlM (addSource settings roots) { found with fresh := [] }
    followTargets settings roots fuel found

def amongSources (table : Depends.Table) : Depends.Table :=
  table.map fun (source, targets) =>
    (source, targets.filter fun t => t.same Depends.nothing || t.among (table.map (·.1)))

def reportNames (level : Level) (title : String) (kind : ProblemKind) (problems : List Problem) : Run Unit := do
  let names ← ((problems.filter (·.kind = kind)).map (·.name)).mapM fun v => v.asKey
  if !names.isEmpty then
    Run.message level ""
    Run.message level title
    (Value.sort (Depends.distinct names)).forM fun name => do Run.message level ("  " ++ (← name.fillGap))

def rootsIn (table : Depends.Table) : List String :=
  let references := table.flatMap fun (source, targets) => source :: targets
  Text.sort (Text.distinct (references.filterMap fun
    | .tuple [.str root, _] => some root
    | _ => none))

def info (text : String) : Run Unit :=
  Run.message .info text

def checkPaths (paths : List String) : Run Unit := do
  info ""
  info "Input paths:"
  paths.forM fun path => do
    let fs ← Run.files
    let path := fs.realPath path
    info ("  " ++ path)
    if !fs.exists? path then Run.misused depsManual ("Filename '" ++ path ++ "' does not exist.")

/-- The roots of the paths, which are put before the search path. -/
def prepareRoots (settings : DepsSettings) (paths : List String) : Run (List String) := do
  let roots ← Run.rootsOf (.names settings.ignores) paths
  if (0 < settings.internal || settings.external) && roots.isEmpty then
    Run.misused depsManual ("No package roots found from the given files or directories. " ++
      "Using --internal with these roots will generate no dependencies.")
  info ""
  info "Roots of the input files:"
  roots.forM fun root => info ("  " ++ root)
  info ""
  info "Using the following import path to search for modules:"
  modify fun s => { s with searchPath := roots.map .str ++ s.searchPath }
  (← get).searchPath.forM fun dir => do info ("  " ++ (← dir.fillGap))
  return roots

/-- The search itself. Follow rounds are bounded by the number of files that there are, that stand for built-in
modules, or that are remembered. -/
def findAll (settings : DepsSettings) (roots paths : List String) : Run Found := do
  info ""
  info "Processing files:"
  info ""
  let s ← get
  let rounds := s.files.root.size + s.installation.builtinNames.length + s.cache.length + 2
  let found ← (s.files.pythonFiles settings.ignores paths).foldlM (addFound settings roots) {}
  let found ← followTargets settings roots rounds found
  return if 2 ≤ settings.internal then { found with table := amongSources found.table } else found

def summarize (settings : DepsSettings) (found : Found) : Run Unit := do
  info ""
  info "SUMMARY"
  info "======="
  reportNames .info "Modules that were ignored because not used:" .unused found.problems
  reportNames .warning "Modules that could not be imported:" .notFound found.problems
  if 2 ≤ settings.verbose then
    reportNames .debug "Symbols that could not be imported as modules:" .notModule found.problems
  info ""
  info "Found roots:"
  (rootsIn found.table).forM fun root => info ("  " ++ root)
  info ""

def search (settings : DepsSettings) (paths : List String) : Run Found := do
  checkPaths paths
  let roots ← prepareRoots settings paths
  let found ← findAll settings roots paths
  summarize settings found
  return found

def deps (arguments : List String) : Run Unit := do
  let start : DepsSettings := { ignores := (← get).ignores }
  let keep (settings : DepsSettings) (s : Session) := { s with ignores := settings.ignores }
  let (settings, paths) ← Run.options depsManual depsFlags start keep arguments
  let settings := { settings with verbose := settings.verbose - settings.quiet }
  let _ ← Run.chooseLoudness settings.verbose
  if paths.isEmpty then Run.message .warning "Searching for files from current directory."
  let paths := if paths.isEmpty then ["."] else paths
  if 0 < settings.internal && settings.external then
    Run.misused depsManual "Using --internal and --external at the same time does not make sense."
  if settings.printRoots then
    (← Run.rootsOf (.names settings.ignores) paths).forM Run.printLine
  else
    let found ← search settings paths
    Run.print (← Depends.written found.table)

end ImportAtlas.Tools
