import ImportAtlas.Analysis.Source
import ImportAtlas.Imports.Collect
import ImportAtlas.Imports.Unused
import ImportAtlas.Text.Blank

/-!
# The files that a file depends on

Every import of a source file is looked up once. What cannot be found is reported, with the line of the
source where the reader wants to see it.
-/

namespace ImportAtlas

structure SearchOptions where
  verbosity : Int
  /-- Imports with the remark `OPTIONAL` are passed over. -/
  pragmas : Bool
  /-- Imports whose names are not used are passed over. -/
  ignoreUnused : Bool

structure Needs where
  files : List String := []
  problems : List Problem := []

/-- The element at a place; places below zero count from the end. -/
def atPlace {α : Type} (items : List α) (place : Int) : Except Fault α :=
  let place := if place < 0 then place + items.length else place
  if place < 0 then .error .outOfRange
  else
    match items[place.toNat]? with
    | some item => .ok item
    | none => .error .outOfRange

namespace Run

/-- Imports that stay in view, and problems for those that do not. -/
def consideredImports (options : SearchOptions) (t : Tree) : Except Fault (List Value × List Problem) := do
  let records := (← t.imports).map ImportRecord.toValue
  if options.ignoreUnused then
    let usage ← Usage.split t records
    let problems ← usage.unused.mapM fun v => do
      return { kind := .unused, name := (← ImportRecord.ofValue v).binding }
    return (usage.used, problems)
  else return (records, [])

def reportOptional (r : ImportRecord) : Run Unit := do
  if r.symbol.isNone then
    let line ← r.line.lineNumber
    message .warning ("    Line " ++ line ++ ": Pragma suppressing import '" ++ r.module.display ++ "'")
  else message .warning (r.module.display ++ "." ++ r.symbol.display)

/-- Says what is wrong with an import, and shows its line if the lines are given. -/
def reportProblem (lines : Option (List String)) (line : Value) (p : Problem) : Run Unit := do
  let level : Level := if p.kind = .notFound then .warning else .debug
  message level (p.kind.message (← line.lineNumber) p.name.display)
  match lines, line.integer? with
  | some lines, some n => message level ("       " ++ Text.trimRight (← atPlace lines (n - 1)))
  | some _, none => throw .wrongKind
  | none, _ => pure ()

/-- One more import; `seen` holds what has been looked up. -/
def needsOf (options : SearchOptions) (dir : String) (lines : Option (List String))
    (state : Needs × List Value) (record : Value) : Run (Needs × List Value) := do
  let (needs, seen) := state
  let r ← ImportRecord.ofValue record
  if options.pragmas && r.pragma.same (.str "OPTIONAL") then
    reportOptional r
    return state
  let sign ← (Value.tuple [r.module, r.symbol]).asKey
  if sign.among seen then return state
  let seen := seen ++ [sign]
  let (file, problems) ← lookUp ((← finder).importedFile r.module r.symbol (some dir) r.level)
  let problems := problems.getD []
  problems.forM (reportProblem lines r.line)
  let needs := { needs with problems := needs.problems ++ problems }
  match file with
  | none => return (needs, seen)
  | some file => return ({ needs with files := needs.files ++ [(← files).realPath file] }, seen)

def dependenciesOf (options : SearchOptions) (path : String) : Run Needs := do
  let source ← readSource path
  match source.tree with
  | none => return {}
  | some t =>
    let (imports, problems) ← consideredImports options t
    let lines := if options.verbosity ≥ 2 then source.lines else none
    let (needs, _) ← imports.foldlM (needsOf options (Path.parent path) lines) ({ problems }, [])
    return needs

end Run

end ImportAtlas
