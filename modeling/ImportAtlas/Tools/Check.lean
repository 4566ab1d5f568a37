import ImportAtlas.Analysis.Dependencies
import ImportAtlas.Imports.Duplicates
import ImportAtlas.Pattern.Matcher
import ImportAtlas.Pattern.Reader
import ImportAtlas.Tools.Manual
import ImportAtlas.Tree.Assigned
import ImportAtlas.Tree.Printer

/-!
# The program that checks imports

Imports that are not used are reported, on request also those that are repeated and names that look as if
their import were missing.
-/

namespace ImportAtlas.Tools

structure CheckSettings where
  debug : Bool := false
  ignores : List String
  pragmas : Bool := true
  repeats : Bool := false
  missing : Bool := false

def checkFlags : List (Flag CheckSettings) :=
  [{ names := ["--debug"], effect := .set fun s => { s with debug := true } },
    { names := ["-I", "--ignore"], effect := .text fun name s => { s with ignores := s.ignores ++ [name] } },
    { names := ["-d", "--disable-pragmas"], effect := .set fun s => { s with pragmas := false } },
    { names := ["-D", "--duplicates", "--enable-duplicates"]
      effect := .set fun s => { s with repeats := true } },
    { names := ["-M", "--missing", "--enable-missing"], effect := .set fun s => { s with missing := true } }]

def checkManual : Manual where
  program := "sfood-checker"
  text := "Check for superfluous import statements in Python source code.\n\n" ++
    "This script is used to detect forgotten imports that are not used anymore. When\n" ++
    "writing Python code (which happens so fast), it is often the case that we forget\n" ++
    "to remove useless imports.\n\n" ++
    "This is implemented using a search in the AST, and as such we do not require to\n" ++
    "import the module in order to run the checks. This is a major advantage over all\n" ++
    "the other lint/checker programs, and the main reason for taking the time to\n" ++
    "write it."

/-- The names that every Python 2 program knows without an import. -/
def knownNames : List String := [
  "ArithmeticError", "AssertionError", "AttributeError", "BaseException", "BufferError", "BytesWarning",
  "DeprecationWarning", "EOFError", "Ellipsis", "EnvironmentError", "Exception", "False", "FloatingPointError",
  "FutureWarning", "GeneratorExit", "IOError", "ImportError", "ImportWarning", "IndentationError", "IndexError",
  "KeyError", "KeyboardInterrupt", "LookupError", "MemoryError", "NameError", "None", "NotImplemented",
  "NotImplementedError", "OSError", "OverflowError", "PendingDeprecationWarning", "ReferenceError", "RuntimeError",
  "RuntimeWarning", "StandardError", "StopIteration", "SyntaxError", "SyntaxWarning", "SystemError", "SystemExit",
  "TabError", "True", "TypeError", "UnboundLocalError", "UnicodeDecodeError", "UnicodeEncodeError", "UnicodeError",
  "UnicodeTranslateError", "UnicodeWarning", "UserWarning", "ValueError", "Warning", "ZeroDivisionError",
  "__debug__", "__doc__", "__import__", "__name__", "__package__", "abs", "all", "any", "apply", "basestring",
  "bin", "bool", "buffer", "bytearray", "bytes", "callable", "chr", "classmethod", "cmp", "coerce", "compile",
  "complex", "copyright", "credits", "delattr", "dict", "dir", "divmod", "enumerate", "eval", "execfile", "exit",
  "file", "filter", "float", "format", "frozenset", "getattr", "globals", "hasattr", "hash", "help", "hex", "id",
  "input", "int", "intern", "isinstance", "issubclass", "iter", "len", "license", "list", "locals", "long", "map",
  "max", "memoryview", "min", "next", "object", "oct", "open", "ord", "pow", "print", "property", "quit", "range",
  "raw_input", "reduce", "reload", "repr", "reversed", "round", "set", "setattr", "slice", "sorted",
  "staticmethod", "str", "sum", "super", "tuple", "type", "unichr", "unicode", "vars", "xrange", "zip"]

def checkRepeats (path : String) (records : List Value) : Run (List Value) := do
  let split ← Repeats.split records
  split.repeated.forM fun v => do
    let r ← ImportRecord.ofValue v
    Run.printError (path ++ ":" ++ (← r.line.lineNumber) ++ ":  Duplicate import '" ++ r.binding.display ++ "'\n")
  return split.unique

/-- The column of a name in its line, zero if it is not found. The name is taken as a pattern. -/
def columnOf (lines : List String) (r : ImportRecord) : Except Fault Nat := do
  let name ← r.binding.fillGap
  match r.line.integer? with
  | none => .error .wrongKind
  | some n =>
    let line ← atPlace lines (n - 1)
    let pattern ← Pattern.read ("\\b" ++ name ++ "\\b")
    match ← pattern.search line with
    | some place => return place + 1
    | none => return 0

def checkUnused (settings : CheckSettings) (path : String) (lines : List String) (t : Tree)
    (records : List Value) : Run (List Value) := do
  let usage ← Usage.split t records
  usage.unused.forM fun v => do
    let r ← ImportRecord.ofValue v
    if !(settings.pragmas && r.pragma.truthy) then
      let column ← columnOf lines r
      Run.printError (path ++ ":" ++ (← r.line.lineNumber) ++ ":" ++ toString column ++ ":  Unused import '" ++
        r.binding.display ++ "'\n")
  return usage.used

def checkMissing (path : String) (t : Tree) (used : List Value) (assigned : List (Value × Value)) : Run Unit := do
  let modules ← used.mapM fun v => do
    let r ← ImportRecord.ofValue v
    r.module.asKey
  let names ← assigned.mapM fun p => p.1.asKey
  let uses ← t.nameUses
  uses.simple.forM fun (name, line) => do
    if !(Value.str name).among (modules ++ names) && name ∉ knownNames then
      Run.printError (path ++ ":" ++ (← line.lineNumber) ++ ":  Missing import for '" ++ name ++ "'\n")

def printNames (path title : String) (names : List (Value × Value)) : Run Unit := do
  Run.print ("\n\n------ " ++ title ++ ":\n")
  names.forM fun (name, line) => do
    Run.printLine (path ++ ":" ++ (← line.lineNumber) ++ ":  " ++ name.display)

def printFindings (path : String) (t : Tree) (records : List Value) (assigned : List (Value × Value)) :
    Run Unit := do
  let imported ← records.mapM fun v => do
    let r ← ImportRecord.ofValue v
    return (r.binding, r.line)
  printNames path "Imported names" imported
  printNames path "Assigned names" assigned
  Run.print "\n\n------ AST:\n"
  Run.printOut (t.printed "    " 1)
  Run.printLine ""

def checkFile (settings : CheckSettings) (path : String) : Run Unit := do
  let source ← Run.readSource path
  match source.tree with
  | none => pure ()
  | some t =>
    let records := (← t.imports).map ImportRecord.toValue
    let records ← if settings.repeats then checkRepeats path records else pure records
    let used ← checkUnused settings path (source.lines.getD []) t records
    if settings.missing || settings.debug then
      let assigned ← t.assignments
      if settings.missing then checkMissing path t used assigned
      if settings.debug then printFindings path t records assigned

def check (arguments : List String) : Run Unit := do
  let start : CheckSettings := { ignores := (← get).ignores }
  let keep (settings : CheckSettings) (s : Session) := { s with ignores := settings.ignores }
  let (settings, paths) ← Run.options checkManual checkFlags start keep arguments
  let paths := if paths.isEmpty then ["."] else paths
  Run.eachFile ((← Run.files).pythonFiles settings.ignores paths) (checkFile settings)

end ImportAtlas.Tools
