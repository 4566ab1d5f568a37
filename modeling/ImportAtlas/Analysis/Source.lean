import ImportAtlas.Session
import ImportAtlas.Sources
import ImportAtlas.Text.Lines

/-!
# Reading sources

The tree of a source file and its lines. A file that cannot be read, or whose text is no program, is
reported and has no tree.
-/

namespace ImportAtlas

structure ParsedFile where
  tree : Option Tree
  lines : Option (List String)

namespace Run

def text (path : String) : Run String := do
  return Text.unifyNewlines (← (← files).read path).text

def feedLines (path : String) : Run (List String) := do
  return Text.feedLines (← text path)

def refusalLine : Option Int → String
  | none => "--"
  | some 0 => "--"
  | some n => toString n

def readSource (path : String) : Run ParsedFile := do
  match (← files).read path with
  | .error _ =>
    message .error ("Could not read file '" ++ path ++ "'.")
    return { tree := none, lines := none }
  | .ok source =>
    let lines := Text.splitLines (Text.unifyNewlines source.text)
    let report (detail : String) : Run ParsedFile := do
      message .error ("Error processing file '" ++ path ++ "':\n" ++ path ++ ":" ++ detail)
      return { tree := none, lines }
    match source.parse with
    | .tree t => return { tree := t, lines }
    | .refused (.malformed line) text => report (refusalLine line ++ ": " ++ text)
    | .refused (.badIndentation line) text => report (refusalLine line ++ ": " ++ text)
    | .refused (.badTabs line) text => report (refusalLine line ++ ": " ++ text)
    | .refused .notText text => report (" " ++ text)
    | .refused cause text => throw (.refused cause text)

def reportMissing (path : String) : Run Unit :=
  message .warning ("File '" ++ path ++ "' does not exist.")

/-- What a search for Python files has come upon, one after another; what is missing is reported. -/
def eachFile (found : List FileSystem.Found) (use : String → Run Unit) : Run Unit :=
  found.forM fun
    | .file path => use path
    | .missing path => reportMissing path

/-- The Python files at or below the paths, handed out one by one. Without names to be passed over, those of the
session are. -/
def pythonFiles (paths ignores : Value) (absolute : Bool := false) : Listing String Unit := do
  let paths ← match paths with
    | .list items => pure items
    | .tuple items => pure items
    | _ => throw .brokenPromise
  let given ← match ignores with
    | .none => pure []
    | .list items => pure items
    | _ => throw .brokenPromise
  let s ← (get : Run Session)
  let ignores := if given.isEmpty then s.ignores else given.filterMap fun v => v.text.toOption
  paths.forM fun path => do
    let path ← (path.onlyText : Except Fault String)
    (s.files.pythonFiles ignores [path] absolute).forM fun
      | .file path => Listing.emit path
      | .missing path => (reportMissing path : Run Unit)

end Run

end ImportAtlas
