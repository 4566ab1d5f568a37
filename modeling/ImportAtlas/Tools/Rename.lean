import ImportAtlas.Analysis.Lines
import ImportAtlas.Depends.Cluster
import ImportAtlas.Pattern.Matcher
import ImportAtlas.Pattern.Reader
import ImportAtlas.Tools.Manual

/-!
# The program that clusters dependencies by patterns

The arguments are patterns, each followed by the name that takes the place of the names that it matches.
-/

namespace ImportAtlas.Tools

/-- The name, or what the first pattern that matches it says instead. -/
def renamed (renames : List (Pattern × String)) (name : Value) : Except Fault Value :=
  match renames with
  | [] => .ok name
  | (pattern, target) :: rest => do
    if ← pattern.matchesStart (← name.onlyText) then return .str target else renamed rest name

def renameManual : Manual where
  program := "sfood-cluster-regexp"
  text := "Cluster dependencies by regular expression."

def rename (arguments : List String) : Run Unit := do
  let (_, arguments) ← Run.ownOptions renameManual [] () arguments
  if arguments.length % 2 ≠ 0 then Run.misused renameManual "An odd number of renames was specified."
  let renames ← (Depends.twoByTwo arguments).mapM fun (pattern, target) => do
    return (← Pattern.read pattern, target)
  let step (table : Depends.Table) (dependency : Value) : Run Depends.Table := do
    let ((sourceRoot, source), (targetRoot, target)) ← dependency.ends
    let source ← renamed renames source
    let target ← if target.truthy then renamed renames target else pure target
    Depends.addClustered table (sourceRoot, source) (targetRoot, target)
  let table ← Run.foldValues step [] (← Run.takeInput)
  Run.print (← Depends.written table)

end ImportAtlas.Tools
