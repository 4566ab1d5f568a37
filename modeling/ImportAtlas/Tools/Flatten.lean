import ImportAtlas.Analysis.Lines
import ImportAtlas.Tools.Manual

/-!
# The program that lists files

Dependencies from the standard input become a list of all files in them.
-/

namespace ImportAtlas.Tools

def flattenManual : Manual where
  program := "sfood-flatten"
  text := "Read a snakefood dependencies file and output the list of all files."

def flatten (arguments : List String) : Run Unit := do
  let _ ← Run.ownOptions flattenManual [] () arguments
  let list (root name : Value) : Run Unit := do Run.printLine (← Run.pathOf root name)
  let _ ← Run.foldValues (Run.useReferences list) [Depends.nothing] (← Run.takeInput)

end ImportAtlas.Tools
