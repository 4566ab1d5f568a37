import ImportAtlas.Session
import ImportAtlas.Tools.Manual
import ImportAtlas.Tree.Printer

/-!
# The program that prints trees
-/

namespace ImportAtlas.Tools

def printTreeManual : Manual where
  program := "astpretty"
  text := "Python AST pretty-printer.\n\n" ++
    "This module exports a function that can be used to print a human-readable\nversion of the AST."

/-- The word for a refusal that is shown and does not end the program. -/
def refusalWord : Refusal → Option String
  | .malformed _ => some "SyntaxError"
  | .badIndentation _ => some "IndentationError"
  | .badTabs _ => some "TabError"
  | _ => none

def printTree (arguments : List String) : Run Unit := do
  let (_, paths) ← Run.ownOptions printTreeManual [] () arguments
  if paths.isEmpty then
    Run.misused printTreeManual "You need to specify the name of Python files to print out."
  paths.forM fun path => do
    Run.printLine ("\n\n" ++ path ++ ":\n")
    match (← (← Run.files).read path).parse with
    | .tree t => Run.printOut (t.printed "  " 1)
    | .refused cause message =>
      match refusalWord cause with
      | some word => Run.printError (word ++ ": " ++ message ++ "\n")
      | none => throw (.refused cause message)

end ImportAtlas.Tools
