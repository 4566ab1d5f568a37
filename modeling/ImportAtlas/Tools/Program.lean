import ImportAtlas.Tools.Check
import ImportAtlas.Tools.Cluster
import ImportAtlas.Tools.Copy
import ImportAtlas.Tools.Deps
import ImportAtlas.Tools.Draw
import ImportAtlas.Tools.Filter
import ImportAtlas.Tools.Flatten
import ImportAtlas.Tools.ListImports
import ImportAtlas.Tools.PrintTree
import ImportAtlas.Tools.Rename

/-!
# Programs

The programs by name. One of them only chooses another and hands its arguments on.
-/

namespace ImportAtlas

inductive Program where
  | deps
  | checker
  | cluster
  | rename
  | copy
  | filterLibrary
  | flatten
  | draw
  | listImports
  | targetFiles
  | printTree
  | choose
  deriving DecidableEq, Repr

namespace Program

def table : List (String × Program) :=
  [("sfood", deps), ("sfood-checker", checker), ("sfood-cluster", cluster), ("sfood-cluster-regexp", rename),
    ("sfood-copy", copy), ("sfood-filter-stdlib", filterLibrary), ("sfood-flatten", flatten),
    ("sfood-graph", draw), ("sfood-imports", listImports), ("sfood-target-files", targetFiles),
    ("astpretty", printTree), ("snakefood", choose)]

def ofName? (name : String) : Option Program :=
  table.lookup name

def commands : List String :=
  ["deps", "checker", "cluster", "copy", "filter-stdlib", "flatten", "graph", "imports", "target-files"]

/-- A program that is to be started in place of the running one. -/
structure Handover where
  name : String
  arguments : List String
  deriving DecidableEq, Repr

/-- The program that the first argument chooses. Its own name is its first argument. -/
def chosen : List String → Run Handover
  | [] => throw .outOfRange
  | word :: arguments => do
    if word ∉ commands then
      Run.printError ("Invalid command '" ++ word ++ "'.\n")
      throw (.exit (.code 1))
    let name := if word = "deps" then "sfood" else "sfood-" ++ word
    return { name, arguments := name :: arguments }

def run (program : Program) (arguments : List String) : Run (Option Handover) := do
  match program with
  | deps => Tools.deps arguments
  | checker => Tools.check arguments
  | cluster => Tools.cluster arguments
  | rename => Tools.rename arguments
  | copy => Tools.copy arguments
  | filterLibrary => Tools.filterLibrary arguments
  | flatten => Tools.flatten arguments
  | draw => Tools.draw arguments
  | listImports => Tools.listImports arguments
  | targetFiles => Tools.targetFiles arguments
  | printTree => Tools.printTree arguments
  | choose => return some (← chosen arguments)
  return none

structure Ending where
  status : ExitStatus
  /-- The fault that ended it, if it was not meant to end. -/
  fault : Option Fault
  handover : Option Handover
  console : Console

def execute (program : Program) (arguments : List String) (input : String) (s : Session) : Ending × Session :=
  let s := { s with console := { input } }
  match program.run arguments s with
  | .ok handover s => ({ status := .code 0, fault := none, handover, console := s.console }, s)
  | .error (.exit status) s => ({ status, fault := none, handover := none, console := s.console }, s)
  | .error fault s =>
    ({ status := .code 1, fault := some fault, handover := none, console := s.console }, s)

end Program

end ImportAtlas
