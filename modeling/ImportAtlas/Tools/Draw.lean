import ImportAtlas.Analysis.Lines
import ImportAtlas.Tools.Manual

/-!
# The program that draws dependencies

Dependencies become a graph. The way in which file names are shown stays set after the program.
-/

namespace ImportAtlas

namespace Run

def drawOne (dependency : Value) : Run Unit := do
  let _ ← dependency.ends
  match (← get).drawing with
  | none => throw .optionsUnset
  | some options => print (← Drawing.statement options dependency)

def draw (dependencies : List Value) (fontSize dpi : Value) : Run Unit := do
  print (← Drawing.opening fontSize dpi)
  dependencies.forM drawOne
  print Drawing.closing

end Run

namespace Tools

structure DrawSettings where
  full : Bool := false
  dotted : Bool := false
  distinct : Bool := true
  fontSize : Int := 10
  dpi : Int := -1

def drawFlags : List (Flag DrawSettings) :=
  [{ names := ["-f", "--full-pathnames", "--full"], effect := .set fun s => { s with full := true } },
    { names := ["-p", "--pythonify-filenames", "--remove-extensions"]
      effect := .set fun s => { s with dotted := true } },
    { names := ["-r", "--redundant"], effect := .set fun s => { s with distinct := false } },
    { names := ["--fontsize"], effect := .whole fun n s => { s with fontSize := n } },
    { names := ["--dpi"], effect := .whole fun n s => { s with dpi := n } }]

def drawManual : Manual where
  program := "sfood-graph"
  text := "Read snakefood dependencies and output a visual graph."

def draw (arguments : List String) : Run Unit := do
  let (settings, paths) ← Run.ownOptions drawManual drawFlags {} arguments
  modify fun s => { s with drawing := some { dotted := settings.dotted, full := settings.full } }
  let fontSize := Value.int settings.fontSize
  let dpi := Value.int settings.dpi
  (if paths.isEmpty then ["-"] else paths).forM fun path => do
    let text ← Run.rawText path
    if settings.distinct then
      let dependencies ← Run.distinctValues text
      Run.draw dependencies fontSize dpi
    else
      Run.print (← Drawing.opening fontSize dpi)
      Run.foldValues (fun _ v => Run.drawOne v) () text
      Run.print Drawing.closing

end Tools

end ImportAtlas
