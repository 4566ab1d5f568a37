import ImportAtlas.Path
import ImportAtlas.Value.Printer

/-!
# Drawings

Dependencies as a directed graph in the language of a graph drawing program: a fixed opening, one
statement for each dependency, a fixed closing.
-/

namespace ImportAtlas.Drawing

structure Options where
  /-- Without the extension, and with dots for slashes. -/
  dotted : Bool
  /-- With the root before the name. -/
  full : Bool
  deriving DecidableEq, Repr

def settings : List (String × String) :=
  [("rankdir", "LR"), ("overlap", "scale"), ("size", "8,10"), ("ratio", "fill"), ("fontsize", "16"),
    ("fontname", "Helvetica"), ("clusterrank", "local")]

/-- A resolution above zero is one more setting. -/
def resolution (dpi : Value) : Except Fault (List (String × String)) :=
  match dpi.number? with
  | some n => .ok (if n.order (.ofInt 0) = .gt then [("dpi", dpi.display)] else [])
  | none => .error .wrongKind

def opening (fontSize dpi : Value) : Except Fault String := do
  let settings := settings ++ (← resolution dpi)
  let lines := settings.map fun (key, value) => "           " ++ key ++ "=\"" ++ value ++ "\""
  return "\n# This file was generated by sfood-graph.\n\nstrict digraph \"dependencies\" \x7b\n    graph [\n" ++
    ",\n".intercalate lines ++
    "\n        ]\n\n       node [\n           fontsize=" ++ fontSize.display ++
    "\n           shape=ellipse\n           // style=filled\n           // shape=box\n       ];\n\n"

def closing : String :=
  "\n\n\x7d\n"

def dottedName : Value → Except Fault Value
  | .none => .ok .none
  | v => do
    let name ← v.text
    let name := if Text.endsIn name ".py" then Text.dropLast name 3 else name
    return .str (Text.swap name '/' '.')

def fullName (root name : Value) : Except Fault Value := do
  let root ← root.onlyText
  let name ← name.onlyText
  return .str (Path.join root name)

/-- The statement for one dependency: an arrow, or a filled node if there is no target. -/
def statement (options : Options) (dependency : Value) : Except Fault String := do
  let ((sourceRoot, source), (targetRoot, target)) ← dependency.ends
  let source ← if options.dotted then dottedName source else pure source
  let target ← if options.dotted then dottedName target else pure target
  let source ← if options.full then fullName sourceRoot source else pure source
  let target ← if options.full && targetRoot.truthy then fullName targetRoot target else pure target
  match targetRoot with
  | .none => return "\"" ++ (← source.fillGap) ++ "\"  [style=filled];\n"
  | _ => return "\"" ++ source.display ++ "\" -> \"" ++ target.display ++ "\";\n"

end ImportAtlas.Drawing
