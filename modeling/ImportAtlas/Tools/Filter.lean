import ImportAtlas.Analysis.Lines
import ImportAtlas.Tools.Manual

/-!
# The programs that filter dependencies

A line without a value ends these programs; what is wrong with it is printed.
-/

namespace ImportAtlas.Tools

def filterText : String :=
  "A helper module to build simple filter scripts."

def useValues (use : Value → Run Unit) (text : String) : Run Unit :=
  (Depends.readings text).forM fun r => do
    match r.value with
    | .ok v => use v
    | .error e =>
      Run.printLine (e.message ++ " <stream>")
      throw (.exit (.code 0))

def filter (program : String) (use : Value → Run Unit) (arguments : List String) : Run Unit := do
  let (_, paths) ← Run.ownOptions { program, text := filterText } [] () arguments
  (if paths.isEmpty then ["-"] else paths).forM fun path => do useValues use (← Run.rawText path)

def rootBegins (start : String) (source target : Value) : Except Fault Bool := do
  if Text.beginsWith (← source.onlyText) start then return true
  if target.truthy then return Text.beginsWith (← target.onlyText) start else return false

/-- Neither end is in the standard library, or one is in a place for other packages. -/
def staysOutside (source target : Value) : Except Fault Bool := do
  if ← rootBegins "/usr/lib/python" source target then rootBegins "site-packages" source target
  else return true

def filterLibrary (arguments : List String) : Run Unit :=
  filter "sfood-filter-stdlib" (fun v => do
    let (source, target) ← v.ends
    if ← staysOutside source.1 target.1 then Run.printLine v.render) arguments

def targetFiles (arguments : List String) : Run Unit :=
  filter "sfood-target-files" (fun v => do
    let (_, target) ← v.pair
    let (root, name) ← target.pair
    if !root.isNone then Run.printLine (← Run.pathOf root name)) arguments

end ImportAtlas.Tools
