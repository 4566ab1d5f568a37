import ImportAtlas.Depends.Basic
import ImportAtlas.Session

/-!
# Dependencies from lines

Lines are read one by one, and each value is used before the next line is read, so that nothing is said about
the lines after a fault.
-/

namespace ImportAtlas.Run

/-- Folds over the values of the lines. A line without a value is reported and passed over. -/
def foldValues {α : Type} (step : α → Value → Run α) (start : α) (text : String) : Run α :=
  (Depends.readings text).foldlM (fun a r => do
    match r.value with
    | .ok v => step a v
    | .error _ =>
      message .warning r.complaint
      return a) start

def allValues (text : String) : Run (List Value) :=
  foldValues (fun values v => return values ++ [v]) [] text

def distinctValues (text : String) : Run (List Value) :=
  foldValues (fun values v => do return Depends.withNew values (← v.asKey)) [] text

def useReference (use : Value → Value → Run Unit) (r : Value) : Run Unit := do
  let (root, name) ← r.pair
  use root name

/-- The references of a dependency that have not been seen are used, one after another. The answer is all that
has been seen then. -/
def useReferences (use : Value → Value → Run Unit) (seen : List Value) (dependency : Value) :
    Run (List Value) := do
  let (references, fault) := Depends.step seen dependency
  references.forM (useReference use)
  match fault with
  | some fault => throw fault
  | none => return seen ++ references

def pathOf (root name : Value) : Except Fault String := do
  let root ← root.onlyText
  let name ← name.onlyText
  return Path.join root name

end ImportAtlas.Run
