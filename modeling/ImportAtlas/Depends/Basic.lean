import ImportAtlas.Text.Lines
import ImportAtlas.Value.Order
import ImportAtlas.Value.Printer
import ImportAtlas.Value.Reader

/-!
# Dependencies

A dependency is a pair of references, each a root and a name below it; a target of none and none says that
the source is there. Dependencies are written one a line, in order, and read back from such lines. Any value
may stand on a line, so the operations here take values and say what they cannot take.
-/

namespace ImportAtlas.Depends

def nothing : Value :=
  .tuple [.none, .none]

/-! ## Reading -/

structure Reading where
  line : String
  value : Except ReadError Value

def readings (text : String) : List Reading :=
  (Text.feedLines text).map fun line => { line, value := Value.read line }

def Reading.complaint (r : Reading) : String :=
  "Invalid line: '" ++ r.line ++ "'"

/-! ## Sources and their targets -/

/-- Sources in order of arrival, each with its targets in order of arrival. -/
abbrev Table := List (Value × List Value)

def withNew (values : List Value) (v : Value) : List Value :=
  if v.among values then values else values ++ [v]

def distinct (values : List Value) : List Value :=
  values.foldl withNew []

def put (table : Table) (source : Value) (targets : List Value) : Table :=
  match table with
  | [] => [(source, targets)]
  | (s, ts) :: rest => if source.same s then (s, targets) :: rest else (s, ts) :: put rest source targets

def add (table : Table) (source target : Value) : Table :=
  match table with
  | [] => [(source, [target])]
  | (s, ts) :: rest =>
    if source.same s then (s, withNew ts target) :: rest else (s, ts) :: add rest source target

def sources (table : Table) : Table :=
  table.mergeSort fun a b => a.1.le b.1

def line (source target : Value × Value) : String :=
  (Value.tuple [.ofPair source, .ofPair target]).render ++ "\n"

def sourceLines (source : Value) (targets : List Value) : Except Fault (List String) := do
  let source ← source.pair
  (Value.sort targets).mapM fun target => do return line source (← target.pair)

/-- A table as text: every dependency on a line, in order. -/
def written (table : Table) : Except Fault String := do
  let lines ← (sources table).mapM fun (source, targets) => sourceLines source targets
  return String.join lines.flatten

/-! ## Lists of dependencies -/

def withoutRepeats (dependencies : List Value) : Except Fault (List Value) := do
  let dependencies ← dependencies.mapM fun d => d.asKey
  return distinct dependencies

/-- The references that have not been seen, up to one that cannot be compared. -/
def fresh (seen : List Value) : List Value → List Value × Option Fault
  | [] => ([], none)
  | r :: rest =>
    if !r.isKey then ([], some .wrongKind)
    else if r.among seen then fresh seen rest
    else
      let (more, fault) := fresh (seen ++ [r]) rest
      (r :: more, fault)

def step (seen : List Value) (dependency : Value) : List Value × Option Fault :=
  match dependency.parts with
  | .ok refs => fresh seen refs
  | .error fault => ([], some fault)

def references (dependencies : List Value) : Except Fault (List Value) := do
  let seen ← dependencies.foldlM (fun seen d =>
    match step seen d with
    | (more, none) => .ok (seen ++ more)
    | (_, some fault) => .error fault) [nothing]
  return seen.drop 1

end ImportAtlas.Depends
