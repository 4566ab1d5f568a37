import ImportAtlas.Imports.Record
import ImportAtlas.Tree.Visitor

/-!
# Imports of a tree

Imports are kept aside when they are met, and become records at the next node of another kind. If that
node is a constant that stands alone, the constant is the remark on all that was kept aside.
-/

namespace ImportAtlas

structure ImportScan where
  records : List ImportRecord := []
  /-- Imports that wait for a remark. -/
  recent : List Import := []

namespace ImportScan

def settle (pragma : Value) (s : ImportScan) : ImportScan where
  records := s.records ++ s.recent.map fun i => { i with pragma }
  recent := []

def keep (i : Import) (s : ImportScan) : ImportScan :=
  { s with recent := s.recent ++ [i] }

/-- One of `name` and `other`: the other one if there is one. -/
def boundName (name other : Value) : Value :=
  if other.truthy then other else name

/-- The import of one entry of a statement that names modules. What follows the two names does not count. -/
def moduleImport (t : Tree) (entry : Value) : Except Fault Import := do
  let name ← entry.part 0
  let other ← entry.part 1
  return { module := name, symbol := .none, binding := boundName name other, line := t.line, level := .int 0 }

/-- The import of one entry of a statement that names symbols of a module; a star stands for unknown symbols. -/
def symbolImport (t : Tree) (entry : Value) : Except Fault Import := do
  let (name, other) ← entry.pair
  if name.same (.str "*") then
    return { module := t.datum 0, symbol := .none, binding := .none, line := t.line, level := t.datum 2 }
  else
    return { module := t.datum 0, symbol := name, binding := boundName name other, line := t.line, level := t.datum 2 }

/-- Keeps the imports of all entries aside, those before a fault included. -/
def keepAll (importOf : Value → Except Fault Import) (entries : Value) : Walk ImportScan Unit := do
  (← entries.parts).forM fun entry => do modify (keep (← importOf entry))

def targets (t : Tree) : Except Fault (List Tree) :=
  match t.child 0 with
  | .list items => .ok items
  | .tuple items => .ok items
  | .plain v => do return (← v.parts).map .plain
  | .node _ _ _ => .error .wrongKind

def isAllAlone : List Tree → Bool
  | [target] =>
    target.isA .assignName && (target.datum 0).same (.str "__all__") && (target.datum 1).same (.str "OP_ASSIGN")
  | _ => false

/-- The constants in a list that is assigned to `__all__` name modules. -/
def listedModules (t : Tree) : Except Fault (List Import) := do
  let names := t.child 1
  if isAllAlone (← targets t) && (names.isA .list || names.isA .tuple) then
    return ((← names.children).filter (Tree.isA .const)).map fun c =>
      { module := c.datum 0, symbol := .none, binding := c.datum 0, line := t.line, level := .int 0 }
  else return []

def remark (t : Tree) : Value :=
  if t.isA .discard && (t.child 0).isA .const then (t.child 0).datum 0 else .none

/-- The visitor of import statements. `settles` says whether other nodes settle what was kept aside. -/
def visitor (settles : Bool) : Visitor ImportScan where
  enter t := do
    match t.kind? with
    | some .importNames =>
      modify (settle .none)
      keepAll (moduleImport t) (t.datum 0)
    | some .fromImport =>
      modify (settle .none)
      if !(t.datum 0).same (.str "__future__") then keepAll (symbolImport t) (t.datum 1)
    | some .assign => (← listedModules t).forM fun i => modify (keep i)
    | _ => if settles then modify fun s => s.settle (if s.recent.isEmpty then .none else remark t)
  descends t := !(t.isA .importNames || t.isA .fromImport || t.isA .assign)
  leave _ _ after := after

def finish (s : ImportScan) : ImportScan :=
  s.settle .none

end ImportScan

def Tree.imports (t : Tree) : Except Fault (List ImportRecord) := do
  return (← (ImportScan.visitor true).collect {} t).finish.records

end ImportAtlas
