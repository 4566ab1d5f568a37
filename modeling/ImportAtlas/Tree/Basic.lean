import ImportAtlas.Tree.Kind
import ImportAtlas.Value.Basic

/-!
# Syntax trees

A tree is a node with its fields, a group of trees, or plain data. `children` is what stands below a
node, groups opened; `nodesBelow` is what a walk goes on to. Both stop at a field of many that holds nothing
to go through.
-/

namespace ImportAtlas

inductive Tree where
  | plain (v : Value)
  | node (kind : Kind) (line : Value) (fields : List Tree)
  | list (items : List Tree)
  | tuple (items : List Tree)
  deriving Inhabited

namespace Tree

def empty : Tree :=
  node .program .none [plain .none, node .block .none [list []]]

def isNode : Tree → Bool
  | node _ _ _ => true
  | _ => false

def kind? : Tree → Option Kind
  | node kind _ _ => some kind
  | _ => Option.none

def isA (kind : Kind) (t : Tree) : Bool :=
  t.kind? = some kind

def fields : Tree → List Tree
  | node _ _ fields => fields
  | _ => []

def line : Tree → Value
  | node _ line _ => line
  | _ => .none

mutual

/-- The data that a tree is, if there is no node in it. -/
def value? : Tree → Option Value
  | plain v => some v
  | node _ _ _ => Option.none
  | list items => (values? items).map .list
  | tuple items => (values? items).map .tuple

def values? : List Tree → Option (List Value)
  | [] => some []
  | t :: ts => do return (← value? t) :: (← values? ts)

end

def child (t : Tree) (place : Nat) : Tree :=
  t.fields[place]?.getD (plain .none)

def datum (t : Tree) (place : Nat) : Value :=
  (t.child place).value?.getD .none

/-! ## What stands below a node -/

/-- The groups among the trees opened, at any depth. -/
def openGroups : List Tree → List Tree
  | [] => []
  | list items :: rest => openGroups items ++ openGroups rest
  | tuple items :: rest => openGroups items ++ openGroups rest
  | t :: rest => t :: openGroups rest

mutual

/-- What a tree yields in the place of a group, all groups in it opened: a text its characters, a node its
children. Data without parts is refused there. -/
def members : Tree → Except Fault (List Tree)
  | plain v => do return (← v.parts).map plain
  | node kind _ fields => openGroups <$> childrenFrom kind.roles fields
  | list items => .ok (openGroups items)
  | tuple items => .ok (openGroups items)

def childrenFrom : List Role → List Tree → Except Fault (List Tree)
  | .many :: roles, t :: fields => do return (← members t) ++ (← childrenFrom roles fields)
  | _ :: roles, t :: fields => do return t :: (← childrenFrom roles fields)
  | _, _ => .ok []

end

def children : Tree → Except Fault (List Tree)
  | node kind _ fields => childrenFrom kind.roles fields
  | _ => .ok []

/-- The fields that a walk goes on to. A place for one node is visited whatever stands there. -/
def nodesFrom : List Role → List Tree → Except Fault (List Tree)
  | .plain :: roles, _ :: fields => nodesFrom roles fields
  | .optional :: roles, plain .none :: fields => nodesFrom roles fields
  | .many :: roles, t :: fields => do return (← members t).filter isNode ++ (← nodesFrom roles fields)
  | _ :: roles, t :: fields => do return t :: (← nodesFrom roles fields)
  | _, _ => .ok []

def nodesBelow : Tree → Except Fault (List Tree)
  | node kind _ fields => nodesFrom kind.roles fields
  | _ => .error .noOperation

end Tree

end ImportAtlas
