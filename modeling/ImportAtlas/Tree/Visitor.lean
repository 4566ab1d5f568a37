import ImportAtlas.Tree.Basic

/-!
# Walks through trees

A visitor keeps a state while a walk goes through a tree from the top, each node before those below
it. Where a node or a group should stand and none does, the walk stops, and the state is what it was then.
-/

namespace ImportAtlas

abbrev Walk (σ : Type) := EStateM Fault σ

structure Visitor (σ : Type) where
  enter : Tree → Walk σ Unit
  descends : Tree → Bool
  /-- The state on the way up, from the one on the way down and the one after the nodes below. -/
  leave : Tree → σ → σ → σ

namespace Visitor

variable {σ : Type} (v : Visitor σ)

mutual

def walk : Tree → Walk σ Unit
  | .node kind line fields => do
    let before ← get
    v.enter (.node kind line fields)
    if v.descends (.node kind line fields) then
      -- What stands below is known as a whole before any of it is visited.
      let _ ← (Tree.node kind line fields).nodesBelow
      walkFields kind.roles fields
    modify (v.leave (.node kind line fields) before)
  | t => do
    v.enter t
    let _ ← t.nodesBelow

def walkFields : List Role → List Tree → Walk σ Unit
  | .plain :: roles, _ :: fields => walkFields roles fields
  | .optional :: roles, .plain .none :: fields => walkFields roles fields
  | .many :: roles, t :: fields => do
    walkMembers t
    walkFields roles fields
  | _ :: roles, t :: fields => do
    walk t
    walkFields roles fields
  | _, _ => pure ()

/-- Through the nodes that a tree yields in the place of a group. -/
def walkMembers : Tree → Walk σ Unit
  | .plain _ => pure ()
  | .node kind _ fields => walkChildren kind.roles fields
  | .list items => walkItems items
  | .tuple items => walkItems items

def walkChildren : List Role → List Tree → Walk σ Unit
  | .many :: roles, t :: fields => do
    walkMembers t
    walkChildren roles fields
  | _ :: roles, .plain _ :: fields => walkChildren roles fields
  | _ :: roles, .list items :: fields => do
    walkItems items
    walkChildren roles fields
  | _ :: roles, .tuple items :: fields => do
    walkItems items
    walkChildren roles fields
  | _ :: roles, t :: fields => do
    walk t
    walkChildren roles fields
  | _, _ => pure ()

def walkItems : List Tree → Walk σ Unit
  | [] => pure ()
  | .plain _ :: rest => walkItems rest
  | .list items :: rest => do
    walkItems items
    walkItems rest
  | .tuple items :: rest => do
    walkItems items
    walkItems rest
  | t :: rest => do
    walk t
    walkItems rest

end

def collect (start : σ) (t : Tree) : Except Fault σ :=
  match v.walk t start with
  | .ok _ s => .ok s
  | .error fault _ => .error fault

end Visitor

end ImportAtlas
