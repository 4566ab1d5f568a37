import ImportAtlas.Depends.Basic
import ImportAtlas.Text.Blank

/-!
# Clusters

A cluster takes the place of every name that starts with it. The first cluster of a list that fits is
the one that is taken.
-/

namespace ImportAtlas.Depends

/-- The first cluster with which the name starts. -/
def clusterOf (name : Value) : List Value → Except Fault Value
  | [] => .ok name
  | c :: rest => do
    let name' ← name.text
    let cluster ← c.onlyText
    if Text.beginsWith name' cluster then return c else clusterOf name rest

/-- The reference with its name replaced by its cluster. A reference without a root stays. -/
def cluster (clusters : List Value) (root name : Value) : Except Fault (Value × Value) :=
  match root with
  | .none => .ok (.none, name)
  | root => do return (root, ← clusterOf name clusters)

/-- A reference that depends on itself depends on nothing. -/
def withoutLoop (source target : Value × Value) : Value × Value :=
  if (Value.ofPair source).same (.ofPair target) then (.none, .none) else target

def addClustered (table : Table) (source target : Value × Value) : Except Fault Table := do
  let target := withoutLoop source target
  let source ← (Value.ofPair source).asKey
  let target ← (Value.ofPair target).asKey
  return add table source target

/-- The names of clusters in a text, one a line, with blanks around them dropped. -/
def clusterNames (text : String) : List String :=
  ((Text.feedLines (Text.unifyNewlines text)).map Text.trim).filter (· ≠ "")

/-- The elements two by two; one that is left over is dropped. -/
def twoByTwo {α : Type} : List α → List (α × α)
  | a :: b :: rest => (a, b) :: twoByTwo rest
  | _ => []

end ImportAtlas.Depends
