import ImportAtlas.Tree.Visitor

/-!
# Assigned names

The names that a program binds by assignments, classes and functions. The walk knows that it is inside a class
until it leaves the class, methods included. So no function below a class counts, be it a method or a function
that a method defines for itself.
-/

namespace ImportAtlas

structure Assignments where
  names : List (Value × Value) := []
  inClass : Bool := false

namespace Assignments

def add (name line : Value) (a : Assignments) : Assignments :=
  { a with names := a.names ++ [(name, line)] }

def visitor : Visitor Assignments where
  enter t :=
    match t.kind? with
    | some .assignName => modify (add (t.datum 0) t.line)
    | some .classDef => modify fun a => { add (t.datum 0) t.line a with inClass := true }
    | some .function => modify fun a => if a.inClass then a else add (t.datum 1) t.line a
    | _ => pure ()
  descends _ := true
  leave t before after := if t.isA .classDef then { after with inClass := before.inClass } else after

end Assignments

def Tree.assignments (t : Tree) : Except Fault (List (Value × Value)) := do
  return (← Assignments.visitor.collect {} t).names

end ImportAtlas
