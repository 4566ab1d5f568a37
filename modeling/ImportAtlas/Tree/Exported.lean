import ImportAtlas.Tree.Visitor

/-!
# Exported names

The constants of the assignments that come after, or are, one to the name `__all__`.
-/

namespace ImportAtlas

structure Exports where
  constants : List (Value × Value) := []
  inAssign : Bool := false
  seenAll : Bool := false

namespace Exports

def visitor : Visitor Exports where
  enter t :=
    match t.kind? with
    | some .assign => modify fun e => { e with inAssign := true }
    | some .assignName =>
      modify fun e => if e.inAssign && (t.datum 0).same (.str "__all__") then { e with seenAll := true } else e
    | some .const =>
      modify fun e =>
        if e.inAssign && e.seenAll then { e with constants := e.constants ++ [(t.datum 0, t.line)] }
        else e
    | _ => pure ()
  descends _ := true
  leave t before after := if t.isA .assign then { after with inAssign := before.inAssign } else after

end Exports

def Tree.exports (t : Tree) : Except Fault (List (Value × Value)) := do
  return (← Exports.visitor.collect {} t).constants

end ImportAtlas
