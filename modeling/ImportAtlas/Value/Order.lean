import ImportAtlas.Value.Basic

/-!
# The order of values

None comes first, then the numbers by size, then tables, lists, texts and tuples. Texts are ordered by
code points, groups by their first parts that differ and then by length.
-/

namespace ImportAtlas.Value

def rank : Value → Nat
  | none => 0
  | bool _ => 1
  | int _ => 1
  | real _ => 1
  | table _ _ => 2
  | list _ => 3
  | str _ => 4
  | tuple _ => 5

mutual

def order : Value → Value → Ordering
  | str a, str b => compare a b
  | list as, list bs => orderAll as bs
  | tuple as, tuple bs => orderAll as bs
  | table ks as, table ls bs => (compare ks.length ls.length).then (orderAll as bs)
  | a, b =>
    match a.number?, b.number? with
    | some x, some y => x.order y
    | _, _ => compare a.rank b.rank

def orderAll : List Value → List Value → Ordering
  | [], [] => .eq
  | [], _ :: _ => .lt
  | _ :: _, [] => .gt
  | a :: as, b :: bs => (order a b).then (orderAll as bs)

end

def le (a b : Value) : Bool :=
  order a b != .gt

def sort (vs : List Value) : List Value :=
  vs.mergeSort le

end ImportAtlas.Value
