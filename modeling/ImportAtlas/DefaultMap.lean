import ImportAtlas.Value.Printer

/-!
# Maps with a default

A map that makes a value for a key it does not hold. Keys stay in order of arrival, and a key that is set again
stays in its place.
-/

namespace ImportAtlas

inductive Factory where
  | list
  | int
  | str
  | table
  deriving DecidableEq, Repr

namespace Factory

def name : Factory → String
  | list => "list"
  | int => "int"
  | str => "str"
  | table => "dict"

def ofName? : String → Option Factory
  | "list" => some list
  | "int" => some int
  | "str" => some str
  | "dict" => some table
  | _ => none

def make : Factory → Value
  | list => .list []
  | int => .int 0
  | str => .str ""
  | table => .table [] []

end Factory

structure DefaultMap where
  factory : Option Factory
  items : List (Value × Value) := []

/-- A computation on a map that keeps what it did before a fault. -/
abbrev MapChange := EStateM Fault DefaultMap

namespace DefaultMap

/-- The value of a key, without making one. -/
def get? (d : DefaultMap) (key : Value) : Option Value :=
  (d.items.find? fun item => key.same item.1).map (·.2)

def putItem (key value : Value) : List (Value × Value) → List (Value × Value)
  | [] => [(key, value)]
  | (k, v) :: rest => if key.same k then (k, value) :: rest else (k, v) :: putItem key value rest

def put (key value : Value) (d : DefaultMap) : DefaultMap :=
  { d with items := putItem key value d.items }

def addPairs (source : Value) (d : DefaultMap) : Except Fault DefaultMap := do
  (← source.parts).foldlM (fun d item => do
    let (key, value) ← item.pair
    return d.put (← key.asKey) value) d

def create (factory : Option Factory) (sources : List Value) : Except Fault DefaultMap :=
  match sources with
  | [] => .ok { factory }
  | [source] => addPairs source { factory }
  | _ => .error .wrongKind

/-- The value of a key, made if it is missing. -/
def fetch (key : Value) : MapChange Value := do
  let key ← key.asKey
  let d ← get
  match d.get? key, d.factory with
  | some value, _ => return value
  | none, some factory =>
    set (d.put key factory.make)
    return factory.make
  | none, none => throw .missingKey

def assign (key value : Value) : MapChange Unit := do
  let key ← key.asKey
  modify (put key value)

def append (key element : Value) : MapChange Unit := do
  match ← fetch key with
  | .list items => assign key (.list (items ++ [element]))
  | _ => throw .noOperation

def sum (a b : Value) : Except Fault Value :=
  match a.integer?, b.integer? with
  | some m, some n => .ok (.int (m + n))
  | m, n =>
    match real? a m, real? b n with
    | some x, some y => .ok (.real (x + y))
    | _, _ => .error .wrongKind
where
  real? (v : Value) (n : Option Int) : Option Float :=
    match v, n with
    | .real x, _ => some x
    | _, some n => some (Float.ofInt n)
    | _, none => none

/-- A value and what is added to it. A list takes the parts of anything that has parts. -/
def added : Value → Value → Except Fault Value
  | .str a, .str b => .ok (.str (a ++ b))
  | .list a, b => do return .list (a ++ (← b.parts))
  | .tuple a, .tuple b => .ok (.tuple (a ++ b))
  | a, b => sum a b

def increase (key amount : Value) : MapChange Unit := do
  let value ← fetch key
  assign key (← added value amount)

def remove (key : Value) : MapChange Unit := do
  let key ← key.asKey
  let d ← get
  if (d.get? key).isNone then throw .missingKey
  set { d with items := d.items.filter fun item => !key.same item.1 }

def has (d : DefaultMap) (key : Value) : Except Fault Bool := do
  return (d.get? (← key.asKey)).isSome

def display (d : DefaultMap) : String :=
  let factory := match d.factory with
    | some f => "<class '" ++ f.name ++ "'>"
    | none => "None"
  let items := d.items.map fun (key, value) => key.render ++ ": " ++ value.render
  "defaultdict(" ++ factory ++ ", \x7b" ++ ", ".intercalate items ++ "\x7d)"

inductive CopyKind where
  /-- The values are shared, so a list that grows in the one grows in the other. -/
  | shallow
  | deep
  deriving DecidableEq, Repr

/-- What the items of a copy are after an element was appended to a value of the map. A key that the map did not
hold when it was copied is not in the copy. -/
def copyAfter (kind : CopyKind) (copied : DefaultMap) (key : Value) (after : DefaultMap) : DefaultMap :=
  match kind, copied.get? key, after.get? key with
  | .shallow, some _, some value => copied.put key value
  | _, _, _ => copied

end DefaultMap

end ImportAtlas
