import ImportAtlas.Imports.Record

/-!
# Repeated imports

Two imports repeat each other if the module and the symbol, joined by a dot, give one name.
-/

namespace ImportAtlas

structure Repeats where
  unique : List Value := []
  repeated : List Value := []
  names : List Value := []

namespace Repeats

/-- The name that an import brings in: the module, or the module and the symbol. -/
def fullName (r : ImportRecord) : Except Fault Value :=
  match r.symbol with
  | .none => .ok r.module
  | symbol => do
    let module ← r.module.onlyText
    let symbol ← symbol.onlyText
    return .str (module ++ "." ++ symbol)

def step (s : Repeats) (v : Value) : Except Fault Repeats := do
  let r ← ImportRecord.ofValue v
  let name ← (← fullName r).asKey
  if name.among s.names then return { s with repeated := s.repeated ++ [v] }
  else return { s with unique := s.unique ++ [v], names := s.names ++ [name] }

def split (records : List Value) : Except Fault Repeats :=
  records.foldlM step {}

end Repeats

end ImportAtlas
