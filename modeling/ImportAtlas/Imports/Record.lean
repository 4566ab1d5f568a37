import ImportAtlas.Value.Basic

/-!
# Import records

One record for each name that an import statement, or a list of exported modules, brings in.
-/

namespace ImportAtlas

structure Import where
  module : Value
  /-- The symbol taken from the module, none for the module itself or for all its symbols. -/
  symbol : Value
  /-- The name that the importing program binds, none if it is not known. -/
  binding : Value
  line : Value
  /-- The number of leading dots of a relative import. -/
  level : Value
  deriving Inhabited

/-- An imported name with the remark that follows the statement, none without one. -/
structure ImportRecord extends Import where
  pragma : Value
  deriving Inhabited

namespace Import

def toValue (i : Import) : Value :=
  .tuple [i.module, i.symbol, i.binding, i.line, i.level]

end Import

namespace ImportRecord

def toValue (r : ImportRecord) : Value :=
  .tuple [r.module, r.symbol, r.binding, r.line, r.level, r.pragma]

def ofValue (v : Value) : Except Fault ImportRecord := do
  match ← v.parts with
  | [module, symbol, binding, line, level, pragma] =>
    return { module, symbol, binding, line, level, pragma }
  | _ => .error .wrongCount

theorem ofValue_toValue (r : ImportRecord) : ofValue r.toValue = .ok r := rfl

def bindings (records : List ImportRecord) : List (Value × Value) :=
  (records.filter fun r => !r.binding.isNone).map fun r => (r.binding, r.line)

end ImportRecord

end ImportAtlas
