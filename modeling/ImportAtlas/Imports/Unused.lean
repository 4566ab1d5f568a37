import ImportAtlas.Imports.Record
import ImportAtlas.Tree.Exported
import ImportAtlas.Tree.Names

/-!
# Unused imports

An import is used if the name that it binds is referred to, or is exported.
-/

namespace ImportAtlas

structure Usage where
  used : List Value := []
  unused : List Value := []

namespace Usage

def usedNames (t : Tree) : Except Fault (List Value) := do
  let uses ← t.nameUses
  let exported ← t.exports
  let exported ← exported.mapM fun p => p.1.asKey
  return uses.dotted.map (fun p => .str p.1) ++ exported

def step (names : List Value) (s : Usage) (v : Value) : Except Fault Usage := do
  let r ← ImportRecord.ofValue v
  if r.binding.isNone then return { s with used := s.used ++ [v] }
  let binding ← r.binding.asKey
  if binding.among names then return { s with used := s.used ++ [v] }
  else return { s with unused := s.unused ++ [v] }

def split (t : Tree) (records : List Value) : Except Fault Usage := do
  let names ← usedNames t
  records.foldlM (step names) {}

end Usage

end ImportAtlas
