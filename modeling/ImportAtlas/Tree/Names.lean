import ImportAtlas.Tree.Visitor

/-!
# Names in use

Every name that a program refers to, with the attributes taken of it: for `a.b.c` the names `a`, `a.b`
and `a.b.c`. Attributes wait until the name at the root of their chain is met.
-/

namespace ImportAtlas

structure NameUses where
  /-- The names with their attributes, every prefix of a chain on its own. -/
  dotted : List (String × Value) := []
  /-- The names at the root of the chains. -/
  simple : List (String × Value) := []
  /-- The attributes that wait for their root, the outermost first. -/
  pending : List Value := []

namespace NameUses

def prefixes (chain : List String) : List String :=
  (List.range chain.length).map fun n => ".".intercalate (chain.take (n + 1))

def leadingTexts : List Value → List String
  | .str s :: rest => s :: leadingTexts rest
  | _ => []

/-- A name is the root of all the attributes that wait. A chain is followed as far as it is made of texts. -/
def meet (name : Value) (line : Value) : Walk NameUses Unit := do
  let uses ← get
  let chain := (uses.pending ++ [name]).reverse
  let known := leadingTexts chain
  let dotted := uses.dotted ++ (prefixes known).map fun n => (n, line)
  if known.length = chain.length then
    set { uses with dotted, simple := uses.simple ++ (known.take 1).map fun n => (n, line), pending := [] }
  else
    set { uses with dotted, pending := chain }
    throw .wrongKind

def visitor : Visitor NameUses where
  enter t :=
    match t.kind? with
    | some .name => meet (t.datum 0) t.line
    | some .attribute => modify fun uses => { uses with pending := uses.pending ++ [t.datum 1] }
    | _ => pure ()
  descends t := !t.isA .name
  leave _ _ after := after

end NameUses

def Tree.nameUses (t : Tree) : Except Fault NameUses :=
  NameUses.visitor.collect {} t

end ImportAtlas
