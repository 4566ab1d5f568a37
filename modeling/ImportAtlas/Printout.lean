import ImportAtlas.Fault

/-!
# Printouts

A text that is written piece by piece, as far as it got. After a fault nothing more is written, and what
stands before it stays.
-/

namespace ImportAtlas

structure Printout where
  text : String
  /-- Why the text ends where it does, if it should go on. -/
  fault : Option Fault := none
  deriving DecidableEq, Repr

namespace Printout

/-- One printout after another; nothing comes after a fault. -/
def append (p q : Printout) : Printout :=
  match p.fault with
  | some _ => p
  | none => { q with text := p.text ++ q.text }

instance : Append Printout where
  append := append

def of (text : String) : Printout :=
  { text }

def stopped (fault : Fault) : Printout :=
  { text := "", fault := some fault }

def join (between : String) : List Printout → Printout
  | [] => of ""
  | [p] => p
  | p :: rest => p ++ (of between ++ join between rest)

def finished (p : Printout) : Except Fault String :=
  match p.fault with
  | some fault => .error fault
  | none => .ok p.text

theorem append_eq (p q : Printout) : p ++ q = append p q :=
  rfl

end Printout

end ImportAtlas
