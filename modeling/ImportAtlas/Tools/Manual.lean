import ImportAtlas.Options
import ImportAtlas.Session

/-!
# How programs are used

Every program has a name and a text about its use, which is shown when it is called in a wrong way.
-/

namespace ImportAtlas

structure Manual where
  program : String
  text : String

namespace Run

def misused {α : Type} (manual : Manual) (complaint : String) : Run α := do
  printError ("Usage: " ++ manual.text ++ "\n\n" ++ manual.program ++ ": error: " ++ complaint ++ "\n")
  throw (.exit (.code 2))

/-- Reads options. What they have changed stays changed in the session, also if one of them is wrong. -/
def options {σ : Type} (manual : Manual) (flags : List (Flag σ)) (start : σ)
    (keep : σ → Session → Session) (arguments : List String) : Run (σ × List String) := do
  match Options.read flags arguments start with
  | .ok rest settings =>
    modify (keep settings)
    return (settings, rest)
  | .error misuse settings =>
    modify (keep settings)
    if misuse = .asksHelp then
      print ("Usage: " ++ manual.text ++ "\n")
      throw (.exit (.code 0))
    misused manual misuse.message

def ownOptions {σ : Type} (manual : Manual) (flags : List (Flag σ)) (start : σ)
    (arguments : List String) : Run (σ × List String) :=
  options manual flags start (fun _ s => s) arguments

end Run

end ImportAtlas
