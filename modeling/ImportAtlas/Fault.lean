/-!
# Faults

Why an analysis or a tool stops. A fault names the cause; what a reader of the command line sees of it
is decided where it is shown.
-/

namespace ImportAtlas

/-- How the front end that builds trees refuses a source text. -/
inductive Refusal where
  /-- The text is no program; `line` is where, if known. -/
  | malformed (line : Option Int)
  | badIndentation (line : Option Int)
  | badTabs (line : Option Int)
  /-- The text is not of a kind that can be read at all. -/
  | notText
  | badContent
  | tooDeep
  deriving DecidableEq, Repr

/-- With what a program ends: a number, or a last message in its place. -/
inductive ExitStatus where
  | code (n : Int)
  | message (text : String)
  deriving DecidableEq, Repr

inductive Fault where
  /-- A value is of a kind that the operation does not take. -/
  | wrongKind
  /-- A value lacks the operation that is asked of it. -/
  | noOperation
  /-- A group of values has more or fewer parts than its place wants. -/
  | wrongCount
  | outOfRange
  | missingKey
  | optionsUnset
  | badPattern
  /-- A number beyond what can be counted. -/
  | tooGreat
  | clashingFlags
  /-- A match leaves a group with its end before its start. -/
  | tangledGroups
  /-- A condition that the callers promise does not hold. -/
  | brokenPromise
  /-- Calls stand in one another too deeply, as in a chain that leads back to itself. -/
  | tooDeep
  /-- No fault at all: a loop goes on for ever, and nothing is raised. -/
  | endless
  | noSuchFile
  | fileExists
  | isDirectory
  | notDirectory
  | sameFile
  | tooManyLinks
  /-- A module that is there could not be loaded. -/
  | loadFailed (message : String)
  | moduleNotFound
  | malformedSource
  /-- The encoding that a source declares is none of texts. -/
  | noTextEncoding
  | undecodable
  | unreadable
  | divisionByZero
  /-- A source text without a tree, and the words of the refusal. -/
  | refused (cause : Refusal) (message : String)
  /-- The program ends here on its own account. -/
  | exit (status : ExitStatus)
  deriving DecidableEq, Repr

/-- The fault is one that a call raises. -/
def Fault.Raised (fault : Fault) : Prop := fault ≠ .endless

instance (fault : Fault) : Decidable fault.Raised := inferInstanceAs (Decidable (fault ≠ .endless))

/-- A computation that only answers or stops may stand in one that also keeps a state. -/
instance {σ : Type} : MonadLift (Except Fault) (EStateM Fault σ) where
  monadLift
    | .ok a => pure a
    | .error fault => throw fault

end ImportAtlas
