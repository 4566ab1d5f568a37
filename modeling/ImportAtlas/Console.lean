import ImportAtlas.Text.Basic

/-!
# Console

What a program has still to read, and what it has written so far: to its output, to its error stream, and as
messages of some level. Messages reach the error stream in the style that the program has chosen; they are also
kept as they are.
-/

namespace ImportAtlas

inductive Level where
  | debug
  | info
  | warning
  | error
  deriving DecidableEq, Repr

namespace Level

def number : Level → Nat
  | debug => 10
  | info => 20
  | warning => 30
  | error => 40

def label : Level → String
  | debug => "DEBUG"
  | info => "INFO"
  | warning => "WARNING"
  | error => "ERROR"

/-- The level from which messages are shown, for the given loudness. -/
def ofVerbosity : Int → Option Level
  | -1 => some error
  | 0 => some warning
  | 1 => some info
  | 2 => some debug
  | _ => none

end Level

inductive MessageStyle where
  /-- Warnings and errors, with their level and source before them. -/
  | tagged
  /-- Messages from a level on, with their level in a column before them. -/
  | columns (least : Level)
  deriving DecidableEq, Repr

def MessageStyle.shown (style : MessageStyle) (level : Level) (message : String) : String :=
  match style with
  | tagged =>
    if Level.warning.number ≤ level.number then level.label ++ ":root:" ++ message ++ "\n" else ""
  | columns least =>
    if least.number ≤ level.number then Text.padRight level.label 12 ++ ": " ++ message ++ "\n" else ""

structure Console where
  /-- The standard input that has not been read. -/
  input : String := ""
  out : String := ""
  err : String := ""
  /-- All messages, shown or not. -/
  messages : List (Level × String) := []
  style : MessageStyle := .tagged

namespace Console

def print (text : String) (c : Console) : Console :=
  { c with out := c.out ++ text }

def printError (text : String) (c : Console) : Console :=
  { c with err := c.err ++ text }

def message (level : Level) (text : String) (c : Console) : Console :=
  { c with
    err := c.err ++ c.style.shown level text
    messages := c.messages ++ [(level, text)] }

end Console

end ImportAtlas
