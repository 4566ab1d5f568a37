import ImportAtlas.Text.Quoted
import ImportAtlas.Text.Whole

/-!
# Command line options

Options and arguments may be mixed. A short option is a letter after a dash, and several may share one dash;
a long option is a word after two dashes, and may be cut short as long as it stays the only one. A value follows
its option directly, after an equals sign, or as the next argument. Two dashes alone end the options.

Options take effect one by one, so those before a misuse have had theirs.
-/

namespace ImportAtlas

inductive Effect (σ : Type) where
  | set (change : σ → σ)
  | text (change : String → σ → σ)
  | whole (change : Int → σ → σ)
  | help

structure Flag (σ : Type) where
  names : List String
  effect : Effect σ

inductive Misuse where
  | unknown (name : String)
  | ambiguous (name : String) (candidates : List String)
  | lacksValue (name : String)
  | takesNoValue (name : String)
  | notWhole (name value : String)
  /-- Nothing is wrong, but the program has only to say how it is used. -/
  | asksHelp
  deriving DecidableEq, Repr

def Misuse.message : Misuse → String
  | unknown name => "no such option: " ++ name
  | ambiguous name candidates => "ambiguous option: " ++ name ++ " (" ++ ", ".intercalate candidates ++ "?)"
  | lacksValue name => name ++ " option requires 1 argument"
  | takesNoValue name => name ++ " option does not take a value"
  | notWhole name value => "option " ++ name ++ ": invalid integer value: " ++ Text.quoted value
  | asksHelp => ""

namespace Options

/-! ## Whole numbers -/

/-- A whole number: hexadecimal, binary or octal if it starts with a zero and the mark of that base, octal also
with a zero alone. -/
def whole? (text : String) : Option Int :=
  match text.toList with
  | '0' :: c :: rest =>
    if c.toLower = 'x' then Text.signed? 16 text
    else if c.toLower = 'b' then if rest.isEmpty then some 0 else Text.signed? 2 (String.ofList rest)
    else Text.signed? 8 text
  | ['0'] => some 0
  | _ => Text.signed? 10 text

/-! ## Reading -/

abbrev Reader (σ : Type) := EStateM Misuse σ

variable {σ : Type} (flags : List (Flag σ))

def withHelp : List (Flag σ) :=
  { names := ["-h", "--help"], effect := .help } :: flags

def find? (name : String) : Option (Effect σ) :=
  ((withHelp flags).find? fun flag => name ∈ flag.names).map (·.effect)

def complete (word : String) : Except Misuse String :=
  let long := ((withHelp flags).flatMap (·.names)).filter fun name => Text.beginsWith name "--"
  if word ∈ long then .ok word
  else
    match long.filter fun name => Text.beginsWith name word with
    | [] => .error (.unknown word)
    | [name] => .ok name
    | names => .error (.ambiguous word (Text.sort names))

structure Waiting (σ : Type) where
  name : String
  effect : Effect σ

def give (w : Waiting σ) (value : String) : Reader σ Unit :=
  match w.effect with
  | .text change => modify (change value)
  | .whole change =>
    match whole? value with
    | some n => modify (change n)
    | none => throw (.notWhole w.name value)
  | _ => throw (.takesNoValue w.name)

def meet (name : String) (effect : Effect σ) : Reader σ (Option (Waiting σ)) :=
  match effect with
  | .set change => do
    modify change
    return none
  | .help => throw .asksHelp
  | effect => return some { name, effect }

def long (argument : String) : Reader σ (Option (Waiting σ)) := do
  let chars := argument.toList
  let word := String.ofList (chars.takeWhile (· ≠ '='))
  match complete flags word with
  | .error misuse => throw misuse
  | .ok name =>
    match find? flags name, chars.dropWhile (· ≠ '=') with
    | none, _ => throw (.unknown name)
    | some effect, [] => meet name effect
    | some effect, _ :: value =>
      give { name, effect } (String.ofList value)
      return none

/-- Short options that share a dash. What follows one that takes a value is that value. -/
def cluster : List Char → Reader σ (Option (Waiting σ))
  | [] => return none
  | c :: rest => do
    let name := String.ofList ['-', c]
    match find? flags name with
    | none => throw (.unknown name)
    | some effect =>
      match ← meet name effect with
      | none => cluster rest
      | some w =>
        if rest.isEmpty then return some w
        give w (String.ofList rest)
        return none

def readFrom (waiting : Option (Waiting σ)) : List String → Reader σ (List String)
  | [] =>
    match waiting with
    | some w => throw (.lacksValue w.name)
    | none => return []
  | argument :: more =>
    match waiting with
    | some w => do
      give w argument
      readFrom none more
    | none => do
      if argument = "--" then return more
      else if Text.beginsWith argument "--" then readFrom (← long flags argument) more
      else if Text.beginsWith argument "-" && argument ≠ "-" then
        readFrom (← cluster flags (argument.toList.drop 1)) more
      else return argument :: (← readFrom none more)

def read (arguments : List String) : Reader σ (List String) :=
  readFrom flags none arguments

end Options

end ImportAtlas
