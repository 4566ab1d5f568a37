import ImportAtlas.Pattern.Sign
import ImportAtlas.Text.Name
import ImportAtlas.Text.Quoted
import ImportAtlas.Text.Whole

/-!
# Reading patterns

The text of a pattern is read from left to right, one item after another. A repetition sign applies to the
item before it; what cannot be repeated, closed or referred to makes the whole text no pattern.

Groups that are there for their parentheses only are dissolved, what all branches of a choice start with is put
before the choice, and a choice between single characters is a set.
-/

namespace ImportAtlas.Pattern

structure Flags where
  ignoreCase : Bool := false
  multiline : Bool := false
  dotAll : Bool := false
  /-- Blanks and remarks between the items are passed over. -/
  spaced : Bool := false
  ascii : Bool := false
  deriving DecidableEq, Repr

namespace PatternReader

/-! ## Characters and sets -/

def isHex (c : Char) : Bool :=
  c.isDigit || ('a' ≤ c && c ≤ 'f') || ('A' ≤ c && c ≤ 'F')

def hexCode (count : Nat) : PatternReader Nat := do
  let digits ← takeWhile count isHex
  if digits.length ≠ count then refuse
  match Text.numeral 16 digits with
  | some n => if n ≤ 0x10ffff then return n else refuse
  | none => refuse

def controlChar : Char → Option Char
  | 'a' => some '\x07'
  | 'f' => some '\x0c'
  | 'n' => some '\n'
  | 'r' => some '\r'
  | 't' => some '\t'
  | 'v' => some '\x0b'
  | _ => none

/-- The classes that have a letter, the capital one for what is outside. -/
def classItem : Char → Option SetItem
  | 'd' => some (.class .digit true)
  | 'D' => some (.class .digit false)
  | 's' => some (.class .blank true)
  | 'S' => some (.class .blank false)
  | 'w' => some (.class .word true)
  | 'W' => some (.class .word false)
  | _ => none

/-- A character after a backslash that means the same everywhere. What knows the names of characters is a module
that no search path holds here. -/
def plainEscape (c : Char) : PatternReader Nat := do
  match controlChar c with
  | some c => return c.toNat
  | none =>
    match c with
    | 'x' => hexCode 2
    | 'u' => hexCode 4
    | 'U' => hexCode 8
    | 'N' => throw .moduleNotFound
    | c => if c.isAlphanum then refuse else return c.toNat

/-- The character of an octal number, which has to be one of the first 256. -/
def octalCode (digits : List Char) : PatternReader Nat := do
  match Text.numeral 8 digits with
  | some n => if n ≤ 0o377 then return n else refuse
  | none => refuse

def setMember : PatternReader (Nat ⊕ SetItem) := do
  match ← next with
  | .plain c => return .inl c.toNat
  | .broken => refuse
  | .escaped c =>
    match classItem c with
    | some item => return .inr item
    | none =>
      if c = 'b' then return .inl 8
      else if Text.isOctal c then
        let more ← takeWhile 2 Text.isOctal
        return .inl (← octalCode (c :: more))
      else return .inl (← plainEscape c)

def itemOf : Nat ⊕ SetItem → SetItem
  | .inl code => .char code
  | .inr item => item

/-- The members of a set up to its bracket, which is a member if it comes first. -/
def setItems : Nat → List SetItem → PatternReader (List SetItem)
  | 0, _ => refuse
  | fuel + 1, items => do
    if (← peek) = some (.plain ']') && !items.isEmpty then
      advance 1
      return items
    let low ← setMember
    if !(← accept '-') then setItems fuel (itemOf low :: items)
    else if ← accept ']' then return .char '-'.toNat :: itemOf low :: items
    else
      match low, ← setMember with
      | .inl low, .inl high => if high < low then refuse else setItems fuel (.range low high :: items)
      | _, _ => refuse

def setOf (flags : Flags) (items : List SetItem) (inverted : Bool) : Pattern :=
  .one { items, inverted, ignoreCase := flags.ignoreCase, ascii := flags.ascii }

def charPattern (flags : Flags) (code : Nat) : Pattern :=
  setOf flags [.char code] false

def set (flags : Flags) : PatternReader Pattern := do
  let inverted ← accept '^'
  let items ← setItems ((← get).rest.length + 1) []
  return setOf flags items.reverse.eraseDups inverted

/-! ## References -/

/-- A group may be referred to once it is closed, and inside a look behind only if it is older than that. -/
def checkReference (older : Option Nat) (index : Nat) : PatternReader Unit := do
  if ((← get).closed.lookup index).isNone then refuse
  match older with
  | some limit => if limit ≤ index then refuse
  | none => pure ()

def reference (flags : Flags) (older : Option Nat) (index : Nat) : PatternReader Pattern := do
  checkReference older index
  return .back index flags.ignoreCase flags.ascii

/-- A number after a backslash: an octal character of three digits, or a reference to a group. -/
def numbered (flags : Flags) (older : Option Nat) (first : Char) : PatternReader Pattern := do
  let second ← takeWhile 1 Char.isDigit
  let third ← if Text.isOctal first && second.any Text.isOctal then takeWhile 1 Text.isOctal else pure []
  if !third.isEmpty then return charPattern flags (← octalCode (first :: second ++ third))
  match Text.numeral 10 (first :: second) with
  | some index => reference flags older index
  | none => refuse

def escape (flags : Flags) (older : Option Nat) (c : Char) : PatternReader Pattern := do
  match classItem c with
  | some item => return setOf flags [item] false
  | none =>
    match c with
    | 'A' => return .anchor .textStart
    | 'Z' => return .anchor .textEnd
    | 'b' => return .anchor (.edge flags.ascii true)
    | 'B' => return .anchor (.edge flags.ascii false)
    | '0' =>
      let more ← takeWhile 2 Text.isOctal
      return charPattern flags (← octalCode ('0' :: more))
    | c =>
      if c.isDigit then numbered flags older c
      else return charPattern flags (← plainEscape c)

/-! ## Repetitions -/

/-- So many repetitions are never asked for. -/
def repetitionLimit : Nat := 4294967295

def bound (digits : List Char) : PatternReader (Option Nat) :=
  if digits.isEmpty then return none
  else
    match Text.numeral 10 digits with
    | some n => if n < repetitionLimit then return some n else throw .tooGreat
    | none => return none

def braces : PatternReader (Option (Nat × Option Nat)) := do
  let start ← get
  if (← peek) = some (.plain '\x7d') then return none
  let low ← takeWhile start.rest.length Char.isDigit
  let comma ← accept ','
  let high ← if comma then takeWhile start.rest.length Char.isDigit else pure low
  if !(← accept '\x7d') then
    MonadStateOf.set start
    return none
  let least := (← bound low).getD 0
  let most ← bound high
  match most with
  | some m => if m < least then refuse
  | none => pure ()
  return some (least, most)

def eagerness : PatternReader Eagerness := do
  if ← accept '?' then return .lazy
  if ← accept '+' then return .possessive
  return .greedy

inductive Piece where
  | item (p : Pattern)
  /-- A group that is there for its parentheses only, as its items. -/
  | plain (items : List Pattern)

def Piece.items : Piece → List Pattern
  | item p => [p]
  | plain items => items

/-- The last piece repeated. Anchors and repetitions themselves cannot be. -/
def repeatPiece (least : Nat) (most : Option Nat) : List Piece → PatternReader (List Piece)
  | [] => refuse
  | .item (.anchor _) :: _ => refuse
  | .item (.repeated _ _ _ _) :: _ => refuse
  | piece :: before => do
    modify fun s => { s with repeats := true }
    return .item (.repeated least most (← eagerness) (sequence piece.items)) :: before

/-! ## Flags -/

def Flags.put (value : Bool) (flags : Flags) : Char → Flags
  | 'i' => { flags with ignoreCase := value }
  | 'm' => { flags with multiline := value }
  | 's' => { flags with dotAll := value }
  | 'x' => { flags with spaced := value }
  | 'a' => { flags with ascii := value }
  | 'u' => { flags with ascii := !value }
  | _ => flags

inductive FlagScope where
  | whole (on : List Char)
  /-- The group that they open: what is switched on there, and what is switched off. -/
  | part (on off : List Char)

def isFlag (c : Char) : Bool :=
  c ∈ ['i', 'L', 'm', 's', 'x', 'a', 't', 'u']

def isKindFlag (c : Char) : Bool :=
  c ∈ ['a', 'L', 'u']

/-- The letters of flags. Those that say which characters count as letters exclude each other and cannot be
switched off, one of them is not for texts at all, and another one is for whole patterns only. -/
def flagScope : PatternReader FlagScope := do
  let limit := (← get).rest.length
  let on ← takeWhile limit isFlag
  if 'L' ∈ on || ('a' ∈ on && 'u' ∈ on) then refuse
  if on.isEmpty && (← peek) ≠ some (.plain '-') then refuse
  if ← accept ')' then return .whole on
  let off ← if ← accept '-' then do
      let off ← takeWhile limit isFlag
      if off.isEmpty || off.any isKindFlag then refuse
      pure off
    else pure []
  expect ':'
  if 't' ∈ on ++ off || on.any (· ∈ off) then refuse
  return .part on off

def isSpacing (c : Char) : Bool :=
  c = ' ' || (9 ≤ c.toNat && c.toNat ≤ 13)

/-- Flags for the whole pattern stand at its start, before any item. -/
def leadingFlags : Nat → List Char → PatternReader (List Char)
  | 0, letters => return letters
  | fuel + 1, letters => do
    let start ← get
    match start.rest with
    | .plain '(' :: .plain '?' :: .plain c :: _ =>
      if c = '#' then
        let _ ← takeUntil ')'
        leadingFlags fuel letters
      else if isFlag c then
        advance 2
        match ← flagScope with
        | .whole on => leadingFlags fuel (letters ++ on)
        | .part _ _ =>
          MonadStateOf.set start
          return letters
      else return letters
    | .plain c :: _ =>
      if 'x' ∉ letters then return letters
      else if isSpacing c then
        advance 1
        leadingFlags fuel letters
      else if c = '#' then
        skipLine
        leadingFlags fuel letters
      else return letters
    | _ => return letters

/-! ## Choices -/

/-- An item that can be put before a choice if all branches start with it. -/
def isShared : Pattern → Bool
  | .one _ => true
  | .anchor _ => true
  | .back _ _ _ => true
  | _ => false

def sharedStart : List Pattern → List (List Pattern) → List Pattern
  | p :: first, others =>
    if isShared p && others.all (·.head? = some p) then p :: sharedStart first (others.map List.tail) else []
  | [], _ => []

def listed? : List Pattern → Option CharSet
  | [.one set] => if set.inverted then none else some set
  | _ => none

def choiceOf : List (List Pattern) → List Pattern
  | [] => []
  | [items] => items
  | first :: others =>
    let shared := sharedStart first others
    let branches := (first :: others).map (List.drop shared.length)
    match branches.mapM listed? with
    | some (set :: sets) =>
      shared ++ [.one { set with items := ((set :: sets).flatMap (·.items)).eraseDups }]
    | _ => shared ++ [choice (branches.map sequence)]

/-! ## Items and groups -/

def condition (name : List Char) : PatternReader Nat := do
  if Text.isName name then
    match (← get).names.lookup (String.ofList name) with
    | some index => return index
    | none => refuse
  else
    match Text.signed? 10 (String.ofList name) with
    | some (.ofNat (index + 1)) =>
      modify fun s => { s with conditions := (index + 1) :: s.conditions }
      return index + 1
    | _ => refuse

/-- A look behind goes as far as its body is wide, which has to be one number, and not too great. -/
def lookBehind (wanted : Bool) (body : Pattern) : PatternReader Pattern := do
  let (least, most) := body.width (← get).closed
  if most ≠ some least || repetitionLimit < least then modify fun s => { s with looseLook := true }
  return .behind least wanted body

mutual

def branches (flags : Flags) (older : Option Nat) (before : List (List Pattern)) :
    Nat → PatternReader (List Pattern)
  | 0 => refuse
  | fuel + 1 => do
    let items ← items flags older [] fuel
    if ← accept '|' then branches flags older (before ++ [items]) fuel
    else return choiceOf (before ++ [items])

/-- The items up to the end of a branch; `before` holds the pieces that have been read, the last one first. -/
def items (flags : Flags) (older : Option Nat) (before : List Piece) : Nat → PatternReader (List Pattern)
  | 0 => refuse
  | fuel + 1 => do
    let whole := before.reverse.flatMap Piece.items
    let one (p : Pattern) := items flags older (.item p :: before) fuel
    let repeated (least : Nat) (most : Option Nat) : PatternReader (List Pattern) := do
      items flags older (← repeatPiece least most before) fuel
    match ← peek with
    | none => return whole
    | some (.plain '|') => return whole
    | some (.plain ')') => return whole
    | some .broken => refuse
    | some (.escaped c) =>
      advance 1
      one (← escape flags older c)
    | some (.plain c) =>
      advance 1
      if flags.spaced && isSpacing c then items flags older before fuel
      else if flags.spaced && c = '#' then
        skipLine
        items flags older before fuel
      else
        match c with
        | '[' => one (← set flags)
        | '.' => one (setOf flags (if flags.dotAll then [] else [.char 10]) true)
        | '^' => one (.anchor (if flags.multiline then .lineStart else .textStart))
        | '$' => one (.anchor (if flags.multiline then .lineEnd else .finalEnd))
        | '*' => repeated 0 none
        | '+' => repeated 1 none
        | '?' => repeated 0 (some 1)
        | '\x7b' =>
          match ← braces with
          | some (least, most) => repeated least most
          | none => one (charPattern flags c.toNat)
        | '(' =>
          match ← group flags older fuel with
          | some piece => items flags older (piece :: before) fuel
          | none => items flags older before fuel
        | c => one (charPattern flags c.toNat)

def enclosed (flags : Flags) (older : Option Nat) : Nat → PatternReader (List Pattern)
  | 0 => refuse
  | fuel + 1 => do
    let body ← branches flags older [] fuel
    expect ')'
    return body

def captured (flags : Flags) (older : Option Nat) (name : Option String) : Nat → PatternReader Piece
  | 0 => refuse
  | fuel + 1 => do
    let index := (← get).opened
    modify fun s => { s with opened := index + 1, names := s.names ++ name.toList.map fun n => (n, index) }
    let body := sequence (← enclosed flags older fuel)
    modify fun s => { s with closed := (index, body.width s.closed) :: s.closed }
    return .item (.group (some index) body)

/-- What stands in parentheses after the opening one; nothing if it is a remark. -/
def group (flags : Flags) (older : Option Nat) : Nat → PatternReader (Option Piece)
  | 0 => refuse
  | fuel + 1 => do
    if !(← accept '?') then return some (← captured flags older none fuel)
    match ← peek with
    | some (.plain c) =>
      if isFlag c || c = '-' then
        match ← flagScope with
        | .whole _ => refuse
        | .part on off =>
          let flags := off.foldl (Flags.put false) (on.foldl (Flags.put true) flags)
          return some (.item (.group none (sequence (← enclosed flags older fuel))))
      else
        advance 1
        match c with
        | ':' => return some (.plain (← enclosed flags older fuel))
        | '>' => return some (.item (.atomic (sequence (← enclosed flags older fuel))))
        | '=' => return some (.item (.ahead true (sequence (← enclosed flags older fuel))))
        | '!' => return some (.item (.ahead false (sequence (← enclosed flags older fuel))))
        | '#' =>
          let _ ← takeUntil ')'
          return none
        | '<' =>
          let wanted ← match ← next with
            | .plain '=' => pure true
            | .plain '!' => pure false
            | _ => refuse
          let body ← enclosed flags (some (older.getD (← get).opened)) fuel
          return some (.item (← lookBehind wanted (sequence body)))
        | 'P' => named flags older fuel
        | '(' =>
          let index ← condition (← takeUntil ')')
          if older.isSome then checkReference older index
          let yes ← items flags older [] fuel
          let no ← if ← accept '|' then items flags older [] fuel else pure []
          expect ')'
          return some (.item (.ifGroup index (sequence yes) (sequence no)))
        | _ => refuse
    | _ => refuse

def named (flags : Flags) (older : Option Nat) : Nat → PatternReader (Option Piece)
  | 0 => refuse
  | fuel + 1 => do
    if ← accept '<' then
      let name ← takeUntil '>'
      if !Text.isName name then refuse
      if ((← get).names.lookup (String.ofList name)).isSome then refuse
      return some (← captured flags older (some (String.ofList name)) fuel)
    else
      expect '='
      let name ← takeUntil ')'
      if !Text.isName name then refuse
      match (← get).names.lookup (String.ofList name) with
      | some index => return some (.item (← reference flags older index))
      | none => refuse

end

/-- A whole pattern. What is wrong with it as a whole is found after all that is wrong with its parts. -/
def whole (fuel : Nat) : PatternReader Pattern := do
  advance 0
  let letters ← leadingFlags fuel []
  let items ← branches (letters.foldl (Flags.put true) {}) none [] fuel
  if 'a' ∈ letters && 'u' ∈ letters then throw .clashingFlags
  let s ← get
  if !s.rest.isEmpty || s.conditions.any (s.opened ≤ ·) then refuse
  if s.looseLook || (s.repeats && 't' ∈ letters) then refuse
  return sequence items

end PatternReader

def read (text : String) : Except Fault Pattern :=
  match PatternReader.whole (4 * text.length + 8) { rest := Sign.ofChars text.toList } with
  | .ok p _ => .ok p
  | .error fault _ => .error fault

end ImportAtlas.Pattern
