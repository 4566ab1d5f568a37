import ImportAtlas.Text.Quoted
import ImportAtlas.Text.Word

/-!
# Tokens

A line of text as a list of tokens: texts in quotes, numbers, words and single marks. Gaps between tokens and
a remark at the end are dropped. What is no token, or a bracket without its partner, makes the line unreadable,
and the first of these says why.
-/

namespace ImportAtlas

inductive Token where
  | text (s : String)
  | number (n : Nat)
  | word (s : String)
  | mark (c : Char)
  | bad (reason : String)
  deriving DecidableEq, Repr

namespace Token

def isGap (c : Char) : Bool :=
  c = ' ' || c = '\t' || c = '\n' || c = '\r' || c = '\x0c'

def isQuote (c : Char) : Bool :=
  c = '\'' || c = '"'

/-- The words that may stand before a quote; with some of them backslashes are plain characters. -/
def rawMark? (word : List Char) : Option Bool :=
  if word = ['r'] ∨ word = ['R'] then some true
  else if word = ['u'] ∨ word = ['U'] then some false
  else none

def ofBody (raw : Bool) (body : List Char) : Token :=
  if raw then .text (String.ofList body)
  else
    match Text.unescape body with
    | some chars => .text (String.ofList chars)
    | none => .bad "(unicode error) truncated escape"

def ofDigits (digits : List Char) : Token :=
  if digits.head? = some '0' ∧ digits.any (· ≠ '0') then
    .bad "leading zeros in decimal integer literals are not permitted; use an 0o prefix for octal integers"
  else .number ((Text.numeral 10 digits).getD 0)

def unterminated : Token :=
  .bad "unterminated string literal (detected at line 1)"

theorem bodyOf_length {quote : Char} {cs body rest : List Char}
    (h : Text.bodyOf quote cs = some (body, rest)) : rest.length < cs.length := by
  fun_induction Text.bodyOf quote cs generalizing body with
  | case1 c cs ih =>
    obtain ⟨⟨b, r⟩, hb, he⟩ := Option.map_eq_some_iff.1 h
    simp only [Prod.mk.injEq] at he
    have := ih (he.2 ▸ hb)
    simp only [List.length_cons]
    omega
  | case2 cs =>
    simp only [Option.some.injEq, Prod.mk.injEq] at h
    simp [h.2]
  | case3 => simp at h
  | case4 c cs _ _ _ ih =>
    obtain ⟨⟨b, r⟩, hb, he⟩ := Option.map_eq_some_iff.1 h
    simp only [Prod.mk.injEq] at he
    have := ih (he.2 ▸ hb)
    simp only [List.length_cons]
    omega
  | case5 => simp at h

/-- The tokens of a line. A number sign starts a remark that takes the rest. -/
def ofChars : List Char → List Token
  | [] => []
  | c :: cs =>
    if isGap c then ofChars cs
    else if c = '#' then []
    else if isQuote c then
      match h : Text.bodyOf c cs with
      | some (body, rest) =>
        have := bodyOf_length h
        ofBody false body :: ofChars rest
      | none => [unterminated]
    else if c.isDigit then
      ofDigits (c :: cs.takeWhile Char.isDigit) :: ofChars (cs.dropWhile Char.isDigit)
    else if Text.isWord c then
      let word := c :: cs.takeWhile Text.isWord
      match h : cs.dropWhile Text.isWord with
      | [] => [.word (String.ofList word)]
      | q :: after =>
        have : (q :: after).length ≤ cs.length := h ▸ (List.dropWhile_suffix Text.isWord).length_le
        match rawMark? word with
        | none => .word (String.ofList word) :: ofChars (q :: after)
        | some raw =>
          if isQuote q then
            match h' : Text.bodyOf q after with
            | some (body, rest) =>
              have := bodyOf_length h'
              ofBody raw body :: ofChars rest
            | none => [unterminated]
          else .word (String.ofList word) :: ofChars (q :: after)
    else .mark c :: ofChars cs
termination_by cs => cs.length
decreasing_by
  · exact Nat.lt_succ_self _
  · exact Nat.lt_succ_of_lt this
  · exact Nat.lt_succ_of_le (List.dropWhile_suffix Char.isDigit).length_le
  · exact Nat.lt_succ_of_le this
  · have h₁ : (q :: after).length ≤ cs.length := ‹_›
    exact Nat.lt_of_lt_of_le this (Nat.le_succ_of_le (Nat.le_of_succ_le h₁))
  · exact Nat.lt_succ_of_le this
  · exact Nat.lt_succ_self _

/-! ## Brackets -/

inductive Bracket where
  | round
  | square
  deriving DecidableEq, Repr

namespace Bracket

def opener : Bracket → Char
  | round => '('
  | square => '['

def closer : Bracket → Char
  | round => ')'
  | square => ']'

def opened? (c : Char) : Option Bracket :=
  if c = '(' then some round else if c = '[' then some square else none

def closed? (c : Char) : Option Bracket :=
  if c = ')' then some round else if c = ']' then some square else none

end Bracket

def shown (c : Char) : String :=
  "'" ++ String.singleton c ++ "'"

/-- The first thing that makes a line unreadable, `pending` being the brackets that are open, the innermost
first. A bracket that stays open is no hindrance here. -/
def flaw? (pending : List Bracket) : List Token → Option String
  | [] => none
  | .bad reason :: _ => some reason
  | .mark c :: rest =>
    match Bracket.opened? c, Bracket.closed? c, pending with
    | some b, _, _ => flaw? (b :: pending) rest
    | none, none, _ => flaw? pending rest
    | none, some _, [] => some ("unmatched " ++ shown c)
    | none, some b, inner :: outer =>
      if b = inner then flaw? outer rest
      else some ("closing parenthesis " ++ shown c ++ " does not match opening parenthesis " ++
        shown inner.opener)
  | _ :: rest => flaw? pending rest

end Token

end ImportAtlas
