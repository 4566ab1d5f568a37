import ImportAtlas.Fault
import ImportAtlas.Pattern.Basic

/-!
# Matching

A pattern is matched from left to right together with the rest of what is asked. Where there is a choice the
preferred way is tried first, and the next one if the rest fails.

What groups have matched is kept in slots. A way that failed may leave its traces there: outside repetitions
only the slots that it added are taken back, inside them all slots are.
-/

namespace ImportAtlas.Pattern

/-- Where the groups start and end, as far as they have been met; two slots for each group. -/
abbrev Slots := List (Option Nat)

namespace Slots

/-- The place is written into a slot, and slots before it that are not there yet stay open. -/
def put (slots : Slots) (index place : Nat) : Slots :=
  if index < slots.length then slots.set index (some place)
  else slots ++ List.replicate (index - slots.length) none ++ [some place]

def startOf (index : Nat) : Nat := 2 * index - 2

def endOf (index : Nat) : Nat := 2 * index - 1

def bounds? (slots : Slots) (index : Nat) : Option (Nat × Nat) :=
  match slots[startOf index]?, slots[endOf index]? with
  | some (some start), some (some stop) => some (start, stop)
  | _, _ => none

/-- The part of the text that a group has matched. A group that has been entered again and not left yet may start
after its end, and has no part then. -/
def span? (slots : Slots) (index : Nat) : Option (Nat × Nat) :=
  (slots.bounds? index).filter fun (start, stop) => start ≤ stop

def restored (inside : Bool) (before after : Slots) : Slots :=
  if inside then before else after.take before.length

def tangled (slots : Slots) : Bool :=
  (List.range slots.length).any fun i =>
    match slots.bounds? (i + 1) with
    | some (start, stop) => stop < start
    | none => false

end Slots

inductive Attempt where
  | success (place : Nat) (slots : Slots)
  | failure (slots : Slots)
  deriving DecidableEq, Repr

def Attempt.otherwise (a : Attempt) (next : Slots → Attempt) : Attempt :=
  match a with
  | success place slots => success place slots
  | failure slots => next slots

abbrev Rest := Nat → Slots → Attempt

/-! ## Repetitions -/

def tryEach (rest : Rest) (restore : Slots → Slots) : List Nat → Slots → Attempt
  | [], slots => .failure slots
  | place :: places, slots => (rest place slots).otherwise fun after => tryEach rest restore places (restore after)

def mayGrow (most : Option Nat) (count : Nat) : Bool :=
  match most with
  | some most => count < most
  | none => true

/-- As many repetitions as possible, then fewer. Once there are enough, a repetition starts only where the last one
has not, so the length of the text bounds their number. -/
def greedy (step : Rest → Rest) (least : Nat) (most : Option Nat) (rest : Rest) :
    Nat → Nat → Option Nat → Rest
  | 0, _, _, _, slots => .failure slots
  | fuel + 1, count, last, place, slots =>
    if count < least then step (greedy step least most rest fuel (count + 1) last) place slots
    else if mayGrow most count && last ≠ some place then
      (step (greedy step least most rest fuel (count + 1) (some place)) place slots).otherwise fun _ =>
        rest place slots
    else rest place slots

def lazy (step : Rest → Rest) (least : Nat) (most : Option Nat) (inside : Bool) (rest : Rest) :
    Nat → Nat → Option Nat → Rest
  | 0, _, _, _, slots => .failure slots
  | fuel + 1, count, last, place, slots =>
    if count < least then step (lazy step least most inside rest fuel (count + 1) last) place slots
    else
      (rest place slots).otherwise fun after =>
        let slots := slots.restored inside after
        if mayGrow most count && last ≠ some place then
          step (lazy step least most inside rest fuel (count + 1) (some place)) place slots
        else .failure slots

/-- As many repetitions as possible, each as it is preferred, and no second thoughts. -/
def possessive (step : Rest → Rest) (least : Nat) (most : Option Nat) (rest : Rest) :
    Nat → Nat → Option Nat → Rest
  | 0, _, _, _, slots => .failure slots
  | fuel + 1, count, last, place, slots =>
    if count < least then
      match step .success place slots with
      | .success next slots => possessive step least most rest fuel (count + 1) last next slots
      | .failure slots => .failure slots
    else if mayGrow most count && last ≠ some place then
      match step .success place slots with
      | .success next slots => possessive step least most rest fuel (count + 1) (some place) next slots
      | .failure _ => rest place slots
    else rest place slots

def unitsAt (text : Array Char) (set : CharSet) (most : Option Nat) (place : Nat) : Nat :=
  let part := match most with
    | some most => text.extract place (place + most)
    | none => text.extract place text.size
  (part.toList.takeWhile set.accepts).length

def units (text : Array Char) (set : CharSet) (least : Nat) (most : Option Nat) (eagerness : Eagerness)
    (inside : Bool) (rest : Rest) : Rest := fun place slots =>
  let count := unitsAt text set most place
  if count < least then .failure slots
  else
    let places := (List.range (count - least + 1)).map (place + least + ·)
    match eagerness with
    | .greedy => tryEach rest (slots.restored inside) places.reverse slots
    | .lazy => tryEach rest (slots.restored inside) places slots
    | .possessive => rest (place + count) slots

/-! ## Matching -/

def sameChar (ignoreCase ascii : Bool) (a b : Char) : Bool :=
  if !ignoreCase then a = b
  else if ascii then Text.asciiSmall a.toNat = Text.asciiSmall b.toNat
  else Text.small a.toNat = Text.small b.toNat

def repeatsAt (text : Array Char) (ignoreCase ascii : Bool) (start stop place : Nat) : Bool :=
  let part := (text.extract start stop).toList
  let here := (text.extract place (place + (stop - start))).toList
  part.length = here.length && (part.zip here).all fun (a, b) => sameChar ignoreCase ascii a b

/-- A match of the pattern with the rest after it; `inside` says that it is part of a repetition. -/
def run (text : Array Char) : Pattern → Bool → Rest → Rest
  | empty, _, rest => rest
  | one set, _, rest => fun place slots =>
    match text[place]? with
    | some c => if set.accepts c then rest (place + 1) slots else .failure slots
    | none => .failure slots
  | anchor a, _, rest => fun place slots => if a.holds text place then rest place slots else .failure slots
  | seq first second, inside, rest => run text first inside (run text second inside rest)
  | alt first second, inside, rest => fun place slots =>
    (run text first inside rest place slots).otherwise fun after =>
      (run text second inside rest place (slots.restored inside after)).otherwise fun after =>
        .failure (slots.restored inside after)
  | repeated least most eagerness body, inside, rest => fun place slots =>
    match body.unit? with
    | some set => units text set least most eagerness inside rest place slots
    | none =>
      let fuel := least + text.size + 2
      match eagerness with
      | .greedy => greedy (run text body true) least most rest fuel 0 none place slots
      | .lazy => lazy (run text body true) least most inside rest fuel 0 none place slots
      | .possessive => possessive (run text body inside) least most rest fuel 0 none place slots
  | group none body, inside, rest => run text body inside rest
  | group (some index) body, inside, rest => fun place slots =>
    run text body inside (fun place slots => rest place (slots.put (Slots.endOf index) place)) place
      (slots.put (Slots.startOf index) place)
  | back index ignoreCase ascii, _, rest => fun place slots =>
    match slots.span? index with
    | some (start, stop) =>
      if repeatsAt text ignoreCase ascii start stop place then rest (place + (stop - start)) slots
      else .failure slots
    | none => .failure slots
  | ahead wanted body, inside, rest => fun place slots =>
    look wanted inside (run text body inside .success place slots) rest place slots
  | behind width wanted body, inside, rest => fun place slots =>
    if place < width then if wanted then .failure slots else rest place slots
    else look wanted inside (run text body inside .success (place - width) slots) rest place slots
  | atomic body, inside, rest => fun place slots =>
    match run text body inside .success place slots with
    | .success place slots => rest place slots
    | .failure slots => .failure slots
  | ifGroup index yes no, inside, rest => fun place slots =>
    if (slots.span? index).isSome then run text yes inside rest place slots
    else run text no inside rest place slots
where
  look (wanted inside : Bool) (found : Attempt) (rest : Rest) (place : Nat) (slots : Slots) : Attempt :=
    match wanted, found with
    | true, .success _ after => rest place after
    | true, .failure after => .failure after
    | false, .success _ after => .failure after
    | false, .failure after => rest place (slots.restored inside after)

/-- The pattern matches from the place on. A match that leaves a group with its end before its start is a fault. -/
def matchesAt (p : Pattern) (text : Array Char) (place : Nat) : Except Fault Bool :=
  if text.size < place + p.leastWidth then .ok false
  else
    match run text p false .success place [] with
    | .success _ slots => if slots.tangled then .error .tangledGroups else .ok true
    | .failure _ => .ok false

def matchesStart (p : Pattern) (text : String) : Except Fault Bool :=
  p.matchesAt text.toList.toArray 0

def search (p : Pattern) (text : String) : Except Fault (Option Nat) :=
  let text := text.toList.toArray
  (List.range (text.size + 1)).findM? (p.matchesAt text)

end ImportAtlas.Pattern
