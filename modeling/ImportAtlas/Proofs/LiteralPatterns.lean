import ImportAtlas.Pattern.Matcher
import ImportAtlas.Pattern.Reader
import ImportAtlas.Proofs.Runs

/-!
# Literal patterns

A text of letters, digits, underscores and slashes is a pattern without any sign in it. It is read as the sequence of
its characters and matches the texts that start with it.
-/

namespace ImportAtlas.Pattern

/-- A character that stands for itself in every pattern. -/
def isLiteral (c : Char) : Bool :=
  Text.isWord c || c = '/'

theorem ne_of_isLiteral {c sign : Char} (hc : isLiteral c = true) (hsign : isLiteral sign = false) : c ≠ sign := by
  rintro rfl
  rw [hc] at hsign
  cases hsign

def literal (cs : List Char) : List Pattern :=
  cs.map fun c => PatternReader.charPattern {} c.toNat

/-! ## Reading -/

namespace PatternReader

def facing (cs : List Char) : ReaderState := { rest := cs.map .plain }

theorem advance_facing (n : Nat) (cs : List Char) : advance n (facing cs) = .ok () (facing (cs.drop n)) := by
  have hwhole : Sign.broken ∉ (cs.map Sign.plain).take (n + 1) := by
    intro h
    obtain ⟨c, _, hc⟩ := List.mem_map.1 (List.mem_of_mem_take h)
    cases hc
  change (do
    if Sign.broken ∈ (cs.map Sign.plain).take (n + 1) then refuse
    modify fun s => { s with rest := (cs.map Sign.plain).drop n } : PatternReader Unit) (facing cs) = _
  rw [if_neg hwhole]
  change EStateM.Result.ok () { facing cs with rest := (cs.map Sign.plain).drop n } = _
  rw [← List.map_drop]
  rfl

theorem items_nil (pieces : List Piece) (fuel : Nat) :
    items {} none pieces (fuel + 1) (facing []) = .ok (pieces.reverse.flatMap Piece.items) (facing []) := by
  rw [items]
  rfl

theorem items_cons {c : Char} (hc : isLiteral c = true) (cs : List Char) (pieces : List Piece) (fuel : Nat) :
    items {} none pieces (fuel + 1) (facing (c :: cs)) =
      items {} none (.item (charPattern {} c.toNat) :: pieces) fuel (facing cs) := by
  have hpeek : peek (facing (c :: cs)) = .ok (some (.plain c)) (facing (c :: cs)) := rfl
  have hsign : ∀ {sign : Char}, isLiteral sign = false → c ≠ sign := ne_of_isLiteral hc
  rw [items, bind_of_ok hpeek]
  simp only [Bool.false_and, Bool.false_eq_true, if_false]
  -- every branch but the last one is for a sign, and the character is none
  refine Eq.trans (congrFun ?_ _) (bind_of_ok (advance_facing 1 (c :: cs)) fun _ =>
    items {} none (.item (charPattern {} c.toNat) :: pieces) fuel)
  split
  case h_6 h =>
    cases h
    refine bind_congr fun _ => ?_
    split
    case h_10 => rfl
    all_goals exact absurd rfl (hsign (by decide +kernel))
  all_goals
    rename_i h
    cases h
  all_goals exact absurd rfl (hsign (by decide +kernel))

/-- One branch, whose items are its characters. -/
theorem items_literal {cs : List Char} (h : ∀ c ∈ cs, isLiteral c = true) (pieces : List Piece) {fuel : Nat}
    (hfuel : cs.length < fuel) :
    items {} none pieces fuel (facing cs) = .ok (pieces.reverse.flatMap Piece.items ++ literal cs) (facing []) := by
  induction cs generalizing pieces fuel with
  | nil =>
    obtain ⟨fuel, rfl⟩ := Nat.exists_eq_add_of_lt hfuel
    rw [items_nil]
    simp [literal]
  | cons c cs ih =>
    obtain ⟨hc, hcs⟩ := List.forall_mem_cons.1 h
    obtain ⟨fuel, rfl⟩ : ∃ n, fuel = n + 1 := ⟨fuel - 1, by omega⟩
    rw [items_cons hc, ih hcs _ (by simpa using hfuel)]
    simp [literal, Piece.items]

theorem whole_literal {cs : List Char} (h : ∀ c ∈ cs, isLiteral c = true) {fuel : Nat} (hfuel : cs.length + 1 < fuel) :
    whole fuel (facing cs) = .ok (sequence (literal cs)) (facing []) := by
  obtain ⟨fuel, rfl⟩ : ∃ n, fuel = n + 1 := ⟨fuel - 1, by omega⟩
  have hflags : leadingFlags (fuel + 1) [] (facing cs) = .ok [] (facing cs) := by
    cases cs with
    | nil => rfl
    | cons c cs =>
      have hne : c ≠ '(' := ne_of_isLiteral (h c List.mem_cons_self) (by decide +kernel)
      have hget : (get : PatternReader ReaderState) (facing (c :: cs)) = .ok (facing (c :: cs)) (facing (c :: cs)) :=
        rfl
      rw [leadingFlags, bind_of_ok hget]
      refine congrFun (?_ : _ = (pure [] : PatternReader (List Char))) _
      split
      · rename_i h
        exact absurd (Sign.plain.inj (List.cons.inj h).1) hne
      · rfl
      · rfl
  have hbranch : branches {} none [] (fuel + 1) (facing cs) = .ok (literal cs) (facing []) := by
    rw [branches, bind_of_ok (items_literal h [] (by omega))]
    rfl
  unfold whole
  rw [bind_of_ok (advance_facing 0 cs), List.drop_zero, bind_of_ok hflags]
  change (branches {} none [] (fuel + 1) >>= _) _ = _
  rw [bind_of_ok hbranch]
  rfl

end PatternReader

theorem read_literal {text : String} (h : ∀ c ∈ text.toList, isLiteral c = true) :
    read text = .ok (sequence (literal text.toList)) := by
  have hplain : '\\' ∉ text.toList := fun hmem => absurd (h _ hmem) (by decide +kernel)
  have hfuel : text.toList.length + 1 < 4 * text.length + 8 := by
    rw [String.length_toList]
    omega
  have hwhole := PatternReader.whole_literal h hfuel
  unfold PatternReader.facing at hwhole
  unfold read
  rw [Sign.ofChars_eq_map hplain, hwhole]

/-! ## Matching -/

theorem accepts_char (c d : Char) :
    CharSet.accepts { items := [.char c.toNat], inverted := false, ignoreCase := false, ascii := false } d =
      decide (c = d) := by
  have hcode : c.toNat = d.toNat ↔ c = d := ⟨Char.toNat_inj.1, congrArg Char.toNat⟩
  simp [CharSet.accepts, CharSet.lists, CharSet.alike, hcode]

theorem run_one (text : Array Char) (set : CharSet) (inside : Bool) (rest : Rest) (place : Nat) (slots : Slots) :
    run text (.one set) inside rest place slots = (text[place]?).elim (.failure slots) fun c =>
      if set.accepts c then rest (place + 1) slots else .failure slots := by
  rw [run]
  dsimp only
  cases text[place]? with
  | none => rfl
  | some c => rfl

theorem run_sequence_cons (text : Array Char) (p : Pattern) (ps : List Pattern) (inside : Bool) (rest : Rest) :
    run text (sequence (p :: ps)) inside rest = run text p inside (run text (sequence ps) inside rest) := by
  cases ps with
  | nil => rfl
  | cons q qs => rfl

theorem run_literal (text : Array Char) (cs : List Char) (inside : Bool) (rest : Rest) (place : Nat) (slots : Slots) :
    run text (sequence (literal cs)) inside rest place slots =
      if cs.isPrefixOf (text.toList.drop place) then rest (place + cs.length) slots else .failure slots := by
  induction cs generalizing place with
  | nil => rfl
  | cons c cs ih =>
    change run text (sequence (PatternReader.charPattern {} c.toNat :: literal cs)) inside rest place slots = _
    rw [run_sequence_cons, PatternReader.charPattern, PatternReader.setOf, run_one, ← Array.getElem?_toList]
    cases hd : text.toList.drop place with
    | nil =>
      rw [List.getElem?_eq_none (List.drop_eq_nil_iff.1 hd)]
      rfl
    | cons d ds =>
      have hplace : text.toList[place]? = some d := by rw [← List.head?_drop, hd]; rfl
      have hrest : text.toList.drop (place + 1) = ds := by rw [← List.tail_drop, hd]; rfl
      rw [hplace, Option.elim_some]
      simp only [accepts_char, ih, hrest, List.isPrefixOf_cons_cons, List.length_cons]
      by_cases hc : c = d
      · simp [hc, Nat.add_assoc, Nat.add_comm 1]
      · simp [hc]

theorem width_literal (known : List (Nat × Width)) (cs : List Char) :
    ((sequence (literal cs)).width known).1 = cs.length := by
  induction cs with
  | nil => rfl
  | cons c cs ih =>
    cases cs with
    | nil => rfl
    | cons d ds =>
      change 1 + ((sequence (literal (d :: ds))).width known).1 = _
      rw [ih]
      exact Nat.add_comm _ _

/-- A literal pattern matches the texts that start with it. -/
theorem matchesStart_literal (cs : List Char) (text : String) :
    (sequence (literal cs)).matchesStart text = .ok (Text.beginsWith text (String.ofList cs)) := by
  unfold matchesStart matchesAt
  have hwidth : (sequence (literal cs)).leastWidth = cs.length := width_literal _ cs
  rw [hwidth, run_literal]
  have hstart : Text.beginsWith text (String.ofList cs) = cs.isPrefixOf text.toList := by
    rw [Text.beginsWith, String.toList_ofList]
  simp only [List.drop_zero, hstart, Nat.zero_add, List.size_toArray]
  by_cases hstarts : cs.isPrefixOf text.toList = true
  · have hlength := (List.isPrefixOf_iff_prefix.1 hstarts).length_le
    rw [if_neg (by omega), if_pos hstarts, hstarts]
    rfl
  · simp [hstarts]

end ImportAtlas.Pattern
