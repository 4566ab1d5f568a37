import ImportAtlas.Text.Quoted
import Mathlib.Algebra.Group.Nat.Defs
import Mathlib.Data.List.Basic
import Mathlib.Tactic.Common

/-!
# Quoting and its undoing

A text in quotes ends where its closing quote stands, and its escapes give the text back. Both are shown for
one character with any rest after it, and then for whole texts.
-/

namespace ImportAtlas.Text

/-! ## Digits -/

theorem digitValue_digitChar : ∀ d < 16, digitValue (Nat.digitChar d) = some d := by decide

theorem numeral_snoc (base : Nat) (digits : List Char) (c : Char) :
    numeral base (digits ++ [c]) = (numeral base digits).bind fun n =>
      (digitValue c).bind fun d => if d < base then some (n * base + d) else none := by
  simp [numeral, List.foldlM_append]

theorem numeral_hexDigits {width n : Nat} (h : n < 16 ^ width) : numeral 16 (hexDigits width n) = some n := by
  induction width generalizing n with
  | zero =>
    have : n = 0 := by omega
    subst this; rfl
  | succ width ih =>
    have hn : n / 16 < 16 ^ width := by rw [Nat.pow_succ] at h; omega
    have hd : n % 16 < 16 := Nat.mod_lt _ (by omega)
    rw [hexDigits, numeral_snoc, ih hn, digitValue_digitChar _ hd]
    simp only [Option.bind_some, hd, if_true, Option.some.injEq]
    omega

theorem digitChar_plain : ∀ d < 16, Nat.digitChar d ∉ ['\\', '\'', '"', '\n'] := by decide

theorem hexDigits_plain {width n : Nat} {c : Char} (h : c ∈ hexDigits width n) :
    c ∉ ['\\', '\'', '"', '\n'] := by
  induction width generalizing n with
  | zero => cases h
  | succ width ih =>
    rw [hexDigits, List.mem_append, List.mem_singleton] at h
    rcases h with h | rfl
    · exact ih h
    · exact digitChar_plain _ (Nat.mod_lt _ (by omega))

/-! ## The closing quote -/

def IsQuote (q : Char) : Prop := q = '\'' ∨ q = '"'

theorem isQuote_quoteFor (text : List Char) : IsQuote (quoteFor text) := by
  unfold quoteFor; split
  · exact Or.inr rfl
  · exact Or.inl rfl

theorem bodyOf_escaped (q c : Char) (rest : List Char) :
    bodyOf q ('\\' :: c :: rest) = (bodyOf q rest).map fun p => ('\\' :: c :: p.1, p.2) := rfl

theorem bodyOf_cons {q c : Char} (h : c ≠ '\\') (rest : List Char) :
    bodyOf q (c :: rest) = if c = q then some ([], rest) else if c = '\n' then none
      else (bodyOf q rest).map fun p => (c :: p.1, p.2) := by
  conv_lhs => unfold bodyOf
  split
  · simp_all
  · simp_all
  · simp_all

theorem bodyOf_plain {q : Char} (hq : IsQuote q) {cs : List Char}
    (h : ∀ c ∈ cs, c ∉ ['\\', '\'', '"', '\n']) (rest : List Char) :
    bodyOf q (cs ++ rest) = (bodyOf q rest).map fun p => (cs ++ p.1, p.2) := by
  induction cs with
  | nil => simp
  | cons c cs ih =>
    have hc := h c (by simp)
    simp only [List.mem_cons, List.not_mem_nil, or_false, not_or] at hc
    obtain ⟨h1, h2, h3, h4⟩ := hc
    have hne : c ≠ q := by rcases hq with rfl | rfl <;> assumption
    rw [List.cons_append, bodyOf_cons h1, if_neg hne, if_neg h4, ih fun x hx => h x (by simp [hx])]
    simp [Function.comp_def]

/-- Whatever the number of digits, a character by its number is a letter after a backslash, and digits. -/
theorem byNumber_eq (c : Char) :
    ∃ letter ∈ ['x', 'u', 'U'], ∃ width, byNumber c = '\\' :: letter :: hexDigits width c.toNat := by
  unfold byNumber
  split
  · exact ⟨'x', by simp, 2, rfl⟩
  split
  · exact ⟨'u', by simp, 4, rfl⟩
  · exact ⟨'U', by simp, 8, rfl⟩

theorem bodyOf_byNumber {q : Char} (hq : IsQuote q) (c : Char) (rest : List Char) :
    bodyOf q (byNumber c ++ rest) = (bodyOf q rest).map fun p => (byNumber c ++ p.1, p.2) := by
  obtain ⟨letter, _, width, h⟩ := byNumber_eq c
  rw [h, List.cons_append, List.cons_append, bodyOf_escaped, bodyOf_plain hq fun _ => hexDigits_plain]
  simp [Function.comp_def]

theorem bodyOf_escapeChar {q : Char} (hq : IsQuote q) (c : Char) (rest : List Char) :
    bodyOf q (escapeChar q c ++ rest) = (bodyOf q rest).map fun p => (escapeChar q c ++ p.1, p.2) := by
  unfold escapeChar
  split
  · exact bodyOf_escaped q c rest
  split
  · exact bodyOf_escaped q 'n' rest
  split
  · exact bodyOf_escaped q 'r' rest
  split
  · exact bodyOf_escaped q 't' rest
  split
  · exact bodyOf_byNumber hq c rest
  · rename_i h hn _ _ _
    simp only [Bool.or_eq_true, decide_eq_true_eq, not_or] at h
    rw [List.singleton_append, bodyOf_cons h.1, if_neg h.2, if_neg hn]
    rfl

theorem bodyOf_escape {q : Char} (hq : IsQuote q) (text rest : List Char) :
    bodyOf q (escape q text ++ q :: rest) = some (escape q text, rest) := by
  induction text with
  | nil =>
    have h : q ≠ '\\' := by rcases hq with rfl | rfl <;> decide
    simp [escape, bodyOf_cons h]
  | cons c text ih =>
    simp only [escape, List.flatMap_cons, List.append_assoc] at ih ⊢
    rw [bodyOf_escapeChar hq, ih]
    rfl

/-! ## The escapes -/

theorem unescape_cons {c : Char} (h : c ≠ '\\') (rest : List Char) :
    unescape (c :: rest) = (unescape rest).map (c :: ·) := by
  conv_lhs => unfold unescape
  split <;> simp_all

theorem unescape_named {c d : Char} (h : namedEscape c = some d) (rest : List Char) :
    unescape ('\\' :: c :: rest) = (unescape rest).map (d :: ·) := by
  conv_lhs => unfold unescape
  simp [h]

theorem unescape_byNumber (c : Char) (rest : List Char) :
    unescape (byNumber c ++ rest) = (unescape rest).map (c :: ·) := by
  have hc : Char.ofNat c.toNat = c := Char.ofNat_toNat c
  have hmax : c.toNat < 0x110000 := by
    have := c.valid
    simp only [UInt32.isValidChar, Nat.isValidChar] at this
    change c.toNat < _ ∨ _ ∧ c.toNat < _ at this
    omega
  unfold byNumber
  split
  · rename_i h
    have hn : numeral 16 (hexDigits 2 c.toNat) = some c.toNat := numeral_hexDigits (by omega)
    simp only [hexDigits, List.nil_append, List.cons_append] at hn ⊢
    conv_lhs => unfold unescape
    cases hu : unescape rest <;> simp [namedEscape, hn, hc, hu]
  · split
    · rename_i h
      have hn : numeral 16 (hexDigits 4 c.toNat) = some c.toNat := numeral_hexDigits (by omega)
      simp only [hexDigits, List.nil_append, List.cons_append] at hn ⊢
      conv_lhs => unfold unescape
      cases hu : unescape rest <;> simp [namedEscape, hn, hc, hu]
    · have hn : numeral 16 (hexDigits 8 c.toNat) = some c.toNat := numeral_hexDigits (by omega)
      simp only [hexDigits, List.nil_append, List.cons_append] at hn ⊢
      conv_lhs => unfold unescape
      cases hu : unescape rest <;> simp [namedEscape, hn, hc, hu]

theorem unescape_escapeChar {q : Char} (hq : IsQuote q) (c : Char) (rest : List Char) :
    unescape (escapeChar q c ++ rest) = (unescape rest).map (c :: ·) := by
  unfold escapeChar
  split
  · rename_i h
    simp only [Bool.or_eq_true, decide_eq_true_eq] at h
    have : namedEscape c = some c := by
      rcases h with rfl | rfl
      · rfl
      · rcases hq with rfl | rfl <;> rfl
    exact unescape_named this rest
  split
  · subst_vars; exact unescape_named rfl rest
  split
  · subst_vars; exact unescape_named rfl rest
  split
  · subst_vars; exact unescape_named rfl rest
  split
  · exact unescape_byNumber c rest
  · rename_i h _ _ _ _
    simp only [Bool.or_eq_true, decide_eq_true_eq, not_or] at h
    exact unescape_cons h.1 rest

theorem unescape_escape {q : Char} (hq : IsQuote q) (text : List Char) :
    unescape (escape q text) = some text := by
  induction text with
  | nil => rfl
  | cons c text ih =>
    simp only [escape, List.flatMap_cons] at ih ⊢
    rw [unescape_escapeChar hq, ih]
    rfl

/-! ## Quoted texts stay on their line -/

theorem newline_not_mem_escapeChar (q : Char) (hq : IsQuote q) (c : Char) : '\n' ∉ escapeChar q c := by
  unfold escapeChar
  split
  · rename_i h
    simp only [Bool.or_eq_true, decide_eq_true_eq] at h
    rcases h with rfl | rfl
    · decide
    · rcases hq with rfl | rfl <;> decide
  split
  · decide
  split
  · decide
  split
  · decide
  split
  · obtain ⟨letter, hl, width, h⟩ := byNumber_eq c
    intro hm
    rw [h, List.mem_cons, List.mem_cons] at hm
    rcases hm with hm | rfl | hm
    · cases hm
    · simp at hl
    · exact hexDigits_plain hm (by simp)
  · rename_i hn _ _ _
    simpa using Ne.symm hn

theorem newline_not_mem_quoted (s : String) : '\n' ∉ (quoted s).toList := by
  have hq := isQuote_quoteFor s.toList
  simp only [quoted, String.toList_ofList, List.mem_append, List.mem_cons, List.not_mem_nil, or_false, not_or,
    escape, List.mem_flatMap, not_exists, not_and]
  have hne : '\n' ≠ quoteFor s.toList := by rcases hq with h | h <;> rw [h] <;> decide
  exact ⟨⟨hne, fun c _ => newline_not_mem_escapeChar _ hq c⟩, hne⟩

end ImportAtlas.Text
