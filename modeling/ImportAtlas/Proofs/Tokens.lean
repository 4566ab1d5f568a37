import ImportAtlas.Proofs.Quoting
import ImportAtlas.Value.Printer
import ImportAtlas.Value.Reader

/-!
# The tokens of a written value

A literal is a value of texts, whole numbers, truth values and none, in lists and tuples. Its written form
falls into the tokens that `tokens` gives, whatever stands after it, as long as that does not go on as a word.
-/

namespace ImportAtlas

namespace Value

mutual

def isLiteral : Value → Bool
  | real _ => false
  | table _ _ => false
  | list items => allLiteral items
  | tuple items => allLiteral items
  | _ => true

def allLiteral : List Value → Bool
  | [] => true
  | v :: vs => isLiteral v && allLiteral vs

end

mutual

def tokens : Value → List Token
  | none => [.word "None"]
  | bool true => [.word "True"]
  | bool false => [.word "False"]
  | int (.ofNat n) => [.number n]
  | int (.negSucc n) => [.mark '-', .number (n + 1)]
  | str s => [.text s]
  | list items => .mark '[' :: (tokensAll items ++ [.mark ']'])
  | tuple [item] => .mark '(' :: (tokens item ++ [.mark ',', .mark ')'])
  | tuple items => .mark '(' :: (tokensAll items ++ [.mark ')'])
  | _ => []

def tokensAll : List Value → List Token
  | [] => []
  | [v] => tokens v
  | v :: vs => tokens v ++ .mark ',' :: tokensAll vs

end

end Value

namespace Token

/-! ## One token -/

/-- What follows does not go on as a word or a number. -/
def Apart (rest : List Char) : Prop :=
  ∀ c ∈ rest.head?, Text.isWord c = false

theorem apart_cons {c : Char} (h : Text.isWord c = false) (rest : List Char) : Apart (c :: rest) := by
  intro d hd
  cases hd; exact h

theorem isWord_of_isDigit {c : Char} (h : c.isDigit = true) : Text.isWord c = true := by
  have hn : c.toNat < 0x80 := by
    simp only [Char.isDigit, Bool.and_eq_true, decide_eq_true_eq, UInt32.le_iff_toNat_le] at h
    have : c.toNat ≤ 57 := h.2
    omega
  exact Text.isWord_of_isAlphanum hn (by simp [Char.isAlphanum, h])

theorem span_append {p : Char → Bool} {cs rest : List Char} (h : ∀ c ∈ cs, p c = true)
    (hr : ∀ c ∈ rest.head?, p c = false) :
    (cs ++ rest).takeWhile p = cs ∧ (cs ++ rest).dropWhile p = rest := by
  rw [List.takeWhile_append_of_pos h, List.dropWhile_append_of_pos h]
  cases rest with
  | nil => simp
  | cons c rest => simp [hr c rfl]

theorem ofChars_nil : ofChars [] = [] := by
  rw [ofChars]

theorem ofChars_gap {c : Char} (h : isGap c = true) (cs : List Char) : ofChars (c :: cs) = ofChars cs := by
  rw [ofChars, if_pos h]

def marks : List Char := ['(', ')', '[', ']', ',', '-']

theorem plain_of_mem_marks {c : Char} (h : c ∈ marks) :
    isGap c = false ∧ c ≠ '#' ∧ isQuote c = false ∧ c.isDigit = false ∧ Text.isWord c = false := by
  simp only [marks, List.mem_cons, List.not_mem_nil, or_false] at h
  rcases h with rfl | rfl | rfl | rfl | rfl | rfl <;> decide

theorem ofChars_mark {c : Char} (h : c ∈ marks) (cs : List Char) : ofChars (c :: cs) = .mark c :: ofChars cs := by
  obtain ⟨h1, h2, h3, h4, h5⟩ := plain_of_mem_marks h
  rw [ofChars]
  simp [h1, h2, h3, h4, h5]

theorem apart_mark {c : Char} (h : c ∈ marks) (rest : List Char) : Apart (c :: rest) :=
  apart_cons (plain_of_mem_marks h).2.2.2.2 rest

theorem ofBody_escape {q : Char} (hq : Text.IsQuote q) (s : String) :
    ofBody false (Text.escape q s.toList) = .text s := by
  simp [ofBody, Text.unescape_escape hq]

theorem ofChars_quoted (s : String) (rest : List Char) :
    ofChars ((Text.quoted s).toList ++ rest) = .text s :: ofChars rest := by
  have hq := Text.isQuote_quoteFor s.toList
  simp only [Text.quoted, String.toList_ofList, List.cons_append, List.append_assoc, List.nil_append]
  generalize Text.quoteFor s.toList = q at hq
  have h1 : isGap q = false := by rcases hq with rfl | rfl <;> rfl
  have h2 : q ≠ '#' := by rcases hq with rfl | rfl <;> decide
  have h3 : isQuote q = true := by rcases hq with rfl | rfl <;> rfl
  rw [ofChars]
  simp only [h1, h2, h3, if_true, if_false, Bool.false_eq_true]
  split
  · rename_i h
    rw [Text.bodyOf_escape hq] at h
    cases h
    rw [ofBody_escape hq]
  · rename_i h
    rw [Text.bodyOf_escape hq] at h
    cases h

theorem plain_of_isWord {c : Char} (h : Text.isWord c = true) :
    isGap c = false ∧ c ≠ '#' ∧ isQuote c = false := by
  refine ⟨?_, ?_, ?_⟩
  · by_contra hg
    simp only [isGap, Bool.not_eq_false, Bool.or_eq_true, decide_eq_true_eq] at hg
    rcases hg with (((rfl | rfl) | rfl) | rfl) | rfl <;> revert h <;> decide
  · rintro rfl; revert h; decide
  · by_contra hg
    simp only [isQuote, Bool.not_eq_false, Bool.or_eq_true, decide_eq_true_eq] at hg
    rcases hg with rfl | rfl <;> revert h <;> decide

theorem ofChars_word {c : Char} {cs rest : List Char} (h : (c :: cs).all Text.isWord = true)
    (hc : c.isDigit = false) (hm : rawMark? (c :: cs) = none) (hr : Apart rest) :
    ofChars (c :: cs ++ rest) = .word (String.ofList (c :: cs)) :: ofChars rest := by
  rw [List.all_eq_true] at h
  have hw := h c List.mem_cons_self
  obtain ⟨h1, h2, h3⟩ := plain_of_isWord hw
  obtain ⟨ht, hd⟩ := span_append (fun d hd => h d (List.mem_cons_of_mem c hd)) hr
  rw [List.cons_append, ofChars]
  simp only [h1, h2, h3, hc, hw, if_true, if_false, Bool.false_eq_true, ht]
  split
  · rename_i h'
    rw [hd] at h'
    rw [h', ofChars_nil]
  · rename_i q after h'
    rw [hd] at h'
    rw [hm, h']

/-! ## Numbers -/

theorem numeral_toDigits (n : Nat) : Text.numeral 10 (Nat.toDigits 10 n) = some n := by
  induction n using Nat.strongRecOn with
  | ind n ih =>
    rw [Nat.toDigits_eq_if (by omega)]
    split
    · rename_i h
      have hd := Text.digitValue_digitChar n (by omega)
      simp [Text.numeral, hd, h]
    · have hd := Text.digitValue_digitChar (n % 10) (by omega)
      have hlt : n % 10 < 10 := Nat.mod_lt _ (by omega)
      rw [Text.numeral_snoc, ih (n / 10) (by omega), hd]
      simp only [Option.bind_some, hlt, if_true, Option.some.injEq]
      omega

theorem head_toDigits {n : Nat} (h : 0 < n) : (Nat.toDigits 10 n).head? ≠ some '0' := by
  induction n using Nat.strongRecOn with
  | ind n ih =>
    rw [Nat.toDigits_eq_if (by omega)]
    split
    · rename_i hn
      have : ∀ d < 10, 0 < d → [Nat.digitChar d].head? ≠ some '0' := by decide
      exact this n hn h
    · rw [List.head?_append_of_ne_nil _ Nat.toDigits_ne_nil]
      exact ih (n / 10) (by omega) (by omega)

theorem ofDigits_toDigits (n : Nat) : ofDigits (Nat.toDigits 10 n) = .number n := by
  have h : ¬ ((Nat.toDigits 10 n).head? = some '0' ∧ (Nat.toDigits 10 n).any (· ≠ '0') = true) := by
    rcases Nat.eq_zero_or_pos n with rfl | hn
    · simp
    · exact fun h => head_toDigits hn h.1
  rw [ofDigits, if_neg h, numeral_toDigits, Option.getD_some]

theorem ofChars_number (n : Nat) {rest : List Char} (hr : Apart rest) :
    ofChars (Nat.toDigits 10 n ++ rest) = .number n :: ofChars rest := by
  have hall : ∀ c ∈ Nat.toDigits 10 n, c.isDigit = true := fun c hc =>
    Nat.isDigit_of_mem_toDigits (by omega) (by omega) hc
  have hr' : ∀ c ∈ rest.head?, c.isDigit = false := by
    intro c hc
    by_contra hd
    have := hr c hc
    rw [isWord_of_isDigit (by simpa using hd)] at this
    cases this
  have hn := ofDigits_toDigits n
  cases hd : Nat.toDigits 10 n with
  | nil => exact absurd hd Nat.toDigits_ne_nil
  | cons c cs =>
    rw [hd] at hall hn
    have hc := hall c List.mem_cons_self
    obtain ⟨h1, h2, h3⟩ := plain_of_isWord (isWord_of_isDigit hc)
    obtain ⟨ht, hdr⟩ := span_append (fun d hd => hall d (List.mem_cons_of_mem c hd)) hr'
    rw [List.cons_append, ofChars]
    simp only [h1, h2, h3, hc, if_true, if_false, Bool.false_eq_true, ht, hdr, hn]

/-! ## Whole literals -/

theorem ofChars_none {rest : List Char} (hr : Apart rest) :
    ofChars ("None".toList ++ rest) = .word "None" :: ofChars rest :=
  ofChars_word (by decide) (by decide) (by decide) hr

theorem ofChars_true {rest : List Char} (hr : Apart rest) :
    ofChars ("True".toList ++ rest) = .word "True" :: ofChars rest :=
  ofChars_word (by decide) (by decide) (by decide) hr

theorem ofChars_false {rest : List Char} (hr : Apart rest) :
    ofChars ("False".toList ++ rest) = .word "False" :: ofChars rest :=
  ofChars_word (by decide) (by decide) (by decide) hr

theorem ofChars_int (n : Int) {rest : List Char} (hr : Apart rest) :
    ofChars ((toString n).toList ++ rest) = (Value.int n).tokens ++ ofChars rest := by
  cases n with
  | ofNat n =>
    change ofChars (n.repr.toList ++ rest) = _
    rw [Nat.toList_repr, ofChars_number n hr]
    rfl
  | negSucc n =>
    change ofChars (("-" ++ (n + 1).repr).toList ++ rest) = _
    rw [String.toList_append, Nat.toList_repr, List.append_assoc]
    change ofChars ('-' :: (Nat.toDigits 10 (n + 1) ++ rest)) = _
    rw [ofChars_mark (by decide), ofChars_number (n + 1) hr]
    rfl

mutual

/-- **Lexing.** The written form of a literal falls into its tokens. -/
theorem ofChars_render : ∀ (v : Value), v.isLiteral = true → ∀ (rest : List Char), Apart rest →
    ofChars (v.render.toList ++ rest) = v.tokens ++ ofChars rest
  | .none, _, rest, hr => ofChars_none hr
  | .bool true, _, rest, hr => ofChars_true hr
  | .bool false, _, rest, hr => ofChars_false hr
  | .int n, _, rest, hr => ofChars_int n hr
  | .str s, _, rest, _ => ofChars_quoted s rest
  | .list items, h, rest, hr => by
    have := ofChars_renderAll items h (']' :: rest) (apart_mark (by decide) rest)
    simp only [Value.render, Value.tokens, String.toList_append, List.append_assoc]
    change ofChars ('[' :: (_ ++ ']' :: rest)) = _
    rw [ofChars_mark (by decide), this, ofChars_mark (by decide)]
    simp
  | .tuple [], _, rest, _ => by
    change ofChars ('(' :: ')' :: rest) = _
    rw [ofChars_mark (by decide), ofChars_mark (by decide)]
    rfl
  | .tuple [item], h, rest, hr => by
    have hi : item.isLiteral = true := by simpa [Value.isLiteral, Value.allLiteral] using h
    have := ofChars_render item hi (',' :: ')' :: rest) (apart_mark (by decide) _)
    simp only [Value.render, Value.tokens, String.toList_append, List.append_assoc]
    change ofChars ('(' :: (_ ++ ',' :: ')' :: rest)) = _
    rw [ofChars_mark (by decide), this, ofChars_mark (by decide), ofChars_mark (by decide)]
    simp
  | .tuple (v :: w :: vs), h, rest, hr => by
    have := ofChars_renderAll (v :: w :: vs) h (')' :: rest) (apart_mark (by decide) rest)
    simp only [Value.render, Value.tokens, String.toList_append, List.append_assoc]
    change ofChars ('(' :: (_ ++ ')' :: rest)) = _
    rw [ofChars_mark (by decide), this, ofChars_mark (by decide)]
    simp
  | .real _, h, _, _ => by simp [Value.isLiteral] at h
  | .table _ _, h, _, _ => by simp [Value.isLiteral] at h

theorem ofChars_renderAll : ∀ (vs : List Value), Value.allLiteral vs = true → ∀ (rest : List Char), Apart rest →
    ofChars ((", ".intercalate (Value.renderAll vs)).toList ++ rest) = Value.tokensAll vs ++ ofChars rest
  | [], _, rest, _ => by simp [Value.renderAll, Value.tokensAll]
  | [v], h, rest, hr => by
    have hv : v.isLiteral = true := by simpa [Value.allLiteral] using h
    simpa [Value.renderAll, Value.tokensAll] using ofChars_render v hv rest hr
  | v :: w :: vs, h, rest, hr => by
    simp only [Value.allLiteral, Bool.and_eq_true] at h
    have hw := ofChars_renderAll (w :: vs) (by simpa [Value.allLiteral] using h.2) rest hr
    have hv := ofChars_render v h.1
      (',' :: ' ' :: ((", ".intercalate (Value.renderAll (w :: vs))).toList ++ rest)) (apart_mark (by decide) _)
    simp only [Value.renderAll, String.intercalate_cons_cons, String.toList_append, List.append_assoc] at hv hw ⊢
    change ofChars (_ ++ ',' :: ' ' :: (_ ++ rest)) = _
    rw [hv, ofChars_mark (by decide), ofChars_gap rfl, hw]
    simp [Value.tokensAll]

end

end Token

end ImportAtlas
