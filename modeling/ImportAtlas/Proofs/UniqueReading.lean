import Mathlib.Data.List.Forall2
import ImportAtlas.Proofs.Tokens

/-!
# Written values end where they end

No list of tokens begins with two different literals, so what is written as a literal can be told from what stands
after it. The same holds of rows whose parts have this property: a comma goes on, and the closing mark ends the row,
since no part begins with one.
-/

namespace ImportAtlas

namespace Token

/-! ## Rows -/

def row (parts : List (List Token)) : List Token :=
  [.mark ','].intercalate parts

def closers : List Token := [.mark ')', .mark ']']

/-- What begins here does not end the row that it stands in. -/
def Begins (ts : List Token) : Prop :=
  ∃ t rest, ts = t :: rest ∧ t ∉ closers

theorem row_singleton (p : List Token) : row [p] = p := by
  simp [row]

theorem row_cons_cons (p q : List Token) (ps : List (List Token)) :
    row (p :: q :: ps) = p ++ .mark ',' :: row (q :: ps) := by
  rw [row, row, List.intercalate_cons_cons, List.append_assoc, List.singleton_append]

def onward : List (List Token) → List Token → List Token
  | [], rest => rest
  | p :: ps, rest => .mark ',' :: (row (p :: ps) ++ rest)

theorem row_cons_append (p : List Token) (ps : List (List Token)) (rest : List Token) :
    row (p :: ps) ++ rest = p ++ onward ps rest := by
  cases ps with
  | nil => rw [row_singleton, onward]
  | cons q ps => rw [row_cons_cons, onward, List.append_assoc, List.cons_append]

theorem Begins.row {p : List Token} (h : Begins p) (ps : List (List Token)) : Begins (row (p :: ps)) := by
  obtain ⟨t, rest, rfl, ht⟩ := h
  cases ps with
  | nil => exact ⟨t, rest, row_singleton _, ht⟩
  | cons q ps => exact ⟨t, _, row_cons_cons _ q ps, ht⟩

theorem Begins.ne_close {ts : List Token} (h : Begins ts) {close : Token} (hclose : close ∈ closers)
    (xs ys : List Token) : ts ++ xs ≠ close :: ys := by
  obtain ⟨t, rest, rfl, ht⟩ := h
  intro heq
  cases heq
  exact ht hclose

/-- A row whose parts can be told from what follows them can itself be told from what follows it. -/
theorem row_unique {α β : Type} {f : α → List Token} {g : β → List Token} {R : α → β → Prop} {as : List α} {bs : List β}
    (hf : ∀ a ∈ as, Begins (f a)) (hg : ∀ b ∈ bs, Begins (g b))
    (h : ∀ a ∈ as, ∀ b ∈ bs, ∀ xs ys, f a ++ xs = g b ++ ys → R a b ∧ xs = ys)
    {close : Token} (hclose : close ∈ closers) {xs ys : List Token}
    (heq : row (as.map f) ++ close :: xs = row (bs.map g) ++ close :: ys) : List.Forall₂ R as bs ∧ xs = ys := by
  have hcomma : close ≠ .mark ',' := by
    rintro rfl
    revert hclose
    decide
  induction as generalizing bs with
  | nil =>
    cases bs with
    | nil => exact ⟨.nil, List.tail_eq_of_cons_eq heq⟩
    | cons b bs => exact absurd heq.symm (((hg b List.mem_cons_self).row _).ne_close hclose _ _)
  | cons a as ih =>
    cases bs with
    | nil => exact absurd heq (((hf a List.mem_cons_self).row _).ne_close hclose _ _)
    | cons b bs =>
      rw [List.map_cons, List.map_cons, row_cons_append, row_cons_append] at heq
      obtain ⟨hR, hrest⟩ := h a List.mem_cons_self b List.mem_cons_self _ _ heq
      -- what follows the first part tells whether there is a second one
      cases as with
      | nil =>
        cases bs with
        | nil => exact ⟨.cons hR .nil, List.tail_eq_of_cons_eq hrest⟩
        | cons b' bs => exact absurd (List.head_eq_of_cons_eq hrest) hcomma
      | cons a' as =>
        cases bs with
        | nil => exact absurd (List.head_eq_of_cons_eq hrest).symm hcomma
        | cons b' bs =>
          obtain ⟨hall, hxs⟩ := ih (fun a ha => hf a (List.mem_cons_of_mem _ ha))
            (fun b hb => hg b (List.mem_cons_of_mem _ hb))
            (fun a ha b hb => h a (List.mem_cons_of_mem _ ha) b (List.mem_cons_of_mem _ hb))
            (List.tail_eq_of_cons_eq hrest)
          exact ⟨.cons hR hall, hxs⟩

/-- The text of a row falls into its parts, whatever gap stands after the commas. -/
theorem ofChars_row {α : Type} {between : String} {gap : Char} (hbetween : between.toList = [',', gap])
    (hgap : isGap gap = true) {text : α → String} {f : α → List Token} {as : List α}
    (h : ∀ a ∈ as, ∀ rest, Apart rest → ofChars ((text a).toList ++ rest) = f a ++ ofChars rest)
    {rest : List Char} (hrest : Apart rest) :
    ofChars ((between.intercalate (as.map text)).toList ++ rest) = row (as.map f) ++ ofChars rest := by
  induction as with
  | nil => simp [row]
  | cons a as ih =>
    obtain ⟨ha, has⟩ := List.forall_mem_cons.1 h
    cases as with
    | nil =>
      rw [List.map_singleton, List.map_singleton, row_singleton, String.intercalate_singleton]
      exact ha rest hrest
    | cons b as =>
      have hrow := ih has
      simp only [List.map_cons] at hrow ⊢
      simp only [String.intercalate_cons_cons, row_cons_cons, String.toList_append, hbetween, List.append_assoc,
        List.cons_append, List.nil_append]
      rw [ha _ (apart_mark (by decide) _), ofChars_mark (by decide), ofChars_gap hgap, hrow]

end Token

namespace Value

open Token

/-! ## Literals -/

theorem tokensAll_eq_row (vs : List Value) : tokensAll vs = row (vs.map tokens) := by
  induction vs with
  | nil => rfl
  | cons v vs ih =>
    cases vs with
    | nil => rw [tokensAll, List.map_singleton, row_singleton]
    | cons w vs =>
      simp only [List.map_cons] at ih ⊢
      rw [tokensAll, ih, row_cons_cons]
      exact nofun

theorem tokens_list (items : List Value) :
    (list items).tokens = .mark '[' :: (row (items.map tokens) ++ [.mark ']']) := by
  rw [tokens, tokensAll_eq_row]

/-- The marks after the parts of a tuple: one part alone has a comma of its own. -/
def ending (items : List Value) : List Token :=
  if items.length = 1 then [.mark ',', .mark ')'] else [.mark ')']

theorem tokens_tuple (items : List Value) :
    (tuple items).tokens = .mark '(' :: (row (items.map tokens) ++ ending items) := by
  match items with
  | [] => rfl
  | [v] => rw [tokens, List.map_singleton, row_singleton]; rfl
  | v :: w :: vs => rw [tokens, tokensAll_eq_row, ending, if_neg (by simp)]; exact nofun

def opening : Value → Token
  | none => .word "None"
  | bool true => .word "True"
  | bool false => .word "False"
  | int (.ofNat n) => .number n
  | int (.negSucc _) => .mark '-'
  | str s => .text s
  | list _ => .mark '['
  | _ => .mark '('

theorem exists_tokens {v : Value} (h : v.isLiteral = true) : ∃ rest, v.tokens = v.opening :: rest := by
  cases v with
  | none => exact ⟨_, rfl⟩
  | bool b => cases b <;> exact ⟨_, rfl⟩
  | int n => cases n <;> exact ⟨_, rfl⟩
  | str s => exact ⟨_, rfl⟩
  | list items => exact ⟨_, tokens_list items⟩
  | tuple items => exact ⟨_, tokens_tuple items⟩
  | real x => cases h
  | table names items => cases h

theorem opening_not_mem_closers (v : Value) : v.opening ∉ closers := by
  cases v with
  | bool b => cases b <;> simp [opening, closers]
  | int n => cases n <;> simp [opening, closers]
  | _ => simp [opening, closers]

theorem begins_tokens {v : Value} (h : v.isLiteral = true) : Begins v.tokens := by
  obtain ⟨rest, hrest⟩ := exists_tokens h
  exact ⟨_, rest, hrest, opening_not_mem_closers v⟩

theorem opening_eq {v w : Value} (hv : v.isLiteral = true) (hw : w.isLiteral = true) {xs ys : List Token}
    (h : v.tokens ++ xs = w.tokens ++ ys) : v.opening = w.opening := by
  obtain ⟨rest, hrest⟩ := exists_tokens hv
  obtain ⟨rest', hrest'⟩ := exists_tokens hw
  rw [hrest, hrest'] at h
  exact List.head_eq_of_cons_eq h

/-- The first token settles which literal it is, but for the parts of a group and the size of a negative number. -/
theorem cases_of_opening {v w : Value} (hv : v.isLiteral = true) (hw : w.isLiteral = true)
    (h : v.opening = w.opening) :
    v = w ∨ (∃ m n, v = int (.negSucc m) ∧ w = int (.negSucc n)) ∨ (∃ items items', v = list items ∧ w = list items') ∨
      ∃ items items', v = tuple items ∧ w = tuple items' := by
  rcases v with _ | (_ | _) | (_ | _) | _ | _ | _ | _ | _ <;>
    rcases w with _ | (_ | _) | (_ | _) | _ | _ | _ | _ | _ <;> simp_all [opening, isLiteral]

/-- The tokens tell this literal from every other, and from what stands after it. -/
def Told (v : Value) : Prop :=
  ∀ w : Value, w.isLiteral = true → ∀ xs ys, v.tokens ++ xs = w.tokens ++ ys → v = w ∧ xs = ys

theorem forall_of_allLiteral {vs : List Value} (h : allLiteral vs = true) : ∀ v ∈ vs, v.isLiteral = true := by
  induction vs with
  | nil => exact nofun
  | cons v vs ih =>
    rw [allLiteral, Bool.and_eq_true] at h
    exact List.forall_mem_cons.2 ⟨h.1, ih h.2⟩

theorem row_tokens_unique {items items' : List Value} (hlit : allLiteral items = true)
    (hlit' : allLiteral items' = true) (h : ∀ v ∈ items, v.Told) {close : Token} (hclose : close ∈ closers)
    {xs ys : List Token} (heq : row (items.map tokens) ++ close :: xs = row (items'.map tokens) ++ close :: ys) :
    items = items' ∧ xs = ys := by
  have hitems := forall_of_allLiteral hlit
  have hitems' := forall_of_allLiteral hlit'
  obtain ⟨hall, hxs⟩ := row_unique (fun v hv => begins_tokens (hitems v hv)) (fun w hw => begins_tokens (hitems' w hw))
    (fun v hv w hw => h v hv w (hitems' w hw)) hclose heq
  exact ⟨List.forall₂_eq_eq_eq ▸ hall, hxs⟩

/-- A tuple of one part is told by the mark after its comma. -/
theorem row_ne_single {v : Value} (hv : v.isLiteral = true) {items : List Value} (hlit : allLiteral items = true)
    (hlength : items.length ≠ 1) (h : ∀ w ∈ items, ∀ xs ys, w.tokens ++ xs = v.tokens ++ ys → xs = ys)
    {xs ys : List Token} : row (items.map tokens) ++ .mark ')' :: xs ≠ v.tokens ++ .mark ',' :: .mark ')' :: ys := by
  intro heq
  match items with
  | [] => exact (begins_tokens hv).ne_close (by decide) _ _ heq.symm
  | [w] => exact hlength rfl
  | w :: u :: items =>
    rw [List.map_cons, row_cons_append] at heq
    have hrest := List.tail_eq_of_cons_eq (h w List.mem_cons_self _ _ heq)
    have hu := begins_tokens (forall_of_allLiteral hlit u (by simp))
    exact (hu.row _).ne_close (by decide) _ _ hrest

theorem row_ending_unique {items items' : List Value} (hlit : allLiteral items = true)
    (hlit' : allLiteral items' = true) (h : ∀ v ∈ items, v.Told) {xs ys : List Token}
    (heq : row (items.map tokens) ++ (ending items ++ xs) = row (items'.map tokens) ++ (ending items' ++ ys)) :
    items = items' ∧ xs = ys := by
  have hitems := forall_of_allLiteral hlit
  have hitems' := forall_of_allLiteral hlit'
  unfold ending at heq
  by_cases hone : items.length = 1
  · obtain ⟨v, rfl⟩ := List.length_eq_one_iff.1 hone
    have hv := h v List.mem_cons_self
    rw [if_pos hone, List.map_singleton, row_singleton] at heq
    by_cases hone' : items'.length = 1
    · obtain ⟨w, rfl⟩ := List.length_eq_one_iff.1 hone'
      rw [if_pos hone', List.map_singleton, row_singleton] at heq
      obtain ⟨rfl, hrest⟩ := hv w (hitems' w List.mem_cons_self) _ _ heq
      exact ⟨rfl, List.append_cancel_left hrest⟩
    · rw [if_neg hone'] at heq
      refine absurd heq.symm (row_ne_single (hitems v List.mem_cons_self) hlit' hone' fun w hw xs ys heq => ?_)
      exact (hv w (hitems' w hw) ys xs heq.symm).2.symm
  · rw [if_neg hone] at heq
    by_cases hone' : items'.length = 1
    · obtain ⟨w, rfl⟩ := List.length_eq_one_iff.1 hone'
      have hw := hitems' w List.mem_cons_self
      rw [if_pos hone', List.map_singleton, row_singleton] at heq
      exact absurd heq (row_ne_single hw hlit hone fun v hv xs ys heq => (h v hv w hw xs ys heq).2)
    · rw [if_neg hone'] at heq
      exact row_tokens_unique hlit hlit' h (by decide) heq

theorem told_tuple {items : List Value} (hlit : allLiteral items = true) (h : ∀ v ∈ items, v.Told) :
    (tuple items).Told := by
  intro w hw xs ys heq
  have hlit₁ : (tuple items).isLiteral = true := by rwa [isLiteral]
  rcases cases_of_opening hlit₁ hw (opening_eq hlit₁ hw heq) with
    rfl | ⟨_, _, hn, -⟩ | ⟨_, _, hl, -⟩ | ⟨_, items', ⟨⟩, rfl⟩
  · exact ⟨rfl, List.append_cancel_left heq⟩
  · cases hn
  · cases hl
  · rw [isLiteral] at hw
    rw [tokens_tuple, tokens_tuple, List.cons_append, List.cons_append, List.append_assoc, List.append_assoc] at heq
    obtain ⟨rfl, hrest⟩ := row_ending_unique hlit hw h (List.tail_eq_of_cons_eq heq)
    exact ⟨rfl, hrest⟩

theorem told_list {items : List Value} (hlit : allLiteral items = true) (h : ∀ v ∈ items, v.Told) :
    (list items).Told := by
  intro w hw xs ys heq
  have hlit₁ : (list items).isLiteral = true := by rwa [isLiteral]
  rcases cases_of_opening hlit₁ hw (opening_eq hlit₁ hw heq) with
    rfl | ⟨_, _, hn, -⟩ | ⟨_, items', ⟨⟩, rfl⟩ | ⟨_, _, ht, -⟩
  · exact ⟨rfl, List.append_cancel_left heq⟩
  · cases hn
  · rw [isLiteral] at hw
    rw [tokens_list, tokens_list, List.cons_append, List.cons_append, List.append_assoc, List.append_assoc] at heq
    obtain ⟨rfl, hrest⟩ := row_tokens_unique hlit hw h (by decide) (List.tail_eq_of_cons_eq heq)
    exact ⟨rfl, hrest⟩
  · cases ht

/-- What is no group is told by its first token, or by the number after its sign. -/
theorem told_single {v : Value} (hv : v.isLiteral = true) (hl : ∀ items, v ≠ list items)
    (ht : ∀ items, v ≠ tuple items) : v.Told := by
  intro w hw xs ys heq
  rcases cases_of_opening hv hw (opening_eq hv hw heq) with
    rfl | ⟨m, n, rfl, rfl⟩ | ⟨items, _, hitems, -⟩ | ⟨items, _, hitems, -⟩
  · exact ⟨rfl, List.append_cancel_left heq⟩
  · cases heq
    exact ⟨rfl, rfl⟩
  · exact absurd hitems (hl items)
  · exact absurd hitems (ht items)

mutual

/-- **Unique reading.** No list of tokens begins with two different literals. -/
theorem told_of_isLiteral : ∀ v : Value, v.isLiteral = true → v.Told
  | .list items, h => told_list h (told_of_allLiteral items h)
  | .tuple items, h => told_tuple h (told_of_allLiteral items h)
  | .none, h => told_single h nofun nofun
  | .bool _, h => told_single h nofun nofun
  | .int _, h => told_single h nofun nofun
  | .str _, h => told_single h nofun nofun
  | .real _, h => nomatch h
  | .table _ _, h => nomatch h

theorem told_of_allLiteral : ∀ vs : List Value, allLiteral vs = true → ∀ v ∈ vs, v.Told
  | [], _ => nofun
  | v :: vs, h => by
    rw [allLiteral, Bool.and_eq_true] at h
    exact List.forall_mem_cons.2 ⟨told_of_isLiteral v h.1, told_of_allLiteral vs h.2⟩

end

end Value

end ImportAtlas
