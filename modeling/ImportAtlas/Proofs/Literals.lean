import ImportAtlas.Proofs.Tokens

/-!
# Reading undoes writing

The reader goes once through the tokens with a stack of open groups. The tokens of a literal take it from a
group that waits for an operand to the same group with that operand, whatever lies below; by induction over
the literal its written form is read as the literal itself.
-/

namespace ImportAtlas

namespace Value

open Reader

mutual

def operand : Value → Operand
  | str s => .text s
  | int (.negSucc n) => .other (.minus (.const (.int (n + 1))))
  | list items => .other (.list (exprs items))
  | tuple items => .other (.tuple (exprs items))
  | v => .other (.const v)

def exprs : List Value → List Expr
  | [] => []
  | v :: vs => (operand v).expr :: exprs vs

end

theorem length_exprs (vs : List Value) : (exprs vs).length = vs.length := by
  induction vs with
  | nil => rfl
  | cons v vs ih => simp [exprs, ih]

mutual

theorem value_operand : ∀ v : Value, v.isLiteral = true → (operand v).expr.value = .ok v
  | .none, _ => rfl
  | .bool _, _ => rfl
  | .int (.ofNat _), _ => rfl
  | .int (.negSucc _), _ => rfl
  | .str _, _ => rfl
  | .list items, h => by
    simp only [operand, Operand.expr, Expr.value, values_exprs items h]
    rfl
  | .tuple items, h => by
    simp only [operand, Operand.expr, Expr.value, values_exprs items h]
    rfl
  | .real _, h => by simp [isLiteral] at h
  | .table _ _, h => by simp [isLiteral] at h

theorem values_exprs : ∀ vs : List Value, allLiteral vs = true → Expr.values (exprs vs) = .ok vs
  | [], _ => rfl
  | v :: vs, h => by
    simp only [allLiteral, Bool.and_eq_true] at h
    simp only [exprs, Expr.values, value_operand v h.1, values_exprs vs h.2]
    rfl

end

end Value

namespace Reader

open Value (operand exprs)

/-! ## Groups -/

/-- The group waits for an operand, and nothing stands before that. -/
structure Group.Waits (g : Group) : Prop where
  last : g.last = none
  signs : g.signs = 0
  numerator : g.numerator = none

def Group.with (g : Group) (o : Operand) : Group :=
  { g with last := some o }

def Group.past (g : Group) (o : Operand) : Group :=
  { g with items := o.expr :: g.items, comma := true, last := none }

def Group.holding (g : Group) : List Value → Group
  | [] => g
  | [v] => g.with (operand v)
  | v :: vs => (g.past (operand v)).holding vs

theorem Group.Waits.past {g : Group} (h : g.Waits) (o : Operand) : (g.past o).Waits :=
  ⟨rfl, h.signs, h.numerator⟩

theorem Group.Waits.start (b : Option Token.Bracket) : ({ bracket := b } : Group).Waits :=
  ⟨rfl, rfl, rfl⟩

theorem Group.put_of_waits {g : Group} (h : g.Waits) (o : Operand) : g.put o = .ok (g.with o) := by
  simp [Group.put, Group.with, h.last, h.signs, h.numerator]

theorem Group.put_minus {g : Group} (h : g.Waits) (o : Operand) :
    ({ g with signs := g.signs + 1 } : Group).put o = .ok (g.with (.other (.minus o.expr))) := by
  obtain ⟨hl, hs, hn⟩ := h
  cases g
  simp_all [Group.put, Group.with, withSigns]

theorem Group.bracket_holding (g : Group) (vs : List Value) : (g.holding vs).bracket = g.bracket := by
  induction vs generalizing g with
  | nil => rfl
  | cons v vs ih =>
    cases vs with
    | nil => rfl
    | cons w vs => exact ih (g.past (operand v))

theorem Group.operands_holding {g : Group} (h : g.Waits) (vs : List Value) :
    (g.holding vs).operands = .ok (g.items.reverse ++ exprs vs) := by
  induction vs generalizing g with
  | nil => simp [Group.holding, Group.operands, h.last, h.signs, h.numerator, exprs]
  | cons v vs ih =>
    cases vs with
    | nil => simp [Group.holding, Group.operands, Group.with, h.signs, h.numerator, exprs]
    | cons w vs =>
      have := ih (h.past (operand v))
      simp only [Group.holding] at this ⊢
      rw [this]
      simp [Group.past, exprs]

theorem Group.close_square (vs : List Value) :
    (({ bracket := some .square } : Group).holding vs).close = .ok (.list (exprs vs)) := by
  unfold Group.close
  rw [Group.operands_holding (.start _), Group.bracket_holding]
  rfl

theorem Group.close_round {vs : List Value} (h : vs.length ≠ 1) :
    (({ bracket := some .round } : Group).holding vs).close = .ok (.tuple (exprs vs)) := by
  have hl := Value.length_exprs vs
  unfold Group.close
  rw [Group.operands_holding (.start _), Group.bracket_holding]
  match he : exprs vs with
  | [] => rfl
  | [e] => exact absurd (by simpa [he] using hl.symm) h
  | _ :: _ :: _ => rfl

theorem Group.close_past (o : Operand) :
    (({ bracket := some .round } : Group).past o).close = .ok (.tuple [o.expr]) := rfl

/-! ## The fold -/

def State.with (s : State) (o : Operand) : State :=
  { s with top := s.top.with o }

def State.inside (s : State) (b : Token.Bracket) : State :=
  { top := { bracket := some b }, outer := s.top :: s.outer }

theorem foldlM_ok {s s' : State} {t : Token} (h : s.step t = .ok s') (ts : List Token) :
    (t :: ts).foldlM State.step s = ts.foldlM State.step s' := by
  rw [List.foldlM_cons, h]
  rfl

theorem State.put_of_waits {s : State} (h : s.top.Waits) (o : Operand) : s.put o = .ok (s.with o) := by
  simp only [State.put, Group.put_of_waits h]
  rfl

theorem foldlM_put {s : State} (hs : s.top.Waits) {t : Token} {o : Operand} (h : s.step t = s.put o)
    (ts : List Token) : (t :: ts).foldlM State.step s = ts.foldlM State.step (s.with o) :=
  foldlM_ok (h.trans (State.put_of_waits hs o)) ts

theorem State.step_open {s : State} (h : s.top.Waits) :
    s.step (.mark '(') = .ok (s.inside .round) ∧ s.step (.mark '[') = .ok (s.inside .square) := by
  constructor
  · change s.opened .round = _
    simp [State.opened, State.inside, h.last]
  · change s.opened .square = _
    simp [State.opened, State.inside, h.last]

theorem State.step_comma (s : State) (o : Operand) :
    (s.with o).step (.mark ',') = .ok { s with top := s.top.past o } := rfl

theorem State.step_close {s : State} (h : s.top.Waits) {b : Token.Bracket} {g : Group} {e : Expr}
    (hb : g.bracket = some b) (he : g.close = .ok e) :
    ({ s.inside b with top := g } : State).step (.mark b.closer) = .ok (s.with (.other e)) := by
  have hc : ({ s.inside b with top := g } : State).closed b = .ok (s.with (.other e)) := by
    simp only [State.closed, State.inside, hb, ne_eq, not_true, if_false, he]
    change (do return { top := ← s.top.put (.other e), outer := s.outer } : Except ReadError State) = _
    rw [Group.put_of_waits h]
    rfl
  cases b with
  | round => exact hc
  | square => exact hc

mutual

/-- **Reading.** The tokens of a literal give a waiting group its operand. -/
theorem foldlM_tokens : ∀ (v : Value), v.isLiteral = true → ∀ (s : State), s.top.Waits → ∀ (ts : List Token),
    (v.tokens ++ ts).foldlM State.step s = ts.foldlM State.step (s.with v.operand)
  | .none, _, s, hs, ts => foldlM_put hs rfl ts
  | .bool true, _, s, hs, ts => foldlM_put hs rfl ts
  | .bool false, _, s, hs, ts => foldlM_put hs rfl ts
  | .int (.ofNat _), _, s, hs, ts => foldlM_put hs rfl ts
  | .str _, _, s, hs, ts => foldlM_put hs rfl ts
  | .int (.negSucc n), _, s, hs, ts => by
    -- the sign is kept until the number comes
    have h1 : s.step (.mark '-') = .ok { s with top := { s.top with signs := s.top.signs + 1 } } := by
      change s.mark '-' = _
      simp [State.mark, hs.last]
    have h2 : ({ s with top := { s.top with signs := s.top.signs + 1 } } : State).step (.number (n + 1)) =
        .ok (s.with (Value.int (.negSucc n)).operand) := by
      simp only [State.step, State.put, Group.put_minus hs]
      rfl
    exact (foldlM_ok h1 _).trans (foldlM_ok h2 ts)
  | .list items, h, s, hs, ts => by
    have hg : (({ bracket := some .square } : Group).holding items).bracket = some .square :=
      Group.bracket_holding _ _
    simp only [Value.tokens, List.cons_append, List.append_assoc, List.nil_append]
    rw [foldlM_ok (State.step_open hs).2, foldlM_tokensAll items h _ (.start _)]
    exact foldlM_ok (State.step_close hs hg (Group.close_square items)) ts
  | .tuple [], _, s, hs, ts => by
    simp only [Value.tokens, Value.tokensAll, List.cons_append, List.nil_append]
    rw [foldlM_ok (State.step_open hs).1]
    exact foldlM_ok (State.step_close (b := .round) hs rfl rfl) ts
  | .tuple [item], h, s, hs, ts => by
    -- the comma tells a tuple of one part from a part in brackets
    have hi : item.isLiteral = true := by simpa [Value.isLiteral, Value.allLiteral] using h
    simp only [Value.tokens, List.cons_append, List.append_assoc, List.nil_append]
    rw [foldlM_ok (State.step_open hs).1, foldlM_tokens item hi _ (.start _), foldlM_ok (State.step_comma _ _)]
    exact foldlM_ok (State.step_close (b := .round) hs rfl (Group.close_past _)) ts
  | .tuple (v :: w :: vs), h, s, hs, ts => by
    have hg : (({ bracket := some .round } : Group).holding (v :: w :: vs)).bracket = some .round :=
      Group.bracket_holding _ _
    simp only [Value.tokens, List.cons_append, List.append_assoc, List.nil_append]
    rw [foldlM_ok (State.step_open hs).1, foldlM_tokensAll (v :: w :: vs) h _ (.start _)]
    exact foldlM_ok (State.step_close hs hg (Group.close_round (by simp))) ts
  | .real _, h, _, _, _ => by simp [Value.isLiteral] at h
  | .table _ _, h, _, _, _ => by simp [Value.isLiteral] at h

theorem foldlM_tokensAll : ∀ (vs : List Value), Value.allLiteral vs = true → ∀ (s : State), s.top.Waits →
    ∀ (ts : List Token), (Value.tokensAll vs ++ ts).foldlM State.step s =
      ts.foldlM State.step { s with top := s.top.holding vs }
  | [], _, s, _, ts => rfl
  | [v], h, s, hs, ts => foldlM_tokens v (by simpa [Value.allLiteral] using h) s hs ts
  | v :: w :: vs, h, s, hs, ts => by
    simp only [Value.allLiteral, Bool.and_eq_true] at h
    simp only [Value.tokensAll, List.append_assoc, List.cons_append]
    rw [foldlM_tokens v h.1 s hs, foldlM_ok (State.step_comma _ _)]
    exact foldlM_tokensAll (w :: vs) (by simpa [Value.allLiteral] using h.2) _ (hs.past _) ts

end

theorem expression_tokens {v : Value} (h : v.isLiteral = true) : expression v.tokens = .ok v.operand.expr := by
  have hf := foldlM_tokens v h { top := { bracket := none } } (.start none) []
  rw [List.append_nil] at hf
  unfold expression
  rw [hf]
  rfl

end Reader

/-! ## Brackets fit -/

namespace Token

mutual

theorem flaw_tokens : ∀ (v : Value), v.isLiteral = true → ∀ (pending : List Bracket) (ts : List Token),
    flaw? pending (v.tokens ++ ts) = flaw? pending ts
  | .none, _, _, _ => rfl
  | .bool true, _, _, _ => rfl
  | .bool false, _, _, _ => rfl
  | .int (.ofNat _), _, _, _ => rfl
  | .int (.negSucc _), _, _, _ => rfl
  | .str _, _, _, _ => rfl
  | .list items, h, pending, ts => by
    have := flaw_tokensAll items h (.square :: pending) (.mark ']' :: ts)
    simp only [Value.tokens, List.cons_append, List.append_assoc, List.nil_append]
    exact this
  | .tuple [], _, _, _ => rfl
  | .tuple [item], h, pending, ts => by
    have hi : item.isLiteral = true := by simpa [Value.isLiteral, Value.allLiteral] using h
    have := flaw_tokens item hi (.round :: pending) (.mark ',' :: .mark ')' :: ts)
    simp only [Value.tokens, List.cons_append, List.append_assoc, List.nil_append]
    exact this
  | .tuple (v :: w :: vs), h, pending, ts => by
    have := flaw_tokensAll (v :: w :: vs) h (.round :: pending) (.mark ')' :: ts)
    simp only [Value.tokens, List.cons_append, List.append_assoc, List.nil_append]
    exact this
  | .real _, h, _, _ => by simp [Value.isLiteral] at h
  | .table _ _, h, _, _ => by simp [Value.isLiteral] at h

theorem flaw_tokensAll : ∀ (vs : List Value), Value.allLiteral vs = true → ∀ (pending : List Bracket)
    (ts : List Token), flaw? pending (Value.tokensAll vs ++ ts) = flaw? pending ts
  | [], _, _, _ => rfl
  | [v], h, pending, ts => flaw_tokens v (by simpa [Value.allLiteral] using h) pending ts
  | v :: w :: vs, h, pending, ts => by
    simp only [Value.allLiteral, Bool.and_eq_true] at h
    have hv := flaw_tokens v h.1 pending (.mark ',' :: (Value.tokensAll (w :: vs) ++ ts))
    have hw := flaw_tokensAll (w :: vs) (by simpa [Value.allLiteral] using h.2) pending ts
    simp only [Value.tokensAll, List.append_assoc, List.cons_append] at hv hw ⊢
    rw [hv]
    exact hw

end

end Token

/-! ## Lines -/

namespace Value

theorem tokens_ne_nil {v : Value} (h : v.isLiteral = true) : v.tokens ≠ [] := by
  intro ht
  have := Reader.expression_tokens h
  rw [ht] at this
  cases this

theorem ofChars_blanks {cs : List Char} (h : cs.all (fun c => c = ' ' || c = '\t') = true) :
    Token.ofChars cs = [] := by
  induction cs with
  | nil => exact Token.ofChars_nil
  | cons c cs ih =>
    simp only [List.all_cons, Bool.and_eq_true, Bool.or_eq_true, decide_eq_true_eq] at h
    have hg : Token.isGap c = true := by rcases h.1 with rfl | rfl <;> rfl
    rw [Token.ofChars_gap hg]
    exact ih (by simpa using h.2)

/-- **Round trip.** A literal on a line of its own is read as itself. -/
theorem read_render {v : Value} (h : v.isLiteral = true) : read (v.render ++ "\n") = .ok v := by
  have ht : Token.ofChars (v.render ++ "\n").toList = v.tokens := by
    rw [String.toList_append]
    change Token.ofChars (v.render.toList ++ ['\n']) = _
    rw [Token.ofChars_render v h ['\n'] (Token.apart_cons (by decide) []), Token.ofChars_gap rfl,
      Token.ofChars_nil, List.append_nil]
  have hb : (v.render ++ "\n").toList.all (fun c => c = ' ' || c = '\t') = false := by
    by_contra hb
    rw [Bool.not_eq_false] at hb
    exact tokens_ne_nil h (ht.symm.trans (ofChars_blanks hb))
  have hf : Token.flaw? [] v.tokens = Option.none := by
    have := Token.flaw_tokens v h [] []
    rwa [List.append_nil] at this
  unfold read
  simp only [hb, ht, hf, Reader.expression_tokens h]
  exact value_operand v h

end Value

end ImportAtlas
