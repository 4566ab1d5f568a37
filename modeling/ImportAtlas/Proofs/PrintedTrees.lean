import ImportAtlas.Proofs.UniqueReading
import ImportAtlas.Proofs.WellFormed
import ImportAtlas.Tree.Printer

/-!
# Printed trees are unambiguous

Whether a node takes one line or many, its printout falls into the same tokens: its label, and in brackets the row of
its children. Read as tokens, no printout begins with two trees that differ in more than the lines of their nodes and
the groups that their children stand in.
-/

namespace ImportAtlas

namespace Printout

theorem of_append_of (a b : String) : of a ++ of b = of (a ++ b) := rfl

theorem join_of (between : String) (texts : List String) :
    join between (texts.map of) = of (between.intercalate texts) := by
  induction texts with
  | nil => simp [join]
  | cons a texts ih =>
    cases texts with
    | nil => simp [join]
    | cons b texts =>
      simp only [List.map_cons] at ih ⊢
      rw [join, ih, of_append_of, of_append_of, String.intercalate_cons_cons, String.append_assoc]
      exact nofun

end Printout

namespace Tree

/-! ## One block for each child -/

section

variable (indent : String) (level : Int)

theorem itemBlocks_eq (items : List Tree) :
    itemBlocks indent level items = (openGroups items).map (block indent level) := by
  fun_induction openGroups items with
  | case1 => rfl
  | case2 items rest ih₁ ih₂ => rw [itemBlocks, ih₁, ih₂, List.map_append]
  | case3 items rest ih₁ ih₂ => rw [itemBlocks, ih₁, ih₂, List.map_append]
  | case4 t rest hl ht ih =>
    rw [itemBlocks, ih]
    · rfl
    · exact hl
    · exact ht

theorem childBlocks_single {role : Role} (hr : role ≠ .many) (t : Tree) (roles : List Role) (fields : List Tree) :
    childBlocks indent level (role :: roles) (t :: fields) =
      itemBlocks indent level [t] ++ childBlocks indent level roles fields := by
  cases t <;> simp [childBlocks, itemBlocks]

mutual

theorem memberBlocks_eq {t : Tree} {ms : List Tree} (h : members t = .ok ms) :
    memberBlocks indent level t = ms.map (block indent level) := by
  match t with
  | plain v =>
    rw [memberBlocks, h]
    rw [members] at h
    obtain ⟨vs, _, h⟩ := except_bind_inv h
    cases h
    simp [Except.toOption, block]
  | node kind line fields =>
    rw [members] at h
    cases hcs : childrenFrom kind.roles fields with
    | error fault => rw [hcs] at h; cases h
    | ok cs =>
      rw [hcs] at h
      cases h
      rw [memberBlocks, childBlocks_eq hcs]
  | list items =>
    rw [members] at h
    cases h
    rw [memberBlocks, itemBlocks_eq]
  | tuple items =>
    rw [members] at h
    cases h
    rw [memberBlocks, itemBlocks_eq]

theorem childBlocks_eq {roles : List Role} {fields cs : List Tree} (h : childrenFrom roles fields = .ok cs) :
    childBlocks indent level roles fields = (openGroups cs).map (block indent level) := by
  match roles, fields with
  | [], _ => simp [childrenFrom] at h; subst h; simp [openGroups, childBlocks]
  | _ :: _, [] => simp [childrenFrom] at h; subst h; simp [openGroups, childBlocks]
  | role :: roles, t :: fields =>
    by_cases hr : role = .many
    · subst hr
      rw [childrenFrom] at h
      obtain ⟨ms, hms, h⟩ := except_bind_inv h
      obtain ⟨rest, hrest, h⟩ := except_bind_inv h
      cases h
      rw [childBlocks, memberBlocks_eq hms, childBlocks_eq hrest, openGroups_append, openGroups_members hms,
        List.map_append]
    · rw [childrenFrom] at h
      · obtain ⟨rest, hrest, h⟩ := except_bind_inv h
        cases h
        rw [childBlocks_single indent level hr, itemBlocks_eq, childBlocks_eq hrest,
          show t :: rest = [t] ++ rest from rfl, openGroups_append, List.map_append]
      · exact hr

end

theorem fieldBlocks_eq {roles : List Role} {fields cs : List Tree} (h : childrenFrom roles fields = .ok cs) :
    fieldBlocks indent level roles fields = cs.map (block indent level) := by
  match roles, fields with
  | [], _ => simp [childrenFrom] at h; subst h; simp [fieldBlocks]
  | _ :: _, [] => simp [childrenFrom] at h; subst h; simp [fieldBlocks]
  | role :: roles, t :: fields =>
    by_cases hr : role = .many
    · subst hr
      rw [childrenFrom] at h
      obtain ⟨ms, hms, h⟩ := except_bind_inv h
      obtain ⟨rest, hrest, h⟩ := except_bind_inv h
      cases h
      rw [fieldBlocks, memberBlocks_eq indent level hms, fieldBlocks_eq hrest, List.map_append]
    · rw [childrenFrom] at h
      · obtain ⟨rest, hrest, h⟩ := except_bind_inv h
        cases h
        rw [fieldBlocks, fieldBlocks_eq hrest]
        · rfl
        · exact hr
      · exact hr

end

/-! ## Literals -/

mutual

theorem inline_of_value? : ∀ {t : Tree} {v : Value}, t.value? = some v → inline t = v.render
  | plain v, _, h => by cases h; rw [inline]
  | list items, _, h => by
    rw [value?] at h
    obtain ⟨vs, hvs, rfl⟩ := Option.map_eq_some_iff.1 h
    rw [inline, Value.render, inlineAll_of_values? hvs]
  | tuple [], _, h => by cases h; rfl
  | tuple [t], _, h => by
    rw [value?] at h
    obtain ⟨vs, hvs, rfl⟩ := Option.map_eq_some_iff.1 h
    obtain ⟨v, ws, rfl, hv, hws⟩ := values?_cons hvs
    cases hws
    rw [inline, Value.render, inline_of_value? hv]
  | tuple (t :: u :: ts), _, h => by
    rw [value?] at h
    obtain ⟨vs, hvs, rfl⟩ := Option.map_eq_some_iff.1 h
    have hall := inlineAll_of_values? hvs
    obtain ⟨v, vs, rfl, hv, hvs⟩ := values?_cons hvs
    obtain ⟨w, vs, rfl, hw, hvs⟩ := values?_cons hvs
    rw [inline, Value.render, hall]
    · exact nofun
    · exact nofun

theorem inlineAll_of_values? : ∀ {ts : List Tree} {vs : List Value}, values? ts = some vs →
    inlineAll ts = Value.renderAll vs
  | [], _, h => by cases h; rfl
  | t :: ts, _, h => by
    obtain ⟨v, vs, rfl, hv, hvs⟩ := values?_cons h
    rw [inlineAll, Value.renderAll, inline_of_value? hv, inlineAll_of_values? hvs]

end

theorem isNode_of_value? {t : Tree} {v : Value} (h : t.value? = some v) : t.isNode = false := by
  cases t with
  | node kind line fields => cases h
  | _ => rfl

theorem block_of_not_isNode {t : Tree} (h : t.isNode = false) (indent : String) (level : Int) :
    t.block indent level = leaf indent level t := by
  cases t with
  | node kind line fields => cases h
  | _ => rfl

theorem inline_eq_block {t : Tree} (h : t.isNode = false) : inline t = (t.block "" 0).text := by
  rw [block_of_not_isNode h]
  exact (String.empty_append).symm

theorem not_isNode_of_any {cs : List Tree} (h : ¬cs.any isNode = true) {c : Tree} (hc : c ∈ cs) : c.isNode = false := by
  by_contra hnode
  exact h (List.any_eq_true.2 ⟨c, hc, by simpa using hnode⟩)

/-! ## Nodes -/

/-- A literal, or a node whose children can be told and are such trees themselves. -/
inductive Writable : Tree → Prop
  | literal {t : Tree} {v : Value} : t.value? = some v → v.isLiteral = true → Writable t
  | node {kind : Kind} {line : Value} {fields cs : List Tree} : (node kind line fields).children = .ok cs →
    (∀ c ∈ cs, Writable c) → Writable (node kind line fields)

/-- The same literal, or nodes of one kind with the same children. Lines do not count, nor the groups that children
stand in. -/
inductive Alike : Tree → Tree → Prop
  | literal {t u : Tree} {v : Value} : t.value? = some v → u.value? = some v → Alike t u
  | node {kind : Kind} {line line' : Value} {fields fields' cs ds : List Tree} :
    (node kind line fields).children = .ok cs → (node kind line' fields').children = .ok ds →
    List.Forall₂ Alike cs ds → Alike (node kind line fields) (node kind line' fields')

def nodeBlock (indent : String) (level : Int) (kind : Kind) (cs : List Tree) : Printout :=
  let margin := Text.times indent level.toNat
  Printout.of (margin ++ kind.label ++ "(") ++
    (if cs.any isNode then
      Printout.of "\n" ++ Printout.join ",\n" (cs.map (block indent (level + 1))) ++ Printout.of ("\n" ++ margin)
    else .of (", ".intercalate (cs.map inline))) ++ Printout.of ")"

theorem block_of_children {kind : Kind} {line : Value} {fields cs : List Tree}
    (h : (node kind line fields).children = .ok cs) (indent : String) (level : Int) :
    (node kind line fields).block indent level = nodeBlock indent level kind cs := by
  rw [block, h]
  dsimp only
  rw [fieldBlocks_eq indent (level + 1) h]
  rfl

def inner (indent : String) (level : Int) (cs : List Tree) : String :=
  if cs.any isNode then
    "\n" ++ ",\n".intercalate (cs.map fun c => (c.block indent (level + 1)).text) ++
      ("\n" ++ Text.times indent level.toNat)
  else ", ".intercalate (cs.map inline)

theorem nodeBlock_eq {indent : String} {level : Int} {cs : List Tree}
    (h : ∀ c ∈ cs, (c.block indent (level + 1)).fault = none) (kind : Kind) : nodeBlock indent level kind cs =
      .of (Text.times indent level.toNat ++ kind.label ++ "(" ++ inner indent level cs ++ ")") := by
  have hblocks : cs.map (block indent (level + 1)) =
      (cs.map fun c => (c.block indent (level + 1)).text).map .of := by
    rw [List.map_map]
    refine List.map_congr_left fun c hc => ?_
    rw [Function.comp_apply, Printout.of, ← h c hc]
  rw [nodeBlock, hblocks, Printout.join_of, inner]
  split
  · rfl
  · rfl

theorem Writable.fault {t : Tree} (h : Writable t) (indent : String) (level : Int) :
    (t.block indent level).fault = none := by
  induction h generalizing level with
  | literal hv _ => rw [block_of_not_isNode (isNode_of_value? hv)]; rfl
  | node hcs _ ih => rw [block_of_children hcs, nodeBlock_eq fun c hc => ih c hc (level + 1)]; rfl

/-! ## The tokens of a printout -/

open Token

def Blank (text : String) : Prop := text.toList.all isGap = true

theorem ofChars_gaps {cs : List Char} (h : cs.all isGap = true) (rest : List Char) :
    ofChars (cs ++ rest) = ofChars rest := by
  induction cs with
  | nil => rfl
  | cons c cs ih =>
    rw [List.all_cons, Bool.and_eq_true] at h
    rw [List.cons_append, ofChars_gap h.1, ih h.2]

theorem blank_empty : Blank "" := rfl

theorem apart_nil : Apart [] := nofun

theorem Blank.times {indent : String} (h : Blank indent) (n : Nat) : Blank (Text.times indent n) := by
  rw [Blank, List.all_eq_true] at h ⊢
  intro c hc
  rw [Text.times, String.toList_join, List.mem_flatMap] at hc
  obtain ⟨copy, hcopy, hc⟩ := hc
  rw [List.eq_of_mem_replicate hcopy] at hc
  exact h c hc

def isPlainWord : List Char → Bool
  | [] => false
  | c :: cs => (c :: cs).all Text.isWord && !c.isDigit && (rawMark? (c :: cs)).isNone

theorem ofChars_plainWord {cs : List Char} (h : isPlainWord cs = true) {rest : List Char} (hrest : Apart rest) :
    ofChars (cs ++ rest) = .word (String.ofList cs) :: ofChars rest := by
  cases cs with
  | nil => cases h
  | cons c cs =>
    simp only [isPlainWord, Bool.and_eq_true, Bool.not_eq_true', Option.isNone_iff_eq_none] at h
    exact ofChars_word h.1.1 h.1.2 h.2 hrest

theorem ofChars_label (kind : Kind) {rest : List Char} (hrest : Apart rest) :
    ofChars (kind.label.toList ++ rest) = .word kind.label :: ofChars rest := by
  have hall : ∀ k ∈ Kind.all, isPlainWord k.label.toList = true := by decide +kernel
  rw [ofChars_plainWord (hall kind kind.mem_all) hrest, String.ofList_toList]

def tokens (t : Tree) : List Token :=
  ofChars (t.block "" 0).text.toList

def Falls (t : Tree) : Prop :=
  ∀ indent, Blank indent → ∀ (level : Int) (rest : List Char), Apart rest →
    ofChars ((t.block indent level).text.toList ++ rest) = t.tokens ++ ofChars rest

/-- Both layouts of the children are read as the same row. -/
theorem ofChars_inner {cs : List Tree} (h : ∀ c ∈ cs, c.Falls) {indent : String} (hblank : Blank indent) (level : Int)
    {rest : List Char} (hrest : Apart rest) :
    ofChars ((inner indent level cs).toList ++ rest) = row (cs.map tokens) ++ ofChars rest := by
  unfold inner
  split
  · -- the newlines and the indents of the children are gaps
    have hnewline : "\n".toList = ['\n'] := rfl
    have hend : Apart ('\n' :: ((Text.times indent level.toNat).toList ++ rest)) := apart_cons rfl _
    simp only [String.toList_append, List.append_assoc, hnewline, List.cons_append, List.nil_append]
    rw [ofChars_gap rfl, ofChars_row rfl rfl (fun c hc => h c hc indent hblank (level + 1)) hend, ofChars_gap rfl,
      ofChars_gaps (hblank.times _)]
  · rename_i hnone
    refine ofChars_row rfl rfl (fun c hc rest hrest => ?_) hrest
    rw [inline_eq_block (not_isNode_of_any hnone hc)]
    exact h c hc "" blank_empty 0 rest hrest

theorem ofChars_node {kind : Kind} {line : Value} {fields cs : List Tree}
    (hcs : (node kind line fields).children = .ok cs) (hw : ∀ c ∈ cs, Writable c) (h : ∀ c ∈ cs, c.Falls)
    {indent : String} (hblank : Blank indent) (level : Int) (rest : List Char) :
    ofChars (((node kind line fields).block indent level).text.toList ++ rest) =
      .word kind.label :: .mark '(' :: (row (cs.map tokens) ++ .mark ')' :: ofChars rest) := by
  have hopen : "(".toList = ['('] := rfl
  have hclose : ")".toList = [')'] := rfl
  rw [block_of_children hcs, nodeBlock_eq fun c hc => (hw c hc).fault indent (level + 1), Printout.of]
  simp only [String.toList_append, List.append_assoc, hopen, hclose, List.cons_append, List.nil_append]
  rw [ofChars_gaps (hblank.times _), ofChars_label kind (apart_mark (by decide) _), ofChars_mark (by decide),
    ofChars_inner h hblank level (apart_mark (by decide) _), ofChars_mark (by decide)]

theorem tokens_node {kind : Kind} {line : Value} {fields cs : List Tree}
    (hcs : (node kind line fields).children = .ok cs) (hw : ∀ c ∈ cs, Writable c) (h : ∀ c ∈ cs, c.Falls) :
    (node kind line fields).tokens = .word kind.label :: .mark '(' :: (row (cs.map tokens) ++ [.mark ')']) := by
  have hnode := ofChars_node hcs hw h blank_empty 0 []
  rwa [List.append_nil, ofChars_nil] at hnode

theorem ofChars_literal {t : Tree} {v : Value} (hv : t.value? = some v) (hlit : v.isLiteral = true)
    {indent : String} (hblank : Blank indent) (level : Int) {rest : List Char} (hrest : Apart rest) :
    ofChars ((t.block indent level).text.toList ++ rest) = v.tokens ++ ofChars rest := by
  rw [block_of_not_isNode (isNode_of_value? hv), leaf, Printout.of, inline_of_value? hv, String.toList_append,
    List.append_assoc, ofChars_gaps (hblank.times _), ofChars_render v hlit rest hrest]

theorem tokens_literal {t : Tree} {v : Value} (hv : t.value? = some v) (hlit : v.isLiteral = true) :
    t.tokens = v.tokens := by
  have hliteral := ofChars_literal hv hlit blank_empty 0 apart_nil
  rwa [List.append_nil, ofChars_nil, List.append_nil] at hliteral

/-- **Lexing.** A printout falls into the tokens of its tree, at any level. -/
theorem Writable.falls {t : Tree} (h : Writable t) : t.Falls := by
  induction h with
  | literal hv hlit =>
    intro indent hblank level rest hrest
    rw [tokens_literal hv hlit]
    exact ofChars_literal hv hlit hblank level hrest
  | node hcs hw ih =>
    intro indent hblank level rest _
    rw [tokens_node hcs hw ih, ofChars_node hcs hw ih hblank level rest]
    simp

/-! ## Unique reading -/

theorem label_injective {kind kind' : Kind} (h : kind.label = kind'.label) : kind = kind' := by
  have hall : ∀ k ∈ Kind.all, Kind.ofLabel? k.label = some k := by decide +kernel
  have hkind := hall kind kind.mem_all
  rw [h, hall kind' kind'.mem_all] at hkind
  exact (Option.some.inj hkind).symm

theorem opening_ne_label (v : Value) (kind : Kind) : v.opening ≠ .word kind.label := by
  have hall : ∀ k ∈ Kind.all, k.label ∉ ["None", "True", "False"] := by decide +kernel
  have hkind := hall kind kind.mem_all
  intro h
  rcases v with _ | (_ | _) | (_ | _) | _ | _ | _ | _ | _ <;> simp_all [Value.opening]

theorem Writable.begins {t : Tree} (h : Writable t) : Begins t.tokens := by
  cases h with
  | literal hv hlit => exact tokens_literal hv hlit ▸ Value.begins_tokens hlit
  | node hcs hw => exact ⟨_, _, tokens_node hcs hw fun c hc => (hw c hc).falls, by simp [closers]⟩

theorem literal_ne_node {t : Tree} {v : Value} {kind : Kind} {line : Value} {fields cs : List Tree}
    (hv : t.value? = some v) (hlit : v.isLiteral = true) (hcs : (Tree.node kind line fields).children = .ok cs)
    (hw : ∀ c ∈ cs, Writable c) (xs ys : List Token) :
    t.tokens ++ xs ≠ (Tree.node kind line fields).tokens ++ ys := by
  intro heq
  obtain ⟨rest, hrest⟩ := Value.exists_tokens hlit
  rw [tokens_literal hv hlit, hrest, tokens_node hcs hw fun c hc => (hw c hc).falls] at heq
  exact opening_ne_label v kind (List.head_eq_of_cons_eq heq)

/-- **Unique reading.** No list of tokens begins with two trees that are not alike. -/
theorem Writable.alike {t u : Tree} (ht : Writable t) (hu : Writable u) {xs ys : List Token}
    (heq : t.tokens ++ xs = u.tokens ++ ys) : Alike t u ∧ xs = ys := by
  induction ht generalizing u xs ys with
  | literal hv hlit =>
    cases hu with
    | literal hw hlit' =>
      rw [tokens_literal hv hlit, tokens_literal hw hlit'] at heq
      obtain ⟨rfl, hxs⟩ := Value.told_of_isLiteral _ hlit _ hlit' _ _ heq
      exact ⟨.literal hv hw, hxs⟩
    | node hds hw => exact absurd heq (literal_ne_node hv hlit hds hw _ _)
  | node hcs hw ih =>
    cases hu with
    | literal hv hlit => exact absurd heq.symm (literal_ne_node hv hlit hcs hw _ _)
    | node hds hw' =>
      rw [tokens_node hcs hw fun c hc => (hw c hc).falls, tokens_node hds hw' fun d hd => (hw' d hd).falls] at heq
      simp only [List.cons_append, List.append_assoc, List.nil_append, List.cons.injEq, Token.word.injEq,
        true_and] at heq
      obtain ⟨hlabel, heq⟩ := heq
      cases label_injective hlabel
      -- a part of the row is a child, and its tokens end where it ends by the hypothesis of induction
      obtain ⟨hall, hxs⟩ := row_unique (fun c hc => (hw c hc).begins) (fun d hd => (hw' d hd).begins)
        (fun c hc d hd xs ys heq => ih c hc (hw' d hd) heq) (by decide) heq
      exact ⟨.node hcs hds hall, hxs⟩

/-! ## The same printout -/

theorem map_eq_of_forall₂ {α β γ : Type} {R : α → β → Prop} {f : α → γ} {g : β → γ} {as : List α} {bs : List β}
    (h : List.Forall₂ R as bs) (hR : ∀ a ∈ as, ∀ b, R a b → f a = g b) : as.map f = bs.map g := by
  induction h with
  | nil => rfl
  | cons hab _ ih =>
    rw [List.map_cons, List.map_cons, hR _ List.mem_cons_self _ hab,
      ih fun a ha => hR a (List.mem_cons_of_mem _ ha)]

theorem Alike.isNode_eq {t u : Tree} (h : Alike t u) : t.isNode = u.isNode := by
  cases h with
  | literal ht hu => rw [isNode_of_value? ht, isNode_of_value? hu]
  | node => rfl

theorem Alike.inline_eq {t u : Tree} (h : Alike t u) (hleaf : t.isNode = false) : inline t = inline u := by
  cases h with
  | literal ht hu => rw [inline_of_value? ht, inline_of_value? hu]
  | node => cases hleaf

theorem any_isNode_eq {cs ds : List Tree} (h : List.Forall₂ Alike cs ds) : cs.any isNode = ds.any isNode := by
  induction h with
  | nil => rfl
  | cons hcd _ ih => rw [List.any_cons, List.any_cons, hcd.isNode_eq, ih]

/-- Trees that are alike are printed alike. -/
theorem Writable.block_eq {t u : Tree} (ht : Writable t) (h : Alike t u) (indent : String) (level : Int) :
    t.block indent level = u.block indent level := by
  induction ht generalizing u level with
  | literal hv _ =>
    have hleaf := isNode_of_value? hv
    rw [block_of_not_isNode hleaf, block_of_not_isNode (h.isNode_eq ▸ hleaf), leaf, leaf, h.inline_eq hleaf]
  | node hcs hw ih =>
    cases h with
    | literal hv _ => cases hv
    | node hcs' hds hall =>
      cases hcs.symm.trans hcs'
      have hblocks := map_eq_of_forall₂ hall fun c hc d hd => ih c hc hd (level + 1)
      rw [block_of_children hcs, block_of_children hds, nodeBlock, nodeBlock, hblocks, any_isNode_eq hall]
      split
      · rfl
      · rename_i hnone
        rw [← any_isNode_eq hall] at hnone
        have hinline := map_eq_of_forall₂ hall fun c hc d hd => hd.inline_eq (not_isNode_of_any hnone hc)
        rw [hinline]

/-! ## Well-formed trees -/

mutual

def literalData : Tree → Bool
  | plain v => v.isLiteral
  | node _ _ fields => literalDataIn fields
  | list items => literalDataIn items
  | tuple items => literalDataIn items

def literalDataIn : List Tree → Bool
  | [] => true
  | t :: ts => literalData t && literalDataIn ts

end

mutual

theorem isLiteral_of_value? : ∀ {t : Tree} {v : Value}, t.value? = some v → t.literalData = true → v.isLiteral = true
  | plain v, _, h, hd => by cases h; exact hd
  | list items, _, h, hd => by
    rw [value?] at h
    obtain ⟨vs, hvs, rfl⟩ := Option.map_eq_some_iff.1 h
    exact allLiteral_of_values? hvs hd
  | tuple items, _, h, hd => by
    rw [value?] at h
    obtain ⟨vs, hvs, rfl⟩ := Option.map_eq_some_iff.1 h
    exact allLiteral_of_values? hvs hd

theorem allLiteral_of_values? : ∀ {ts : List Tree} {vs : List Value}, values? ts = some vs →
    literalDataIn ts = true → Value.allLiteral vs = true
  | [], _, h, _ => by cases h; rfl
  | t :: ts, _, h, hd => by
    obtain ⟨v, vs, rfl, hv, hvs⟩ := values?_cons h
    rw [literalDataIn, Bool.and_eq_true] at hd
    rw [Value.allLiteral, isLiteral_of_value? hv hd.1, allLiteral_of_values? hvs hd.2]
    rfl

end

def WritableFields (roles : List Role) (fields : List Tree) : Prop :=
  ∃ cs, childrenFrom roles fields = .ok cs ∧ ∀ c ∈ cs, Writable c

theorem WritableFields.one {roles : List Role} {fields : List Tree} (h : WritableFields roles fields) {role : Role}
    (hr : role ≠ .many) {t : Tree} (ht : Writable t) : WritableFields (role :: roles) (t :: fields) := by
  obtain ⟨cs, hcs, hw⟩ := h
  refine ⟨t :: cs, ?_, List.forall_mem_cons.2 ⟨ht, hw⟩⟩
  rw [childrenFrom, hcs]
  · rfl
  · exact hr

theorem WritableFields.many {roles : List Role} {fields : List Tree} (h : WritableFields roles fields) {t : Tree}
    {items : List Tree} (ht : t = list items ∨ t = tuple items) (hitems : ∀ c ∈ openGroups items, Writable c) :
    WritableFields (.many :: roles) (t :: fields) := by
  obtain ⟨cs, hcs, hw⟩ := h
  refine ⟨openGroups items ++ cs, ?_, List.forall_mem_append.2 ⟨hitems, hw⟩⟩
  rw [childrenFrom, members_of_group ht, hcs]
  rfl

mutual

theorem writable_of_wellFormed : ∀ {t : Tree}, t.wellFormed = true → t.literalData = true → Writable t
  | node kind line fields, h, hd => by
    rw [wellFormed, Bool.and_eq_true] at h
    obtain ⟨cs, hcs, hw⟩ := writable_of_fieldsFit h.1 hd
    exact .node hcs hw
  | plain _, h, _ => by simp [wellFormed] at h
  | list _, h, _ => by simp [wellFormed] at h
  | tuple _, h, _ => by simp [wellFormed] at h

theorem writable_of_fieldsFit : ∀ {roles : List Role} {fields : List Tree}, fieldsFit roles fields = true →
    literalDataIn fields = true → WritableFields roles fields
  | [], [], _, _ => ⟨[], by simp [childrenFrom], nofun⟩
  | [], _ :: _, h, _ => by simp [fieldsFit] at h
  | _ :: _, [], h, _ => by simp [fieldsFit] at h
  | role :: roles, t :: fields, h, hd => by
    rw [literalDataIn, Bool.and_eq_true] at hd
    cases role with
    | plain =>
      rw [fieldsFit, Bool.and_eq_true] at h
      obtain ⟨v, hv⟩ := Option.isSome_iff_exists.1 h.1
      exact (writable_of_fieldsFit h.2 hd.2).one (by decide) (.literal hv (isLiteral_of_value? hv hd.1))
    | node =>
      rw [fieldsFit, Bool.and_eq_true] at h
      exact (writable_of_fieldsFit h.2 hd.2).one (by decide) (writable_of_wellFormed h.1 hd.1)
    | optional =>
      by_cases ht : t = plain .none
      · subst ht
        rw [fieldsFit] at h
        exact (writable_of_fieldsFit h hd.2).one (by decide) (.literal rfl rfl)
      · rw [fieldsFit, Bool.and_eq_true] at h
        · exact (writable_of_fieldsFit h.2 hd.2).one (by decide) (writable_of_wellFormed h.1 hd.1)
        · exact ht
    | many =>
      match t with
      | list items =>
        rw [fieldsFit, Bool.and_eq_true] at h
        exact (writable_of_fieldsFit h.2 hd.2).many (.inl rfl) (writable_of_itemsFit h.1 hd.1)
      | tuple items =>
        rw [fieldsFit, Bool.and_eq_true] at h
        exact (writable_of_fieldsFit h.2 hd.2).many (.inr rfl) (writable_of_itemsFit h.1 hd.1)
      | plain v => simp [fieldsFit] at h
      | node kind line fields => simp [fieldsFit] at h

theorem writable_of_itemsFit : ∀ {items : List Tree}, itemsFit items = true → literalDataIn items = true →
    ∀ c ∈ openGroups items, Writable c
  | [], _, _ => by simp [openGroups]
  | t :: rest, h, hd => by
    rw [literalDataIn, Bool.and_eq_true] at hd
    match t with
    | plain v =>
      rw [itemsFit] at h
      rw [openGroups_single (by simp) (by simp)]
      exact List.forall_mem_cons.2 ⟨.literal rfl hd.1, writable_of_itemsFit h hd.2⟩
    | node kind line fields =>
      simp only [itemsFit, Bool.and_eq_true] at h
      rw [openGroups_single (by simp) (by simp)]
      exact List.forall_mem_cons.2 ⟨writable_of_wellFormed h.1 hd.1, writable_of_itemsFit h.2 hd.2⟩
    | list items =>
      simp only [itemsFit, Bool.and_eq_true] at h
      rw [openGroups]
      exact List.forall_mem_append.2 ⟨writable_of_itemsFit h.1 hd.1, writable_of_itemsFit h.2 hd.2⟩
    | tuple items =>
      simp only [itemsFit, Bool.and_eq_true] at h
      rw [openGroups]
      exact List.forall_mem_append.2 ⟨writable_of_itemsFit h.1 hd.1, writable_of_itemsFit h.2 hd.2⟩

end

/-- **Printouts are unambiguous.** A tree is printed as one text, and another tree is printed as that text if and only
if they are alike. -/
theorem printed_iff_alike {indent : String} (hblank : Blank indent) (level : Int) {t u : Tree} (ht : Writable t)
    (hu : Writable u) : ∃ text, (t.printed indent level).finished = .ok text ∧
      ((u.printed indent level).finished = .ok text ↔ Alike t u) := by
  have hfinished : ∀ {t : Tree}, Writable t →
      (t.printed indent level).finished = .ok ((t.block indent level).text ++ "\n") := by
    intro t ht
    rw [printed, Printout.append_eq, Printout.append, ht.fault indent level]
    rfl
  have hline : Apart "\n".toList := apart_cons rfl []
  refine ⟨_, hfinished ht, ?_⟩
  rw [hfinished hu]
  constructor
  · intro heq
    have htexts := congrArg String.toList (Except.ok.inj heq)
    rw [String.toList_append, String.toList_append] at htexts
    have htokens := congrArg ofChars htexts
    rw [hu.falls indent hblank level _ hline, ht.falls indent hblank level _ hline] at htokens
    exact (ht.alike hu htokens.symm).1
  · intro halike
    rw [ht.block_eq halike indent level]

/-- A list with a text that looks like a node, and a group in it. -/
def grouped : Tree :=
  node .list (.int 1) [list [node .const (.int 1) [word "Name('x'), "],
    tuple [node .name .none [word "x"], plain (.tuple [.int (-1)])]]]

def ungrouped : Tree :=
  node .list (.int 7) [tuple [node .const (.int 7) [word "Name('x'), "], node .name (.int 7) [word "x"],
    plain (.tuple [.int (-1)])]]

def merged : Tree :=
  node .list (.int 1) [list [node .const (.int 1) [word "Name('x'), Name('x')"], plain (.tuple [.int (-1)])]]

theorem printed_list {t : Tree} {items : List Tree} (ht : t = list items ∨ t = tuple items) (line : Value)
    (indent : String) (level : Int) : (node .list line [t]).printed indent level =
      nodeBlock indent level .list (openGroups items) ++ .of "\n" := by
  have hcs : (node .list line [t]).children = .ok (openGroups items ++ []) := by
    rw [children, Kind.roles, childrenFrom, members_of_group ht]
    rfl
  rw [printed, block_of_children hcs, List.append_nil]

theorem printed_grouped : [grouped, ungrouped, merged].all (fun t => t.wellFormed && t.literalData) = true ∧
    Alike grouped ungrouped ∧ ¬Alike grouped merged := by
  have hall : [grouped, ungrouped, merged].all (fun t => t.wellFormed && t.literalData) = true := by decide
  have hwritable : ∀ t ∈ [grouped, ungrouped, merged], Writable t := by
    intro t ht
    have hfit := List.all_eq_true.1 hall t ht
    rw [Bool.and_eq_true] at hfit
    exact writable_of_wellFormed hfit.1 hfit.2
  have hblank : Blank "  " := by unfold Blank; decide
  have hsame : (ungrouped.printed "  " 0).finished = (grouped.printed "  " 0).finished := by
    rw [ungrouped, grouped, printed_list (.inr rfl), printed_list (.inl rfl)]
    simp only [openGroups]
    decide +kernel
  have hother : (merged.printed "  " 0).finished ≠ (grouped.printed "  " 0).finished := by
    rw [merged, grouped, printed_list (.inl rfl), printed_list (.inl rfl)]
    simp only [openGroups]
    decide +kernel
  have hgrouped := hwritable grouped (by simp)
  obtain ⟨_, htext, hiff⟩ := printed_iff_alike hblank 0 hgrouped (hwritable ungrouped (by simp))
  obtain ⟨_, htext', hiff'⟩ := printed_iff_alike hblank 0 hgrouped (hwritable merged (by simp))
  exact ⟨hall, hiff.1 (hsame.trans htext), fun halike => hother ((hiff'.2 halike).trans htext'.symm)⟩

end Tree

end ImportAtlas
