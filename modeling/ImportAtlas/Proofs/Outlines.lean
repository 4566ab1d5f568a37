import ImportAtlas.Proofs.Runs
import ImportAtlas.Tree.Visitor

/-!
# Outlines

The outline of a tree lists its nodes from the top, each before those below it.
-/

namespace ImportAtlas

namespace Tree

/-! ## Groups -/

theorem openGroups_single {t : Tree} (hl : ∀ items, t ≠ list items) (ht : ∀ items, t ≠ tuple items) (rest : List Tree) :
    openGroups (t :: rest) = t :: openGroups rest := by
  cases t with
  | list items => exact absurd rfl (hl items)
  | tuple items => exact absurd rfl (ht items)
  | plain v => rw [openGroups] <;> simp
  | node kind line fields => rw [openGroups] <;> simp

theorem openGroups_append (as bs : List Tree) : openGroups (as ++ bs) = openGroups as ++ openGroups bs := by
  fun_induction openGroups as with
  | case1 => rfl
  | case2 items rest ih₁ ih₂ => simp [openGroups, ih₂]
  | case3 items rest ih₁ ih₂ => simp [openGroups, ih₂]
  | case4 t rest hl ht ih => rw [List.cons_append, openGroups_single hl ht, ih, List.cons_append]

theorem openGroups_openGroups (ts : List Tree) : openGroups (openGroups ts) = openGroups ts := by
  fun_induction openGroups ts with
  | case1 => simp [openGroups]
  | case2 items rest ih₁ ih₂ => rw [openGroups_append, ih₁, ih₂]
  | case3 items rest ih₁ ih₂ => rw [openGroups_append, ih₁, ih₂]
  | case4 t rest hl ht ih => rw [openGroups_single hl ht, ih]

theorem sizeOf_lt_of_mem_openGroups {c : Tree} {ts : List Tree} (h : c ∈ openGroups ts) : sizeOf c < sizeOf ts := by
  fun_induction openGroups ts with
  | case1 => cases h
  | case2 items rest ih₁ ih₂ =>
    rcases List.mem_append.1 h with h | h
    · have := ih₁ h; simp; omega
    · have := ih₂ h; simp; omega
  | case3 items rest ih₁ ih₂ =>
    rcases List.mem_append.1 h with h | h
    · have := ih₁ h; simp; omega
    · have := ih₂ h; simp; omega
  | case4 t rest hl ht ih =>
    rcases List.mem_cons.1 h with rfl | h
    · simp; omega
    · have := ih h; simp; omega

theorem openGroups_plain (vs : List Value) : openGroups (vs.map plain) = vs.map plain := by
  induction vs with
  | nil => simp [openGroups]
  | cons v vs ih => rw [List.map_cons, openGroups_single (by simp) (by simp), ih]

theorem openGroups_members {t : Tree} {ms : List Tree} (h : members t = .ok ms) : openGroups ms = ms := by
  cases t with
  | plain v =>
    rw [members] at h
    obtain ⟨vs, _, h⟩ := except_bind_inv h
    cases h
    exact openGroups_plain vs
  | node kind line fields =>
    rw [members] at h
    cases hc : childrenFrom kind.roles fields with
    | error fault => rw [hc] at h; cases h
    | ok cs => rw [hc] at h; cases h; exact openGroups_openGroups cs
  | list items => rw [members] at h; cases h; exact openGroups_openGroups items
  | tuple items => rw [members] at h; cases h; exact openGroups_openGroups items

/-! ## The nodes below a node -/

mutual

theorem sizeOf_lt_of_mem_members {t c : Tree} {ms : List Tree} (h : members t = .ok ms) (hc : c ∈ ms)
    (hn : c.isNode = true) : sizeOf c < sizeOf t := by
  match t with
  | plain v =>
    rw [members] at h
    obtain ⟨vs, _, h⟩ := except_bind_inv h
    cases h
    obtain ⟨v, _, rfl⟩ := List.mem_map.1 hc
    cases hn
  | node kind line fields =>
    rw [members] at h
    cases hcs : childrenFrom kind.roles fields with
    | error fault => rw [hcs] at h; cases h
    | ok cs =>
      rw [hcs] at h
      cases h
      have := sizeOf_lt_of_mem_childrenFrom hcs hc hn
      simp; omega
  | list items =>
    rw [members] at h
    cases h
    have := sizeOf_lt_of_mem_openGroups hc
    simp; omega
  | tuple items =>
    rw [members] at h
    cases h
    have := sizeOf_lt_of_mem_openGroups hc
    simp; omega

theorem sizeOf_lt_of_mem_childrenFrom {roles : List Role} {fields cs : List Tree} {c : Tree}
    (h : childrenFrom roles fields = .ok cs) (hc : c ∈ openGroups cs) (hn : c.isNode = true) :
    sizeOf c < sizeOf fields := by
  match roles, fields with
  | [], _ => simp [childrenFrom] at h; subst h; simp [openGroups] at hc
  | _ :: _, [] => simp [childrenFrom] at h; subst h; simp [openGroups] at hc
  | role :: roles, t :: fields =>
    by_cases hr : role = .many
    · subst hr
      rw [childrenFrom] at h
      obtain ⟨ms, hms, h⟩ := except_bind_inv h
      obtain ⟨rest, hrest, h⟩ := except_bind_inv h
      cases h
      rw [openGroups_append, openGroups_members hms] at hc
      rcases List.mem_append.1 hc with hc | hc
      · have := sizeOf_lt_of_mem_members hms hc hn
        simp; omega
      · have := sizeOf_lt_of_mem_childrenFrom hrest hc hn
        simp; omega
    · rw [childrenFrom] at h
      · obtain ⟨rest, hrest, h⟩ := except_bind_inv h
        cases h
        rw [← List.singleton_append, openGroups_append] at hc
        rcases List.mem_append.1 hc with hc | hc
        · have hpos : 0 < sizeOf fields := by
            cases fields with
            | nil => simp
            | cons u rest => rw [List.cons.sizeOf_spec]; omega
          have := sizeOf_lt_of_mem_openGroups hc
          simp at this ⊢; omega
        · have := sizeOf_lt_of_mem_childrenFrom hrest hc hn
          simp; omega
      · exact hr

end

theorem sizeOf_lt_of_mem_nodesFrom {roles : List Role} {fields cs : List Tree} {c : Tree}
    (h : nodesFrom roles fields = .ok cs) (hc : c ∈ cs) : sizeOf c < sizeOf fields := by
  fun_induction nodesFrom roles fields generalizing cs with
  | case1 roles t fields ih => have := ih h hc; simp; omega
  | case2 roles fields ih => have := ih h hc; simp; omega
  | case3 roles t fields ih =>
    obtain ⟨ms, hms, h⟩ := except_bind_inv h
    obtain ⟨rest, hrest, h⟩ := except_bind_inv h
    cases h
    rcases List.mem_append.1 hc with hc | hc
    · obtain ⟨hc, hn⟩ := List.mem_filter.1 hc
      have := sizeOf_lt_of_mem_members hms hc hn
      simp; omega
    · have := ih hrest hc
      simp; omega
  | case4 role roles t fields _ _ _ ih =>
    obtain ⟨rest, hrest, h⟩ := except_bind_inv h
    cases h
    rcases List.mem_cons.1 hc with rfl | hc
    · simp; omega
    · have := ih hrest hc
      simp; omega
  | case5 => cases h; cases hc

def subnodes (t : Tree) : List Tree :=
  t.nodesBelow.toOption.getD []

theorem sizeOf_lt_of_mem_subnodes {t c : Tree} (h : c ∈ t.subnodes) : sizeOf c < sizeOf t := by
  unfold subnodes at h
  cases t with
  | node kind line fields =>
    cases hn : nodesFrom kind.roles fields with
    | error fault => simp [nodesBelow, hn, Except.toOption] at h
    | ok cs =>
      have hc : c ∈ cs := by simpa [nodesBelow, hn, Except.toOption] using h
      have := sizeOf_lt_of_mem_nodesFrom hn hc
      simp; omega
  | _ => simp [nodesBelow, Except.toOption] at h

/-! ## Outlines -/

/-- The tree and the nodes below it, from the top. What stands below a node is left out where it is not to be opened. -/
def outline (opens : Tree → Bool) (t : Tree) : List Tree :=
  t :: if opens t then t.subnodes.attach.flatMap fun ⟨c, _⟩ => outline opens c else []
termination_by sizeOf t
decreasing_by exact sizeOf_lt_of_mem_subnodes ‹_›

variable {opens : Tree → Bool}

theorem outline_eq (t : Tree) :
    t.outline opens = t :: if opens t then t.subnodes.flatMap (outline opens) else [] := by
  rw [outline, List.flatMap_subtype (g := outline opens) (by simp), List.unattach_attach]

theorem mem_outline_self (t : Tree) : t ∈ t.outline opens := by
  rw [outline_eq]
  exact List.mem_cons_self

theorem induction_subnodes {P : Tree → Prop} (step : ∀ t, (∀ c ∈ t.subnodes, P c) → P t) (t : Tree) : P t :=
  step t fun c _ => induction_subnodes step c
termination_by sizeOf t
decreasing_by exact sizeOf_lt_of_mem_subnodes ‹_›

theorem flatMap_split {α β : Type} {f : α → List β} {xs : List α} {before after : List β} {b : β}
    (h : xs.flatMap f = before ++ b :: after) :
    ∃ as x bs fore aft, xs = as ++ x :: bs ∧ f x = fore ++ b :: aft ∧ before = as.flatMap f ++ fore ∧
      after = aft ++ bs.flatMap f := by
  induction xs generalizing before with
  | nil => simp at h
  | cons x xs ih =>
    rw [List.flatMap_cons, List.append_eq_append_iff] at h
    rcases h with ⟨fore, rfl, h⟩ | ⟨aft, hx, h⟩
    · obtain ⟨as, y, bs, fore, aft, rfl, hy, rfl, rfl⟩ := ih h
      exact ⟨x :: as, y, bs, fore, aft, rfl, hy, by simp, rfl⟩
    · cases aft with
      | nil =>
        have hxs : xs.flatMap f = [] ++ b :: after := h.symm
        obtain ⟨as, y, bs, fore, aft, rfl, hy, hb, rfl⟩ := ih hxs
        refine ⟨x :: as, y, bs, fore, aft, rfl, hy, ?_, rfl⟩
        rw [List.flatMap_cons, List.append_assoc, ← hb, hx, List.append_nil, List.append_nil]
      | cons c aft =>
        cases h
        exact ⟨[], x, xs, before, aft, rfl, hx, rfl, rfl⟩

/-- What is below a node comes right after it. -/
theorem outline_split {t b : Tree} {before after : List Tree} (h : t.outline opens = before ++ b :: after) :
    ∃ beyond, b :: after = b.outline opens ++ beyond := by
  induction t using induction_subnodes generalizing before after with
  | step t ih =>
    cases before with
    | nil =>
      have ht : t.outline opens = _ := outline_eq t
      rw [h, List.nil_append] at ht
      obtain ⟨rfl, -⟩ := List.cons.inj ht
      exact ⟨[], by rw [List.append_nil, h]; rfl⟩
    | cons a before =>
      rw [outline_eq, List.cons_append] at h
      obtain ⟨-, h⟩ := List.cons.inj h
      by_cases ho : opens t = true
      · rw [if_pos ho] at h
        obtain ⟨as, c, bs, fore, aft, hsub, hc, -, rfl⟩ := flatMap_split h
        obtain ⟨beyond, hb⟩ := ih c (by rw [hsub]; simp) hc
        exact ⟨beyond ++ bs.flatMap (outline opens), by rw [← List.append_assoc, ← hb]; rfl⟩
      · rw [if_neg ho] at h
        simp at h

/-- Nodes with nothing below them may be opened or not. -/
theorem outline_congr {closed : Tree → Bool} {t : Tree}
    (h : ∀ u, opens u = closed u ∨ u.subnodes = []) : t.outline opens = t.outline closed := by
  induction t using induction_subnodes with
  | step t ih =>
    rw [outline_eq, outline_eq]
    rcases h t with ht | ht
    · rw [ht, List.flatMap_def, List.flatMap_def, List.map_congr_left ih]
    · simp [ht]

theorem isA_other {t : Tree} {k l : Kind} (hk : t.isA k = true) (h : k ≠ l) : t.isA l = false := by
  cases t with
  | node kind line fields => simp_all [isA, kind?]
  | _ => simp [isA, kind?]

theorem subnodes_of_isA {t : Tree} {kind : Kind} (ht : t.isA kind = true) (hk : ∀ role ∈ kind.roles, role = .plain) :
    t.subnodes = [] := by
  have hnone : ∀ (roles : List Role) (fields : List Tree), (∀ role ∈ roles, role = .plain) →
      nodesFrom roles fields = .ok [] := by
    intro roles fields hroles
    induction roles generalizing fields with
    | nil => simp [nodesFrom]
    | cons role roles ih =>
      cases hroles role List.mem_cons_self
      cases fields with
      | nil => simp [nodesFrom]
      | cons t fields => rw [nodesFrom, ih fields fun r hr => hroles r (List.mem_cons_of_mem _ hr)]
  cases t with
  | node k line fields =>
    have hkind : k = kind := by simpa [isA, kind?] using ht
    subst hkind
    rw [subnodes, nodesBelow, hnone _ _ hk]
    rfl
  | _ => simp [isA, kind?] at ht

end Tree

namespace Visitor

variable {σ : Type} (v : Visitor σ)

open ImportAtlas.Tree

theorem walkItems_eq (items : List Tree) : v.walkItems items = forM ((openGroups items).filter isNode) v.walk := by
  fun_induction openGroups items with
  | case1 => rfl
  | case2 items rest ih₁ ih₂ => rw [walkItems, ih₁, ih₂, List.filter_append, List.forM_append]
  | case3 items rest ih₁ ih₂ => rw [walkItems, ih₁, ih₂, List.filter_append, List.forM_append]
  | case4 t rest hl ht ih =>
    cases t with
    | list items => exact absurd rfl (hl items)
    | tuple items => exact absurd rfl (ht items)
    | plain v => rw [walkItems, ih]; rfl
    | node kind line fields =>
      rw [walkItems, ih]
      · rfl
      · simp
      · simp
      · simp

theorem walkChildren_single {role : Role} (hr : role ≠ .many) (t : Tree) (roles : List Role) (fields : List Tree) :
    v.walkChildren (role :: roles) (t :: fields) = (do
      v.walkItems [t]
      v.walkChildren roles fields) := by
  cases t <;> simp [walkChildren, walkItems]

mutual

theorem walkMembers_eq {t : Tree} {ms : List Tree} (h : members t = .ok ms) :
    v.walkMembers t = forM (ms.filter isNode) v.walk := by
  match t with
  | plain value =>
    rw [members] at h
    obtain ⟨vs, _, h⟩ := except_bind_inv h
    cases h
    have hnone : (vs.map plain).filter isNode = [] := by simp [isNode]
    rw [hnone]
    rfl
  | node kind line fields =>
    rw [members] at h
    cases hcs : childrenFrom kind.roles fields with
    | error fault => rw [hcs] at h; cases h
    | ok cs =>
      rw [hcs] at h
      cases h
      rw [walkMembers, walkChildren_eq hcs]
  | list items =>
    rw [members] at h
    cases h
    rw [walkMembers, walkItems_eq]
  | tuple items =>
    rw [members] at h
    cases h
    rw [walkMembers, walkItems_eq]

theorem walkChildren_eq {roles : List Role} {fields cs : List Tree} (h : childrenFrom roles fields = .ok cs) :
    v.walkChildren roles fields = forM ((openGroups cs).filter isNode) v.walk := by
  match roles, fields with
  | [], _ => simp [childrenFrom] at h; subst h; simp [openGroups, walkChildren]
  | _ :: _, [] => simp [childrenFrom] at h; subst h; simp [openGroups, walkChildren]
  | role :: roles, t :: fields =>
    by_cases hr : role = .many
    · subst hr
      rw [childrenFrom] at h
      obtain ⟨ms, hms, h⟩ := except_bind_inv h
      obtain ⟨rest, hrest, h⟩ := except_bind_inv h
      cases h
      rw [walkChildren, walkMembers_eq hms, walkChildren_eq hrest, openGroups_append, openGroups_members hms,
        List.filter_append, List.forM_append]
    · rw [childrenFrom] at h
      · obtain ⟨rest, hrest, h⟩ := except_bind_inv h
        cases h
        rw [walkChildren_single v hr, walkItems_eq, walkChildren_eq hrest, show t :: rest = [t] ++ rest from rfl,
          openGroups_append, List.filter_append, List.forM_append]
      · exact hr

end

theorem walkFields_eq {roles : List Role} {fields cs : List Tree} (h : nodesFrom roles fields = .ok cs) :
    v.walkFields roles fields = forM cs v.walk := by
  fun_induction nodesFrom roles fields generalizing cs with
  | case1 roles t fields ih => rw [walkFields, ih h]
  | case2 roles fields ih => rw [walkFields, ih h]
  | case3 roles t fields ih =>
    obtain ⟨ms, hms, h⟩ := except_bind_inv h
    obtain ⟨rest, hrest, h⟩ := except_bind_inv h
    cases h
    rw [walkFields, walkMembers_eq v hms, ih hrest, List.forM_append]
  | case4 role roles t fields hplain hnone hmany ih =>
    obtain ⟨rest, hrest, h⟩ := except_bind_inv h
    cases h
    rw [walkFields, ih hrest]
    · rfl
    · exact hplain
    · exact hnone
    · exact hmany
  | case5 roles fields h₁ h₂ h₃ h₄ =>
    cases h
    rw [walkFields]
    · rfl
    · exact h₁
    · exact h₂
    · exact h₃
    · exact h₄

theorem walk_node {kind : Kind} {line : Value} {fields cs : List Tree}
    (h : (node kind line fields).nodesBelow = .ok cs) :
    v.walk (node kind line fields) = (do
      let before ← get
      v.enter (node kind line fields)
      if v.descends (node kind line fields) then forM cs v.walk
      modify (v.leave (node kind line fields) before)) := by
  rw [walk, h, walkFields_eq v h]
  rfl

end Visitor

end ImportAtlas
