import ImportAtlas.Files.Resolve
import Mathlib.Data.Finset.Card

/-!
# Paths through links

`Leads` says, without bounds, where a path leads and through how many links. A path that can be followed leads
somewhere, and it leads to one place only. Taking the links out of such a path gives that place: a link is never
met again before its end is known, because it would have to lead through more links than it does, and there are
never more links to open than the tree has.
-/

namespace ImportAtlas

namespace Entry

/-! ## Places in a tree -/

def isLink : Entry → Bool
  | link _ => true
  | _ => false

mutual

def placesOf (choose : Entry → Bool) : Entry → List (List String)
  | dir items => (if choose (dir items) then [[]] else []) ++ placesIn choose items
  | e => if choose e then [[]] else []

def placesIn (choose : Entry → Bool) : List (String × Entry) → List (List String)
  | [] => []
  | (name, e) :: rest => (placesOf choose e).map (name :: ·) ++ placesIn choose rest

end

mutual

theorem length_placesOf_true : ∀ e : Entry, (e.placesOf fun _ => true).length = e.size
  | file _ => rfl
  | archive _ => rfl
  | link _ => rfl
  | dir items => by
    rw [placesOf, size, ← length_placesIn_true items]
    simp [Nat.add_comm]

theorem length_placesIn_true : ∀ items : List (String × Entry),
    (placesIn (fun _ => true) items).length = sizeIn items
  | [] => rfl
  | (name, e) :: rest => by
    rw [placesIn, sizeIn, List.length_append, List.length_map, length_placesOf_true e, length_placesIn_true rest]

end

mutual

theorem length_placesOf_isLink : ∀ e : Entry, (e.placesOf isLink).length = e.links
  | file _ => rfl
  | archive _ => rfl
  | link _ => rfl
  | dir items => by
    rw [placesOf, links, ← length_placesIn_isLink items]
    rfl

theorem length_placesIn_isLink : ∀ items : List (String × Entry), (placesIn isLink items).length = linksIn items
  | [] => rfl
  | (name, e) :: rest => by
    rw [placesIn, linksIn, List.length_append, List.length_map, length_placesOf_isLink e,
      length_placesIn_isLink rest]

end

theorem mem_placesIn {choose : Entry → Bool} {items : List (String × Entry)} {name : String} {e : Entry}
    {p : List String} (hl : items.lookup name = some e) (hp : p ∈ e.placesOf choose) :
    name :: p ∈ placesIn choose items := by
  induction items with
  | nil => cases hl
  | cons item rest ih =>
    obtain ⟨n, f⟩ := item
    rw [placesIn, List.mem_append]
    rw [List.lookup_cons] at hl
    by_cases hn : name = n
    · subst hn
      rw [beq_self_eq_true] at hl
      cases hl
      exact .inl (List.mem_map_of_mem hp)
    · rw [beq_false_of_ne hn] at hl
      exact .inr (ih hl)

theorem mem_placesOf {choose : Entry → Bool} {root e : Entry} {p : List String} (hg : root.get? p = some e)
    (he : choose e = true) : p ∈ root.placesOf choose := by
  induction p generalizing root with
  | nil =>
    cases hg
    cases e <;> simp [placesOf, he]
  | cons name rest ih =>
    cases root with
    | dir items =>
      rw [get?, child?] at hg
      rw [placesOf, List.mem_append]
      cases hl : items.lookup name with
      | none => rw [hl] at hg; cases hg
      | some f =>
        rw [hl] at hg
        exact .inr (mem_placesIn hl (ih hg))
    | _ => cases hg

theorem get?_append_singleton (root : Entry) (p : List String) (name : String) :
    root.get? (p ++ [name]) = (root.get? p).bind (·.child? name) := by
  induction p generalizing root with
  | nil =>
    change root.get? [name] = root.child? name
    rw [get?]
    cases root.child? name <;> rfl
  | cons n rest ih =>
    rw [List.cons_append, get?, get?]
    cases root.child? n with
    | none => rfl
    | some e => exact ih e

end Entry

namespace FileSystem

/-! ## Where a path leads -/

def IsName (part : String) : Prop := part ≠ "" ∧ part ≠ "." ∧ part ≠ ".."

def linkStart (here : List String) (target : String) : List String :=
  if Path.isAbsolute target then [] else here

/-- From `here` the parts lead to a place, through so many links. -/
inductive Leads (root : Entry) : List String → List String → List String → Nat → Prop
  | nil (here : List String) : Leads root here [] here 0
  | stay {here rest p : List String} {part : String} {n : Nat} :
    part = "" ∨ part = "." → Leads root here rest p n → Leads root here (part :: rest) p n
  | up {here rest p : List String} {n : Nat} :
    Leads root here.dropLast rest p n → Leads root here (".." :: rest) p n
  | down {here rest p : List String} {part : String} {e : Entry} {n : Nat} :
    IsName part → root.get? (here ++ [part]) = some e → e.isLink = false →
    Leads root (here ++ [part]) rest p n → Leads root here (part :: rest) p n
  | jump {here rest mid p : List String} {part target : String} {k n : Nat} :
    IsName part → root.get? (here ++ [part]) = some (.link target) →
    Leads root (linkStart here target) (Path.segments target) mid k → Leads root mid rest p n →
    Leads root here (part :: rest) p (k + 1 + n)

variable {root : Entry}

theorem IsName.not_stay {part : String} (h : IsName part) : ¬ ((part = "" || part = ".") = true) := by
  simp [h.1, h.2.1]

theorem not_isName_of_stay {part : String} (h : part = "" ∨ part = ".") : ¬ IsName part := by
  rintro ⟨h₁, h₂, _⟩
  exact h.elim h₁ h₂

theorem Leads.unique {here todo p q : List String} {n m : Nat} (h : Leads root here todo p n)
    (h' : Leads root here todo q m) : p = q ∧ n = m := by
  induction h generalizing q m with
  | nil here => cases h'; exact ⟨rfl, rfl⟩
  | stay hs _ ih =>
    cases h' with
    | stay _ h' => exact ih h'
    | up _ => exact absurd hs (by decide)
    | down hn _ _ _ => exact absurd hn (not_isName_of_stay hs)
    | jump hn _ _ _ => exact absurd hn (not_isName_of_stay hs)
  | up _ ih =>
    cases h' with
    | stay hs _ => exact absurd hs (by decide)
    | up h' => exact ih h'
    | down hn _ _ _ => exact absurd rfl hn.2.2
    | jump hn _ _ _ => exact absurd rfl hn.2.2
  | down hn hg he _ ih =>
    cases h' with
    | stay hs _ => exact absurd hn (not_isName_of_stay hs)
    | up _ => exact absurd rfl hn.2.2
    | down _ _ _ h' => exact ih h'
    | jump _ hg' _ _ =>
      cases hg.symm.trans hg'
      cases he
  | jump hn hg _ _ ihmid ih =>
    cases h' with
    | stay hs _ => exact absurd hn (not_isName_of_stay hs)
    | up _ => exact absurd rfl hn.2.2
    | down _ hg' he _ =>
      cases hg.symm.trans hg'
      cases he
    | jump _ hg' hmid' h' =>
      cases hg.symm.trans hg'
      obtain ⟨rfl, rfl⟩ := ihmid hmid'
      obtain ⟨rfl, rfl⟩ := ih h'
      exact ⟨rfl, rfl⟩

theorem Leads.append_inv {here todo q : List String} {n : Nat} (h : Leads root here todo q n) :
    ∀ {xs ys : List String}, todo = xs ++ ys →
      ∃ mid k m, Leads root here xs mid k ∧ Leads root mid ys q m ∧ n = k + m := by
  induction h with
  | nil here =>
    intro xs ys he
    obtain ⟨rfl, rfl⟩ := List.append_eq_nil_iff.1 he.symm
    exact ⟨here, 0, 0, .nil here, .nil here, rfl⟩
  | stay hs h ih =>
    intro xs ys he
    cases xs with
    | nil => subst he; exact ⟨_, 0, _, .nil _, .stay hs h, (Nat.zero_add _).symm⟩
    | cons x xs =>
      obtain ⟨rfl, rfl⟩ := List.cons.inj he
      obtain ⟨mid, k, m, hx, hy, rfl⟩ := ih rfl
      exact ⟨mid, k, m, .stay hs hx, hy, rfl⟩
  | up h ih =>
    intro xs ys he
    cases xs with
    | nil => subst he; exact ⟨_, 0, _, .nil _, .up h, (Nat.zero_add _).symm⟩
    | cons x xs =>
      obtain ⟨rfl, rfl⟩ := List.cons.inj he
      obtain ⟨mid, k, m, hx, hy, rfl⟩ := ih rfl
      exact ⟨mid, k, m, .up hx, hy, rfl⟩
  | down hn hg hl h ih =>
    intro xs ys he
    cases xs with
    | nil => subst he; exact ⟨_, 0, _, .nil _, .down hn hg hl h, (Nat.zero_add _).symm⟩
    | cons x xs =>
      obtain ⟨rfl, rfl⟩ := List.cons.inj he
      obtain ⟨mid, k, m, hx, hy, rfl⟩ := ih rfl
      exact ⟨mid, k, m, .down hn hg hl hx, hy, rfl⟩
  | @jump _ _ _ _ _ _ j _ hn hg hmid h _ ih =>
    intro xs ys he
    cases xs with
    | nil => subst he; exact ⟨_, 0, _, .nil _, .jump hn hg hmid h, (Nat.zero_add _).symm⟩
    | cons x xs =>
      obtain ⟨rfl, rfl⟩ := List.cons.inj he
      obtain ⟨mid, k, m, hx, hy, rfl⟩ := ih rfl
      exact ⟨mid, j + 1 + k, m, .jump hn hg hmid hx, hy, by omega⟩

theorem followTo_leads {jump : List String → List String → Except Fault (List String)}
    (hjump : ∀ here todo q, jump here todo = .ok q → ∃ n, Leads root here todo q n) {todo : List String} :
    ∀ {here q : List String}, followTo root false jump here todo = .ok q → ∃ n, Leads root here todo q n := by
  induction todo with
  | nil =>
    intro here q h
    cases h
    exact ⟨0, .nil here⟩
  | cons part rest ih =>
    intro here q h
    rw [followTo] at h
    split at h
    · rename_i items hdir
      have hget : root.get? (here ++ [part]) = items.lookup part := by
        rw [Entry.get?_append_singleton, hdir]
        rfl
      split at h
      · rename_i hs
        obtain ⟨n, hn⟩ := ih h
        exact ⟨n, .stay (by simpa using hs) hn⟩
      · rename_i hs
        split at h
        · rename_i hup
          subst hup
          obtain ⟨n, hn⟩ := ih h
          exact ⟨n, .up hn⟩
        · rename_i hup
          have hname : IsName part := by
            simp only [Bool.or_eq_true, decide_eq_true_eq, not_or] at hs
            exact ⟨hs.1, hs.2, hup⟩
          split at h
          · rename_i target hlink
            obtain ⟨n, hn⟩ := hjump _ _ _ h
            obtain ⟨mid, k, m, hmid, hrest, _⟩ := hn.append_inv rfl
            exact ⟨k + 1 + m, .jump hname (hget.trans hlink) hmid hrest⟩
          · rename_i e hnot hentry
            obtain ⟨n, hn⟩ := ih h
            refine ⟨n, .down hname (hget.trans hentry) ?_ hn⟩
            cases e with
            | link target => exact absurd rfl (hnot target)
            | _ => rfl
          · cases h
    · cases h
    · cases h

theorem follow_leads {limit : Nat} {here todo q : List String} (h : follow root false limit here todo = .ok q) :
    ∃ n, Leads root here todo q n := by
  induction limit generalizing here todo q with
  | zero => exact followTo_leads (fun _ _ _ h => by cases h) h
  | succ limit ih => exact followTo_leads (fun _ _ _ => ih) h

/-! ## Taking links out -/

section

variable {limit : Nat} {seen : Seen} {path : List String} {part target : String} {rest : List Step}

theorem unlink_eq (root : Entry) (limit : Nat) :
    ∃ enter, ∀ seen path steps, unlink root limit seen path steps = unlinkTo root enter seen path steps := by
  cases limit <;> exact ⟨_, fun _ _ _ => rfl⟩

theorem unlink_nil : unlink root limit seen path [] = path := by
  obtain ⟨enter, h⟩ := unlink_eq root limit
  rw [h, unlinkTo]

theorem unlink_done {l : List String} :
    unlink root limit seen path (.done l :: rest) = unlink root limit ((l, some path) :: seen) path rest := by
  obtain ⟨enter, h⟩ := unlink_eq root limit
  rw [h, h, unlinkTo]

theorem unlink_stay (hs : part = "" ∨ part = ".") :
    unlink root limit seen path (.part part :: rest) = unlink root limit seen path rest := by
  obtain ⟨enter, h⟩ := unlink_eq root limit
  rw [h, h, unlinkTo, if_pos (by simpa using hs)]

theorem unlink_up :
    unlink root limit seen path (.part ".." :: rest) = unlink root limit seen path.dropLast rest := by
  obtain ⟨enter, h⟩ := unlink_eq root limit
  rw [h, h, unlinkTo, if_neg (by decide), if_pos rfl]

theorem unlink_down {e : Entry} (hn : IsName part) (hg : root.get? (path ++ [part]) = some e)
    (he : e.isLink = false) :
    unlink root limit seen path (.part part :: rest) = unlink root limit seen (path ++ [part]) rest := by
  obtain ⟨enter, h⟩ := unlink_eq root limit
  rw [h, h, unlinkTo, if_neg hn.not_stay, if_neg hn.2.2]
  dsimp only
  rw [hg]
  cases e with
  | link target => cases he
  | _ => rfl

theorem unlink_known {known : List String} (hn : IsName part)
    (hg : root.get? (path ++ [part]) = some (.link target)) (hk : seen.lookup (path ++ [part]) = some (some known)) :
    unlink root limit seen path (.part part :: rest) = unlink root limit seen known rest := by
  obtain ⟨enter, h⟩ := unlink_eq root limit
  rw [h, h, unlinkTo, if_neg hn.not_stay, if_neg hn.2.2]
  dsimp only
  rw [hg, hk]

theorem unlink_open (hn : IsName part) (hg : root.get? (path ++ [part]) = some (.link target))
    (hk : seen.lookup (path ++ [part]) = none) :
    unlink root (limit + 1) seen path (.part part :: rest) =
      unlink root limit ((path ++ [part], none) :: seen) (linkStart path target)
        ((Path.segments target).map .part ++ .done (path ++ [part]) :: rest) := by
  rw [unlink, unlinkTo, if_neg hn.not_stay, if_neg hn.2.2]
  dsimp only
  rw [hg, hk]
  rfl

end

def LinkLeads (root : Entry) (l p : List String) (k : Nat) : Prop :=
  ∃ target, root.get? l = some (.link target) ∧
    Leads root (linkStart l.dropLast target) (Path.segments target) p k

theorem linkLeads_iff {path p : List String} {part target : String} {k : Nat}
    (hg : root.get? (path ++ [part]) = some (.link target)) :
    LinkLeads root (path ++ [part]) p k ↔ Leads root (linkStart path target) (Path.segments target) p k := by
  unfold LinkLeads
  rw [List.dropLast_concat]
  constructor
  · rintro ⟨target', hg', h⟩
    cases hg.symm.trans hg'
    exact h
  · intro h
    exact ⟨target, hg, h⟩

/-- What is remembered of links is right, and there is room to open all that are not. -/
structure Memo (root : Entry) (seen : Seen) (limit : Nat) : Prop where
  known {l p : List String} : seen.lookup l = some (some p) → ∃ k, LinkLeads root l p k
  room : ((root.placesOf Entry.isLink).toFinset \ (seen.map Prod.fst).toFinset).card ≤ limit

/-- The links whose ends are not known yet lead through at least `n` links. -/
def Pending (root : Entry) (seen : Seen) (n : Nat) : Prop :=
  ∀ l, seen.lookup l = some none → ∃ p k, LinkLeads root l p k ∧ n ≤ k

theorem lookup_cons_of_ne {seen : Seen} {l l' : List String} {v : Option (List String)} (h : l' ≠ l) :
    ((l, v) :: seen).lookup l' = seen.lookup l' := by
  rw [List.lookup_cons, beq_false_of_ne h]

theorem Memo.open {seen : Seen} {limit : Nat} {l : List String} {target : String} (h : Memo root seen limit)
    (hg : root.get? l = some (.link target)) (hk : seen.lookup l = none) :
    ∃ limit', limit = limit' + 1 ∧ Memo root ((l, none) :: seen) limit' := by
  have hplace : l ∈ (root.placesOf Entry.isLink).toFinset := List.mem_toFinset.2 (Entry.mem_placesOf hg rfl)
  have hnew : l ∉ (seen.map Prod.fst).toFinset := by
    intro hl
    obtain ⟨pair, hpair, rfl⟩ := List.mem_map.1 (List.mem_toFinset.1 hl)
    simpa using List.lookup_eq_none_iff.1 hk pair hpair
  have hmem := Finset.mem_sdiff.2 ⟨hplace, hnew⟩
  have hpos := Finset.card_pos.2 ⟨l, hmem⟩
  have hroom := h.room
  obtain ⟨limit, rfl⟩ : ∃ limit', limit = limit' + 1 := ⟨limit - 1, by omega⟩
  refine ⟨limit, rfl, fun {l' p} hl => ?_, ?_⟩
  · by_cases hl' : l' = l
    · subst hl'
      rw [List.lookup_cons_self] at hl
      cases hl
    · rw [lookup_cons_of_ne hl'] at hl
      exact h.known hl
  · rw [List.map_cons, List.toFinset_cons, Finset.sdiff_insert, Finset.card_erase_of_mem hmem]
    omega

theorem Memo.close {seen : Seen} {limit k : Nat} {l p : List String} (h : Memo root seen limit)
    (hl : LinkLeads root l p k) : Memo root ((l, some p) :: seen) limit := by
  refine ⟨fun {l' p'} hl' => ?_, ?_⟩
  · by_cases he : l' = l
    · subst he
      rw [List.lookup_cons_self] at hl'
      cases hl'
      exact ⟨k, hl⟩
    · rw [lookup_cons_of_ne he] at hl'
      exact h.known hl'
  · rw [List.map_cons, List.toFinset_cons, Finset.sdiff_insert]
    exact (Finset.card_erase_le).trans h.room

theorem Pending.mono {seen seen' : Seen} {m n : Nat} (h : Pending root seen n) (hmn : m ≤ n)
    (hsub : ∀ l, seen'.lookup l = some none → seen.lookup l = some none) : Pending root seen' m := by
  intro l hl
  obtain ⟨p, k, hl, hle⟩ := h l (hsub l hl)
  exact ⟨p, k, hl, hmn.trans hle⟩

theorem Pending.open {seen : Seen} {k n : Nat} {l p : List String} (h : Pending root seen n) (hkn : k ≤ n)
    (hl : LinkLeads root l p k) : Pending root ((l, none) :: seen) k := by
  intro l' hl'
  by_cases he : l' = l
  · subst he
    exact ⟨p, k, hl, Nat.le_refl k⟩
  · rw [lookup_cons_of_ne he] at hl'
    exact h.mono hkn (fun _ => id) l' hl'

/-- A link is not pending any more once its end is remembered. -/
theorem pending_of_close {seen seen₁ : Seen} {l p : List String}
    (hsub : ∀ l', seen₁.lookup l' = some none → ((l, none) :: seen).lookup l' = some none) (l' : List String)
    (hl' : ((l, some p) :: seen₁).lookup l' = some none) : seen.lookup l' = some none := by
  by_cases he : l' = l
  · rw [he, List.lookup_cons_self] at hl'
    cases hl'
  · rw [lookup_cons_of_ne he] at hl'
    have hl' := hsub l' hl'
    rwa [lookup_cons_of_ne he] at hl'

theorem Leads.unlink {here todo q : List String} {n : Nat} (h : Leads root here todo q n) :
    ∀ {seen : Seen} {limit : Nat}, Memo root seen limit → Pending root seen n → ∀ rest : List Step,
      ∃ seen' limit', Memo root seen' limit' ∧
        (∀ l, seen'.lookup l = some none → seen.lookup l = some none) ∧
        unlink root limit seen here (todo.map .part ++ rest) = unlink root limit' seen' q rest := by
  induction h with
  | nil here =>
    intro seen limit hm _ rest
    exact ⟨seen, limit, hm, fun _ hl => hl, rfl⟩
  | stay hs _ ih =>
    intro seen limit hm hp rest
    rw [List.map_cons, List.cons_append, unlink_stay hs]
    exact ih hm hp rest
  | up _ ih =>
    intro seen limit hm hp rest
    rw [List.map_cons, List.cons_append, unlink_up]
    exact ih hm hp rest
  | down hn hg he _ ih =>
    intro seen limit hm hp rest
    rw [List.map_cons, List.cons_append, unlink_down hn hg he]
    exact ih hm hp rest
  | @jump here todo mid q part target k n hn hg hmid hrest ihmid ih =>
    -- the target is followed first, and then the rest from where it leads
    intro seen limit hm hp rest
    have hlink := (linkLeads_iff hg).2 hmid
    rw [List.map_cons, List.cons_append]
    match hk : seen.lookup (here ++ [part]) with
    | some (some known) =>
      obtain ⟨k', hknown⟩ := hm.known hk
      obtain ⟨rfl, _⟩ := hmid.unique ((linkLeads_iff hg).1 hknown)
      rw [unlink_known hn hg hk]
      exact ih hm (hp.mono (by omega) fun _ => id) rest
    | some none =>
      -- the link would lead through itself and so through more links than it does
      obtain ⟨p, k', hpending, hle⟩ := hp _ hk
      obtain ⟨_, rfl⟩ := hmid.unique ((linkLeads_iff hg).1 hpending)
      omega
    | none =>
      obtain ⟨limit, rfl, hopen⟩ := hm.open hg hk
      obtain ⟨seen₁, limit₁, hm₁, hsub₁, h₁⟩ := ihmid hopen (hp.open (by omega) hlink)
        (.done (here ++ [part]) :: (todo.map .part ++ rest))
      rw [unlink_open hn hg hk, h₁, unlink_done]
      have hsub := pending_of_close (p := mid) hsub₁
      obtain ⟨seen₂, limit₂, hm₂, hsub₂, h₂⟩ := ih (hm₁.close hlink) (hp.mono (by omega) hsub) rest
      exact ⟨seen₂, limit₂, hm₂, fun l hl => hsub l (hsub₂ l hl), h₂⟩

theorem memo_nil (root : Entry) : Memo root [] root.links := by
  refine ⟨nofun, ?_⟩
  rw [List.map_nil, List.toFinset_nil, Finset.sdiff_empty, ← Entry.length_placesOf_isLink]
  exact List.toFinset_card_le _

/-- **Real paths.** The path without links of a path that can be followed is the place to which it is followed. -/
theorem realPath_eq {fs : FileSystem} {path : String} {parts : List String} (h : fs.place path = .ok parts) :
    fs.realPath path = Path.ofParts parts := by
  unfold place at h
  split at h
  · cases h
  · obtain ⟨n, hleads⟩ := follow_leads h
    obtain ⟨seen, limit, _, _, hunlink⟩ := hleads.unlink (memo_nil fs.root) nofun []
    rw [List.append_nil, unlink_nil] at hunlink
    rw [realPath, hunlink]

end FileSystem

end ImportAtlas
