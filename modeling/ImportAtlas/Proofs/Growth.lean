import ImportAtlas.Files.Update
import ImportAtlas.Proofs.Places

/-!
# Trees that grow

A tree grows if every entry stays one of its kind: directories may get more entries, files may get other contents, and
links stay as they are. What can be followed in a tree can be followed to the same place in a tree that has grown from
it. A file system is extended if its tree grows and its files keep their contents, but for those that lie where a path
leads that led nowhere before.
-/

namespace ImportAtlas

namespace Entry

/-! ## Putting an entry -/

theorem lookup_putItem_self (name : String) (e : Entry) (items : List (String × Entry)) :
    (putItem name e items).lookup name = some e := by
  induction items with
  | nil => simp [putItem]
  | cons item rest ih =>
    obtain ⟨n, old⟩ := item
    rw [putItem]
    split
    · rename_i hn
      simp [hn]
    · rename_i hn
      split
      · simp
      · rw [List.lookup_cons, beq_false_of_ne hn]
        exact ih

theorem lookup_putItem_of_ne {name other : String} (h : other ≠ name) (e : Entry) (items : List (String × Entry)) :
    (putItem name e items).lookup other = items.lookup other := by
  have hother : (other == name) = false := beq_false_of_ne h
  induction items with
  | nil => simp [putItem, List.lookup_cons, hother]
  | cons item rest ih =>
    obtain ⟨n, old⟩ := item
    rw [putItem]
    split
    · rename_i hn
      subst hn
      simp [List.lookup_cons, hother]
    · split
      · simp [List.lookup_cons, hother]
      · simp [List.lookup_cons, ih]

theorem get?_put_self (new : Entry) (p : List String) (root : Entry) : (put new p root).get? p = some new := by
  induction p generalizing root with
  | nil => rfl
  | cons name rest ih =>
    cases root with
    | dir items =>
      rw [put, get?, child?, lookup_putItem_self]
      exact ih _
    | _ =>
      rw [put, get?, child?, List.lookup_cons, beq_self_eq_true]
      · exact ih _
      · exact fun items h => by cases h

/-- Outside of the place where an entry is put, only directories on the way to it change. -/
theorem get?_put {new e root : Entry} {p q : List String}
    (hdir : ∀ front name, p = front ++ [name] → ∃ items, root.get? front = some (dir items))
    (he : root.get? q = some e) (hpq : ¬ p <+: q) : ∃ e', (put new p root).get? q = some e' ∧
      (e' = e ∨ ∃ items items', e = dir items ∧ e' = dir items') := by
  induction p generalizing root q with
  | nil => exact absurd List.nil_prefix hpq
  | cons name rest ih =>
    have htop : ∃ items, root = dir items := by
      obtain ⟨front, last, hlast⟩ := List.eq_nil_or_concat (name :: rest) |>.resolve_left (by simp)
      rw [List.concat_eq_append] at hlast
      obtain ⟨items, hitems⟩ := hdir front last hlast
      cases front with
      | nil => exact ⟨items, Option.some.inj hitems⟩
      | cons n front => exact isDir_of_get?_cons hitems
    obtain ⟨items, rfl⟩ := htop
    cases q with
    | nil =>
      cases he
      exact ⟨_, rfl, .inr ⟨items, _, rfl, rfl⟩⟩
    | cons n q =>
      rw [get?, child?] at he
      cases hn : items.lookup n with
      | none => rw [hn] at he; cases he
      | some c =>
        rw [hn] at he
        rw [put, get?, child?]
        by_cases hname : n = name
        · subst hname
          rw [lookup_putItem_self, hn]
          refine ih (fun front last hrest => ?_) he fun hprefix => hpq ((List.prefix_cons_inj n).2 hprefix)
          obtain ⟨below, hbelow⟩ := hdir (n :: front) last (by rw [hrest]; rfl)
          rw [get?, child?, hn] at hbelow
          exact ⟨below, hbelow⟩
        · rw [lookup_putItem_of_ne hname, hn]
          exact ⟨e, he, .inl rfl⟩

/-! ## Entries of the same kind -/

def isPlain : Entry → Bool
  | file _ => true
  | archive _ => true
  | _ => false

/-- A link is of the same kind as itself alone. -/
inductive SameKind : Entry → Entry → Prop
  | dir (items items' : List (String × Entry)) : SameKind (dir items) (dir items')
  | link (target : String) : SameKind (link target) (link target)
  | plain {e e' : Entry} (he : e.isPlain = true) (he' : e'.isPlain = true) : SameKind e e'

theorem SameKind.refl (e : Entry) : SameKind e e := by
  cases e with
  | dir items => exact .dir items items
  | link target => exact .link target
  | file source => exact .plain rfl rfl
  | archive names => exact .plain rfl rfl

theorem SameKind.trans {e f g : Entry} (h : SameKind e f) (k : SameKind f g) : SameKind e g := by
  cases h with
  | dir items items' =>
    cases k with
    | dir _ items'' => exact .dir items items''
    | plain hf _ => cases hf
  | link target =>
    cases k with
    | link _ => exact .link target
    | plain hf _ => cases hf
  | plain he hf =>
    cases k with
    | dir _ _ => cases hf
    | link _ => cases hf
    | plain _ hg => exact .plain he hg

theorem SameKind.isLink_eq {e f : Entry} (h : SameKind e f) (he : e.isLink = false) : f.isLink = false := by
  cases h with
  | dir _ _ => rfl
  | link _ => cases he
  | plain _ hf =>
    cases f with
    | link _ => cases hf
    | _ => rfl

theorem isLink_of_isPlain {e : Entry} (h : e.isPlain = true) : e.isLink = false := by
  cases e with
  | link _ => cases h
  | _ => rfl

def Grows (root root' : Entry) : Prop :=
  ∀ {p e}, root.get? p = some e → ∃ e', root'.get? p = some e' ∧ SameKind e e'

theorem Grows.dir {root root' : Entry} (h : Grows root root') {p : List String} {items : List (String × Entry)}
    (hp : root.get? p = some (.dir items)) : ∃ items', root'.get? p = some (.dir items') := by
  obtain ⟨e, he, hkind⟩ := h hp
  cases hkind with
  | dir _ items' => exact ⟨items', he⟩
  | plain hdir _ => cases hdir

theorem Grows.link {root root' : Entry} (h : Grows root root') {p : List String} {target : String}
    (hp : root.get? p = some (.link target)) : root'.get? p = some (.link target) := by
  obtain ⟨e, he, hkind⟩ := h hp
  cases hkind with
  | link _ => exact he
  | plain hlink _ => cases hlink

end Entry

namespace FileSystem

/-! ## Following one part -/

section

variable {root : Entry} {create : Bool} {jump : List String → List String → Except Fault (List String)}
  {here rest q : List String} {part : String} {items : List (String × Entry)}

theorem followTo_stay (hdir : root.get? here = some (.dir items)) (hpart : part = "" ∨ part = ".") :
    followTo root create jump here (part :: rest) = followTo root create jump here rest := by
  rw [followTo, hdir]
  exact if_pos (by simpa using hpart)

theorem followTo_up (hdir : root.get? here = some (.dir items)) :
    followTo root create jump here (".." :: rest) = followTo root create jump here.dropLast rest := by
  rw [followTo, hdir]
  rfl

theorem followTo_link (hdir : root.get? here = some (.dir items)) (hpart : IsName part) {target : String}
    (hlink : root.get? (here ++ [part]) = some (.link target)) : followTo root create jump here (part :: rest) =
      jump (if Path.isAbsolute target then [] else here) (Path.segments target ++ rest) := by
  rw [Entry.get?_append_singleton, hdir] at hlink
  have hlookup : items.lookup part = some (.link target) := hlink
  rw [followTo, hdir]
  simp only [hpart.not_stay, hpart.2.2, hlookup, if_false, Bool.false_eq_true]

theorem followTo_down (hdir : root.get? here = some (.dir items)) (hpart : IsName part) {e : Entry}
    (he : root.get? (here ++ [part]) = some e) (hlink : e.isLink = false) :
    followTo root create jump here (part :: rest) = followTo root create jump (here ++ [part]) rest := by
  rw [Entry.get?_append_singleton, hdir] at he
  have hlookup : items.lookup part = some e := he
  rw [followTo, hdir]
  simp only [hpart.not_stay, hpart.2.2, hlookup, if_false, Bool.false_eq_true]
  cases e with
  | link _ => cases hlink
  | _ => rfl

theorem followTo_new (hdir : root.get? here = some (.dir items)) (hpart : IsName part)
    (hnone : root.get? (here ++ [part]) = none) : followTo root create jump here (part :: rest) =
      if create && rest.isEmpty then .ok (here ++ [part]) else .error .noSuchFile := by
  rw [Entry.get?_append_singleton, hdir] at hnone
  have hlookup : items.lookup part = none := hnone
  rw [followTo, hdir]
  simp only [hpart.not_stay, hpart.2.2, hlookup, if_false, Bool.false_eq_true]

inductive Followed (root : Entry) (create : Bool) (jump : List String → List String → Except Fault (List String))
    (here : List String) (part : String) (rest q : List String) : Prop
  | stay (hpart : part = "" ∨ part = ".") (h : followTo root create jump here rest = .ok q)
  | up (hpart : part = "..") (h : followTo root create jump here.dropLast rest = .ok q)
  | link {target : String} (hpart : IsName part) (hlink : root.get? (here ++ [part]) = some (.link target))
    (h : jump (if Path.isAbsolute target then [] else here) (Path.segments target ++ rest) = .ok q)
  | down {e : Entry} (hpart : IsName part) (he : root.get? (here ++ [part]) = some e) (hlink : e.isLink = false)
    (h : followTo root create jump (here ++ [part]) rest = .ok q)
  | new (hpart : IsName part) (hnone : root.get? (here ++ [part]) = none) (hcreate : create = true) (hrest : rest = [])
    (hq : q = here ++ [part])

theorem followTo_inv (h : followTo root create jump here (part :: rest) = .ok q) :
    (∃ items, root.get? here = some (.dir items)) ∧ Followed root create jump here part rest q := by
  cases hhere : root.get? here with
  | none => rw [followTo, hhere] at h; cases h
  | some e =>
    cases e with
    | dir items =>
      refine ⟨⟨items, rfl⟩, ?_⟩
      by_cases hstay : part = "" ∨ part = "."
      · rw [followTo_stay hhere hstay] at h
        exact .stay hstay h
      · by_cases hup : part = ".."
        · subst hup
          rw [followTo_up hhere] at h
          exact .up rfl h
        · have hname : IsName part := ⟨fun he => hstay (.inl he), fun he => hstay (.inr he), hup⟩
          cases hpart : root.get? (here ++ [part]) with
          | none =>
            rw [followTo_new hhere hname hpart] at h
            split at h
            · rename_i hnew
              cases h
              rw [Bool.and_eq_true, List.isEmpty_iff] at hnew
              exact .new hname hpart hnew.1 hnew.2 rfl
            · cases h
          | some e =>
            cases hlink : e.isLink with
            | true =>
              cases e with
              | link target =>
                rw [followTo_link hhere hname hpart] at h
                exact .link hname hpart h
              | _ => cases hlink
            | false =>
              rw [followTo_down hhere hname hpart hlink] at h
              exact .down hname hpart hlink h
    | _ => rw [followTo, hhere] at h; cases h

end

/-! ## Following in a tree that has grown -/

section

variable {root root' : Entry} (hgrows : root.Grows root') {create : Bool} {q : List String}
  (hq : create = true → ∃ e, root'.get? q = some e ∧ e.isLink = false)
include hgrows hq

theorem followTo_grows {jump jump' : List String → List String → Except Fault (List String)}
    (hjump : ∀ here todo, jump here todo = .ok q → jump' here todo = .ok q) {todo : List String} :
    ∀ {here : List String}, followTo root create jump here todo = .ok q →
      followTo root' false jump' here todo = .ok q := by
  induction todo with
  | nil => exact id
  | cons part rest ih =>
    intro here h
    obtain ⟨⟨items, hdir⟩, hfollowed⟩ := followTo_inv h
    obtain ⟨items', hdir'⟩ := hgrows.dir hdir
    cases hfollowed with
    | stay hpart h =>
      rw [followTo_stay hdir' hpart]
      exact ih h
    | up hpart hnext =>
      subst hpart
      rw [followTo_up hdir']
      exact ih hnext
    | link hpart hlink h =>
      rw [followTo_link hdir' hpart (hgrows.link hlink)]
      exact hjump _ _ h
    | down hpart he hlink h =>
      obtain ⟨e', he', hkind⟩ := hgrows he
      rw [followTo_down hdir' hpart he' (hkind.isLink_eq hlink)]
      exact ih h
    | new hpart _ hcreate hrest hnew =>
      obtain ⟨e', he', hlink'⟩ := hq hcreate
      subst hrest
      subst hnew
      rw [followTo_down hdir' hpart he' hlink']
      rfl

theorem follow_grows {limit : Nat} {here todo : List String} (h : follow root create limit here todo = .ok q) :
    follow root' false limit here todo = .ok q := by
  induction limit generalizing here todo with
  | zero => exact followTo_grows hgrows hq (fun _ _ h => by cases h) h
  | succ limit ih => exact followTo_grows hgrows hq (fun _ _ h => ih h) h

end

/-! ## Where a file would be made -/

structure Vacant (root : Entry) (p : List String) : Prop where
  none : root.get? p = none
  dir : ∃ front name items, p = front ++ [name] ∧ root.get? front = some (.dir items)

theorem followTo_create {root : Entry} {q : List String}
    {jump jump' : List String → List String → Except Fault (List String)}
    (hjump : ∀ here todo, jump here todo = .ok q →
      jump' here todo = .ok q ∨ (∃ fault, jump' here todo = .error fault) ∧ Vacant root q) {todo : List String} :
    ∀ {here : List String}, followTo root true jump here todo = .ok q → followTo root false jump' here todo = .ok q ∨
      (∃ fault, followTo root false jump' here todo = .error fault) ∧ Vacant root q := by
  induction todo with
  | nil => exact .inl
  | cons part rest ih =>
    intro here h
    obtain ⟨⟨items, hdir⟩, hfollowed⟩ := followTo_inv h
    cases hfollowed with
    | stay hpart h =>
      rw [followTo_stay hdir hpart]
      exact ih h
    | up hpart hnext =>
      subst hpart
      rw [followTo_up hdir]
      exact ih hnext
    | link hpart hlink h =>
      rw [followTo_link hdir hpart hlink]
      exact hjump _ _ h
    | down hpart he hlink h =>
      rw [followTo_down hdir hpart he hlink]
      exact ih h
    | new hpart hnone _ _ hnew =>
      rw [followTo_new hdir hpart hnone, hnew]
      exact .inr ⟨⟨_, rfl⟩, hnone, here, part, items, rfl, hdir⟩

theorem follow_create {root : Entry} {limit : Nat} {here todo q : List String}
    (h : follow root true limit here todo = .ok q) : follow root false limit here todo = .ok q ∨
      (∃ fault, follow root false limit here todo = .error fault) ∧ Vacant root q := by
  induction limit generalizing here todo with
  | zero => exact followTo_create (fun _ _ h => by cases h) h
  | succ limit ih => exact followTo_create (fun _ _ h => ih h) h

theorem site_cases {fs : FileSystem} {path : String} {p : List String} (h : fs.site path = .ok p) :
    fs.place path = .ok p ∨ (∃ fault, fs.place path = .error fault) ∧ Vacant fs.root p := by
  unfold site at h
  unfold place
  split at h
  · cases h
  · rename_i hne
    rw [if_neg hne]
    exact follow_create h

/-! ## Following further -/

theorem followTo_append_of {root : Entry} {create : Bool} {mid ys : List String} {r : Except Fault (List String)}
    {jump jump' : List String → List String → Except Fault (List String)}
    (hys : followTo root create jump' mid ys = r)
    (hjump : ∀ here todo, jump here todo = .ok mid → jump' here (todo ++ ys) = r) {xs : List String} :
    ∀ {here : List String}, followTo root false jump here xs = .ok mid →
      followTo root create jump' here (xs ++ ys) = r := by
  induction xs with
  | nil =>
    intro here h
    cases h
    exact hys
  | cons part rest ih =>
    intro here h
    obtain ⟨⟨items, hdir⟩, hfollowed⟩ := followTo_inv h
    rw [List.cons_append]
    cases hfollowed with
    | stay hpart h =>
      rw [followTo_stay hdir hpart]
      exact ih h
    | up hpart hnext =>
      subst hpart
      rw [followTo_up hdir]
      exact ih hnext
    | link hpart hlink h =>
      rw [followTo_link hdir hpart hlink, ← List.append_assoc]
      exact hjump _ _ h
    | down hpart he hlink h =>
      rw [followTo_down hdir hpart he hlink]
      exact ih h
    | new _ _ hcreate _ _ => cases hcreate

/-- What leads on from a place without links leads on from every path to it. -/
theorem follow_append_of {root : Entry} {create : Bool} {limit : Nat} {here xs mid ys : List String}
    {r : Except Fault (List String)} (h : follow root false limit here xs = .ok mid)
    (hys : ∀ limit, follow root create limit mid ys = r) : follow root create limit here (xs ++ ys) = r := by
  induction limit generalizing here xs with
  | zero => exact followTo_append_of (hys 0) (fun _ _ h => by cases h) h
  | succ limit ih => exact followTo_append_of (hys (limit + 1)) (fun _ _ h => ih h) h

/-! ## Extended file systems -/

/-- The tree has grown, and every file has kept its contents or lies where one of the paths leads now that led
nowhere before. -/
structure Extends (T : String → Prop) (fs fs' : FileSystem) : Prop where
  cwd : fs'.cwd = fs.cwd
  grows : fs.root.Grows fs'.root
  plain {p : List String} {e : Entry} (hp : fs.root.get? p = some e) (he : e.isPlain = true) :
    fs'.root.get? p = some e ∨ ∃ t, T t ∧ fs.exists? t = false ∧ fs'.place t = .ok p

variable {T : String → Prop} {fs fs' fs'' : FileSystem}

theorem start_of_cwd (h : fs'.cwd = fs.cwd) (path : String) : fs'.start path = fs.start path := by
  unfold start
  rw [h]

theorem place_grows (hcwd : fs'.cwd = fs.cwd) (hgrows : fs.root.Grows fs'.root) {path : String} {p : List String}
    (h : fs.place path = .ok p) : fs'.place path = .ok p := by
  unfold place at h ⊢
  split at h
  · cases h
  · rename_i hne
    rw [if_neg hne, start_of_cwd hcwd]
    exact follow_grows hgrows (fun hcreate => by cases hcreate) h

theorem place_of_site (hcwd : fs'.cwd = fs.cwd) (hgrows : fs.root.Grows fs'.root) {path : String} {p : List String}
    (h : fs.site path = .ok p) {e : Entry} (he : fs'.root.get? p = some e) (hlink : e.isLink = false) :
    fs'.place path = .ok p := by
  unfold site at h
  unfold place
  split at h
  · cases h
  · rename_i hne
    rw [if_neg hne, start_of_cwd hcwd]
    exact follow_grows hgrows (fun _ => ⟨e, he, hlink⟩) h

namespace Extends

theorem place (h : Extends T fs fs') {path : String} {p : List String} (hp : fs.place path = .ok p) :
    fs'.place path = .ok p :=
  place_grows h.cwd h.grows hp

theorem exists? (h : Extends T fs fs') {path : String} (hp : fs.exists? path = true) : fs'.exists? path = true := by
  obtain ⟨p, hp⟩ := exists?_iff.1 hp
  exact exists?_iff.2 ⟨p, h.place hp⟩

theorem not_exists? (h : Extends T fs fs') {path : String} (hp : fs'.exists? path = false) :
    fs.exists? path = false := by
  rw [Bool.eq_false_iff] at hp ⊢
  exact mt h.exists? hp

theorem locate (h : Extends T fs fs') {path : String} {e : Entry} (hlocate : fs.locate path = .ok e)
    (he : e.isPlain = true) : fs'.locate path = .ok e ∨
      ∃ t p, T t ∧ fs.exists? t = false ∧ fs'.place t = .ok p ∧ fs'.place path = .ok p := by
  obtain ⟨p, hplace, hp⟩ := place_of_locate hlocate
  rcases h.plain hp he with hp' | ⟨t, ht, hnew, hplace'⟩
  · exact .inl (locate_of_place (h.place hplace) hp')
  · exact .inr ⟨t, p, ht, hnew, hplace', h.place hplace⟩

theorem isDir_eq (h : Extends T fs fs') {path : String} {e : Entry} (hlocate : fs.locate path = .ok e) :
    fs'.isDir path = fs.isDir path := by
  obtain ⟨p, hplace, hp⟩ := place_of_locate hlocate
  obtain ⟨e', hp', hkind⟩ := h.grows hp
  unfold isDir
  rw [hlocate, locate_of_place (h.place hplace) hp']
  cases hkind with
  | dir _ _ => rfl
  | link _ => rfl
  | plain he he' =>
    cases e with
    | dir _ => cases he
    | _ =>
      cases e' with
      | dir _ => cases he'
      | _ => rfl

theorem refl (T : String → Prop) (fs : FileSystem) : Extends T fs fs where
  cwd := rfl
  grows := fun {_ e} he => ⟨e, he, .refl e⟩
  plain := fun hp _ => .inl hp

theorem trans (h : Extends T fs fs') (k : Extends T fs' fs'') : Extends T fs fs'' where
  cwd := k.cwd.trans h.cwd
  grows := by
    intro p e he
    obtain ⟨e', he', hkind⟩ := h.grows he
    obtain ⟨e'', he'', hkind'⟩ := k.grows he'
    exact ⟨e'', he'', hkind.trans hkind'⟩
  plain := by
    intro p e hp he
    rcases h.plain hp he with hp' | ⟨t, ht, hnew, hplace⟩
    · rcases k.plain hp' he with hp'' | ⟨t, ht, hnew, hplace⟩
      · exact .inl hp''
      · exact .inr ⟨t, ht, h.not_exists? hnew, hplace⟩
    · exact .inr ⟨t, ht, hnew, k.place hplace⟩

end Extends

/-! ## Putting an entry -/

theorem grows_put_vacant {root new : Entry} {p : List String} (h : Vacant root p) : root.Grows (Entry.put new p root) ∧
    ∀ {q e}, root.get? q = some e → e.isPlain = true → (Entry.put new p root).get? q = some e := by
  obtain ⟨front, name, items, rfl, hdir⟩ := h.dir
  have hdir' : ∀ front' name', front ++ [name] = front' ++ [name'] → ∃ items, root.get? front' = some (.dir items) := by
    intro front' name' hsplit
    obtain ⟨rfl, _⟩ := List.append_inj' hsplit rfl
    exact ⟨items, hdir⟩
  -- nothing lies below the place, since nothing lies there
  have hbelow : ∀ {q e}, root.get? q = some e → ¬ front ++ [name] <+: q := by
    rintro q e he ⟨more, rfl⟩
    rw [Entry.get?_append, h.none] at he
    cases he
  constructor
  · intro q e he
    obtain ⟨e', he', rfl | ⟨items, items', rfl, rfl⟩⟩ := Entry.get?_put hdir' he (hbelow he)
    · exact ⟨e', he', .refl e'⟩
    · exact ⟨_, he', .dir items items'⟩
  · intro q e he hplain
    obtain ⟨e', he', rfl | ⟨items, items', rfl, rfl⟩⟩ := Entry.get?_put hdir' he (hbelow he)
    · exact he'
    · cases hplain

theorem grows_put_plain {root old new : Entry} {p : List String} (hp : root.get? p = some old)
    (hold : old.isPlain = true) (hnew : new.isPlain = true) : root.Grows (Entry.put new p root) ∧
      ∀ {q e}, root.get? q = some e → e.isPlain = true → q ≠ p → (Entry.put new p root).get? q = some e := by
  have hdir : ∀ front name, p = front ++ [name] → ∃ items, root.get? front = some (.dir items) := by
    rintro front name rfl
    obtain ⟨items, hitems, _⟩ := Entry.dir_of_get?_concat hp
    exact ⟨items, hitems⟩
  -- nothing lies below a file
  have hbelow : ∀ {q e}, root.get? q = some e → p <+: q → q = p := by
    rintro q e he ⟨more, rfl⟩
    cases more with
    | nil => exact List.append_nil p
    | cons name more =>
      rw [Entry.get?_append, hp] at he
      cases old with
      | dir items => cases hold
      | _ => cases he
  constructor
  · intro q e he
    by_cases hpq : p <+: q
    · obtain rfl := hbelow he hpq
      cases hp.symm.trans he
      exact ⟨new, Entry.get?_put_self new q root, .plain hold hnew⟩
    · obtain ⟨e', he', rfl | ⟨items, items', rfl, rfl⟩⟩ := Entry.get?_put hdir he hpq
      · exact ⟨e', he', .refl e'⟩
      · exact ⟨_, he', .dir items items'⟩
  · intro q e he hplain hne
    obtain ⟨e', he', rfl | ⟨items, items', rfl, rfl⟩⟩ := Entry.get?_put hdir he fun hpq => hne (hbelow he hpq)
    · exact he'
    · cases hplain

theorem extends_put_vacant {p : List String} (h : Vacant fs.root p) (new : Entry) : Extends T fs (fs.put p new) where
  cwd := rfl
  grows := (grows_put_vacant h).1
  plain := fun hp he => .inl ((grows_put_vacant h).2 hp he)

/-- A file may be written over another if its path led nowhere before. -/
theorem extends_put_plain (h : Extends T fs fs') {t : String} (ht : T t) (hnone : fs.exists? t = false)
    {p : List String} (hplace : fs'.place t = .ok p) {old new : Entry} (hp : fs'.root.get? p = some old)
    (hold : old.isPlain = true) (hnew : new.isPlain = true) : Extends T fs (fs'.put p new) := by
  obtain ⟨hgrows, hothers⟩ := grows_put_plain hp hold hnew
  have hcwd : (fs'.put p new).cwd = fs'.cwd := rfl
  refine ⟨h.cwd, fun {q e} he => ?_, fun {q e} he hplain => ?_⟩
  · obtain ⟨e', he', hkind⟩ := h.grows he
    obtain ⟨e'', he'', hkind'⟩ := hgrows he'
    exact ⟨e'', he'', hkind.trans hkind'⟩
  · rcases h.plain he hplain with he' | ⟨t', ht', hnone', hplace'⟩
    · by_cases hqp : q = p
      · subst hqp
        exact .inr ⟨t, ht, hnone, place_grows hcwd hgrows hplace⟩
      · exact .inl (hothers he' hplain hqp)
    · exact .inr ⟨t', ht', hnone', place_grows hcwd hgrows hplace'⟩

end FileSystem

end ImportAtlas
