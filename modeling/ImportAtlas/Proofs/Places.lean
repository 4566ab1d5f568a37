import ImportAtlas.Proofs.Links
import ImportAtlas.Proofs.Paths
import ImportAtlas.Proofs.Runs

/-!
# Places

In a tree whose names can stand in a path, every entry that is no link has one canonical path, which leads to it and
through no link, and this is the real path of all paths that lead there. Without any link in the tree, a path that is
joined to another leads on from where that one leads.
-/

namespace ImportAtlas

/-! ## Names in a tree -/

namespace FileSystem

def IsEntryName (name : String) : Prop := IsName name ∧ '/' ∉ name.toList

instance (name : String) : Decidable (IsEntryName name) := by
  unfold IsEntryName IsName
  infer_instance

theorem IsEntryName.isPart {name : String} (h : IsEntryName name) : Path.IsPart name := ⟨h.1.1, h.2⟩

end FileSystem

theorem mem_of_lookup {α β : Type} [BEq α] [LawfulBEq α] {items : List (α × β)} {a : α} {b : β}
    (h : items.lookup a = some b) : (a, b) ∈ items := by
  obtain ⟨before, after, rfl, _⟩ := List.lookup_eq_some_iff.1 h
  simp

open FileSystem

namespace Entry

mutual

/-- Every name can stand in a path, and no directory has one name twice. -/
def wellNamed : Entry → Bool
  | dir items => decide (items.map (·.1)).Nodup && wellNamedIn items
  | _ => true

def wellNamedIn : List (String × Entry) → Bool
  | [] => true
  | (name, e) :: rest => decide (IsEntryName name) && wellNamed e && wellNamedIn rest

end

theorem wellNamedIn_iff {items : List (String × Entry)} :
    wellNamedIn items = true ↔ ∀ item ∈ items, IsEntryName item.1 ∧ item.2.wellNamed = true := by
  induction items with
  | nil => simp [wellNamedIn]
  | cons item rest ih =>
    obtain ⟨name, e⟩ := item
    simp [wellNamedIn, ih]

theorem lookup_of_mem {items : List (String × Entry)} (hnd : (items.map (·.1)).Nodup) {name : String} {e : Entry}
    (h : (name, e) ∈ items) : items.lookup name = some e := by
  induction items with
  | nil => cases h
  | cons item rest ih =>
    obtain ⟨n, f⟩ := item
    obtain ⟨hn, hrest⟩ := List.nodup_cons.1 hnd
    rw [List.lookup_cons]
    rcases List.mem_cons.1 h with he | hmem
    · cases he
      rw [beq_self_eq_true]
    · have hne : name ≠ n := by
        rintro rfl
        exact hn (List.mem_map.2 ⟨_, hmem, rfl⟩)
      rw [beq_false_of_ne hne]
      exact ih hrest hmem

theorem get?_append (root : Entry) (p q : List String) : root.get? (p ++ q) = (root.get? p).bind (·.get? q) := by
  induction p generalizing root with
  | nil => rfl
  | cons name rest ih =>
    rw [List.cons_append, get?, get?]
    cases root.child? name with
    | none => rfl
    | some e => exact ih e

theorem isLink_of_get? {e f : Entry} {p : List String} (h : e.get? p = some f) (hf : f.isLink = false) :
    e.isLink = false := by
  cases e with
  | link target =>
    cases p with
    | nil => cases h; exact hf
    | cons name rest => cases h
  | _ => rfl

/-- What has an entry below it is a directory. -/
theorem dir_of_get?_concat {root e : Entry} {p : List String} {name : String} (h : root.get? (p ++ [name]) = some e) :
    ∃ items, root.get? p = some (.dir items) ∧ items.lookup name = some e := by
  rw [get?_append_singleton] at h
  obtain ⟨d, hd, hchild⟩ := Option.bind_eq_some_iff.1 h
  cases d with
  | dir items => exact ⟨items, hd, hchild⟩
  | _ => cases hchild

theorem get?_dropLast {root e : Entry} {p : List String} (h : root.get? p = some e) :
    p = [] ∨ ∃ items, root.get? p.dropLast = some (.dir items) := by
  rcases List.eq_nil_or_concat p with rfl | ⟨front, last, rfl⟩
  · exact .inl rfl
  · rw [List.concat_eq_append] at h ⊢
    obtain ⟨items, hitems, _⟩ := dir_of_get?_concat h
    exact .inr ⟨items, by rw [List.dropLast_concat]; exact hitems⟩

theorem wellNamed_get? {root e : Entry} {p : List String} (hroot : root.wellNamed = true) (h : root.get? p = some e) :
    e.wellNamed = true ∧ ∀ name ∈ p, IsEntryName name := by
  induction p generalizing root with
  | nil =>
    cases h
    exact ⟨hroot, List.forall_mem_nil _⟩
  | cons name rest ih =>
    cases root with
    | dir items =>
      rw [get?, child?] at h
      cases hl : items.lookup name with
      | none => rw [hl] at h; cases h
      | some f =>
        rw [hl] at h
        rw [wellNamed, Bool.and_eq_true] at hroot
        obtain ⟨hname, hf⟩ := wellNamedIn_iff.1 hroot.2 _ (mem_of_lookup hl)
        obtain ⟨he, hrest⟩ := ih hf h
        exact ⟨he, List.forall_mem_cons.2 ⟨hname, hrest⟩⟩
    | _ => cases h

theorem isDir_of_get?_cons {root e : Entry} {name : String} {p : List String} (h : root.get? (name :: p) = some e) :
    ∃ items, root = .dir items := by
  cases root with
  | dir items => exact ⟨items, rfl⟩
  | _ => cases h

end Entry

namespace FileSystem

variable {fs : FileSystem}

/-! ## Canonical paths -/

/-- The parts of a place are followed one by one. -/
theorem followTo_of_get? {root e : Entry} {create : Bool}
    {jump : List String → List String → Except Fault (List String)} {parts here : List String}
    (hn : ∀ name ∈ parts, IsName name) (hg : root.get? (here ++ parts) = some e) (he : e.isLink = false)
    (rest : List String) :
    followTo root create jump here (parts ++ rest) = followTo root create jump (here ++ parts) rest := by
  induction parts generalizing here with
  | nil => rw [List.append_nil, List.nil_append]
  | cons part parts ih =>
    obtain ⟨hpart, hparts⟩ := List.forall_mem_cons.1 hn
    have hsplit : here ++ part :: parts = (here ++ [part]) ++ parts := by simp
    rw [hsplit] at hg ⊢
    rw [Entry.get?_append] at hg
    obtain ⟨f, hf, hfe⟩ := Option.bind_eq_some_iff.1 hg
    obtain ⟨items, hdir, hlookup⟩ := Entry.dir_of_get?_concat hf
    have hflink := Entry.isLink_of_get? hfe he
    rw [← ih hparts (by rw [Entry.get?_append, hf]; exact hfe), List.cons_append, followTo, hdir]
    simp only [hpart.not_stay, hpart.2.2, hlookup]
    cases f with
    | link target => cases hflink
    | _ => rfl

theorem follow_of_get? {root e : Entry} {create : Bool} {limit : Nat} {parts here : List String}
    (hn : ∀ name ∈ parts, IsName name) (hg : root.get? (here ++ parts) = some e) (he : e.isLink = false)
    (rest : List String) :
    follow root create limit here (parts ++ rest) = follow root create limit (here ++ parts) rest := by
  cases limit <;> exact followTo_of_get? hn hg he rest

theorem follow_nil {root : Entry} {create : Bool} {limit : Nat} {here : List String} :
    follow root create limit here [] = .ok here := by
  cases limit <;> rfl

theorem place_ofParts {items : List (String × Entry)} {e : Entry} {parts : List String} (hroot : fs.root = .dir items)
    (hn : ∀ name ∈ parts, IsEntryName name) (hg : fs.root.get? parts = some e) (he : e.isLink = false) :
    fs.place (Path.ofParts parts) = .ok parts := by
  have hparts : ∀ name ∈ parts, Path.IsPart name := fun name hname => (hn name hname).isPart
  have hstart : fs.start (Path.ofParts parts) = [] := if_pos (Path.isAbsolute_ofParts parts)
  have hne := Path.ofParts_ne_empty parts
  -- a part that is empty stays at the top
  have hstay : ∀ rest, follow fs.root false linkLimit [] ("" :: rest) = follow fs.root false linkLimit [] rest := by
    intro rest
    rw [linkLimit, follow, followTo, Entry.get?, hroot]
    rfl
  rw [place, if_neg hne, hstart]
  cases parts with
  | nil =>
    have hseg : Path.segments (Path.ofParts []) = ["", ""] := by
      rw [Path.ofParts_nil]
      decide +kernel
    rw [hseg, hstay, hstay, follow_nil]
  | cons part parts =>
    have hfollow : follow fs.root false linkLimit [] (part :: parts ++ []) =
        follow fs.root false linkLimit ([] ++ part :: parts) [] :=
      follow_of_get? (fun name hname => (hn name hname).1) hg he []
    rw [List.append_nil, List.nil_append, follow_nil] at hfollow
    rw [Path.segments_ofParts hparts (by simp), hstay, hfollow]

/-- Where a path can be followed to there is an entry that is no link, and the top is a directory. -/
theorem followTo_entry {root : Entry} {create : Bool} {jump : List String → List String → Except Fault (List String)}
    (hcreate : create = false) (hjump : ∀ here todo q, todo ≠ [] → jump here todo = .ok q →
      (∃ items, root = .dir items) ∧ ∃ e, root.get? q = some e ∧ e.isLink = false)
    {todo : List String} : ∀ {here q : List String}, followTo root create jump here todo = .ok q →
      todo ≠ [] ∨ (∃ items, root = .dir items) ∧ (∃ e, root.get? here = some e ∧ e.isLink = false) →
      (∃ items, root = .dir items) ∧ ∃ e, root.get? q = some e ∧ e.isLink = false := by
  subst hcreate
  induction todo with
  | nil =>
    intro here q h hhere
    cases h
    exact hhere.resolve_left (fun h => h rfl)
  | cons part rest ih =>
    intro here q h _
    rw [followTo] at h
    split at h
    · rename_i items hdir
      have htop : ∃ items, root = .dir items := by
        cases here with
        | nil => cases hdir; exact ⟨items, rfl⟩
        | cons name here => exact Entry.isDir_of_get?_cons hdir
      split at h
      · exact ih h (.inr ⟨htop, _, hdir, rfl⟩)
      · split at h
        · refine ih h (.inr ⟨htop, ?_⟩)
          rcases Entry.get?_dropLast hdir with rfl | ⟨items', hitems'⟩
          · exact ⟨_, hdir, rfl⟩
          · exact ⟨_, hitems', rfl⟩
        · split at h
          · rename_i target hlink
            exact hjump _ _ _ (by simp [Path.segments_ne_nil]) h
          · rename_i e hnot hentry
            refine ih h (.inr ⟨htop, e, ?_, ?_⟩)
            · rw [Entry.get?_append_singleton, hdir]
              exact hentry
            · cases e with
              | link target => exact absurd rfl (hnot target)
              | _ => rfl
          · cases h
    · cases h
    · cases h

theorem follow_entry {root : Entry} {limit : Nat} {here todo q : List String} (hne : todo ≠ [])
    (h : follow root false limit here todo = .ok q) :
    (∃ items, root = .dir items) ∧ ∃ e, root.get? q = some e ∧ e.isLink = false := by
  induction limit generalizing here todo q with
  | zero => exact followTo_entry rfl (fun _ _ _ _ h => by cases h) h (.inl hne)
  | succ limit ih => exact followTo_entry rfl (fun _ _ _ hne h => ih hne h) h (.inl hne)

theorem place_entry {path : String} {parts : List String} (h : fs.place path = .ok parts) :
    (∃ items, fs.root = .dir items) ∧ ∃ e, fs.root.get? parts = some e ∧ e.isLink = false := by
  unfold place at h
  split at h
  · cases h
  · exact follow_entry (Path.segments_ne_nil path) h

theorem locate_of_place {path : String} {parts : List String} {e : Entry} (h : fs.place path = .ok parts)
    (he : fs.root.get? parts = some e) : fs.locate path = .ok e := by
  unfold locate
  rw [h]
  simp only [bind, Except.bind, he]

theorem place_of_locate {path : String} {e : Entry} (h : fs.locate path = .ok e) :
    ∃ parts, fs.place path = .ok parts ∧ fs.root.get? parts = some e := by
  obtain ⟨parts, hplace, h⟩ := except_bind_inv h
  refine ⟨parts, hplace, ?_⟩
  split at h
  · rename_i hget
    cases h
    exact hget
  · cases h

/-! ## Questions about places -/

theorem locate_congr {a b : String} (h : fs.place a = fs.place b) : fs.locate a = fs.locate b := by
  unfold locate
  rw [h]

theorem exists?_congr {a b : String} (h : fs.place a = fs.place b) : fs.exists? a = fs.exists? b := by
  unfold exists?
  rw [h]

theorem isDir_congr {a b : String} (h : fs.place a = fs.place b) : fs.isDir a = fs.isDir b := by
  unfold isDir
  rw [locate_congr h]

theorem isFile_congr {a b : String} (h : fs.place a = fs.place b) : fs.isFile a = fs.isFile b := by
  unfold isFile
  rw [locate_congr h]

theorem place_of_isFile {path : String} (h : fs.isFile path = true) : ∃ parts, fs.place path = .ok parts := by
  unfold isFile locate at h
  cases hplace : fs.place path with
  | ok parts => exact ⟨parts, rfl⟩
  | error fault =>
    rw [hplace] at h
    cases h

theorem place_of_isDir {path : String} (h : fs.isDir path = true) : ∃ parts, fs.place path = .ok parts := by
  unfold isDir locate at h
  cases hplace : fs.place path with
  | ok parts => exact ⟨parts, rfl⟩
  | error fault =>
    rw [hplace] at h
    cases h

theorem not_isDir_of_isFile {path : String} (h : fs.isFile path = true) : fs.isDir path = false := by
  unfold isFile at h
  unfold isDir
  split at h <;> simp_all

theorem names_congr {a b : String} (h : fs.place a = fs.place b) : fs.names a = fs.names b := by
  unfold names
  rw [locate_congr h]

theorem ne_empty_of_place {path : String} {parts : List String} (h : fs.place path = .ok parts) : path ≠ "" := by
  rintro rfl
  cases h

theorem exists?_iff {path : String} : fs.exists? path = true ↔ ∃ parts, fs.place path = .ok parts := by
  unfold exists?
  cases fs.place path <;> simp [Except.isOk, Except.toBool]

section

variable (hfs : fs.root.wellNamed = true)
include hfs

theorem isEntryName_of_place {path : String} {parts : List String} (h : fs.place path = .ok parts) :
    ∀ name ∈ parts, IsEntryName name := by
  obtain ⟨_, e, he, _⟩ := place_entry h
  exact (Entry.wellNamed_get? hfs he).2

theorem isEntryName_of_names {path : String} {names : List String} (h : fs.names path = .ok names) :
    ∀ name ∈ names, IsEntryName name := by
  unfold FileSystem.names at h
  obtain ⟨e, he, h⟩ := except_bind_inv h
  cases e with
  | dir items =>
    cases h
    obtain ⟨parts, _, he⟩ := except_bind_inv he
    cases hg : fs.root.get? parts with
    | none => rw [hg] at he; cases he
    | some found =>
      rw [hg] at he
      cases he
      have hnamed := (Entry.wellNamed_get? hfs hg).1
      rw [Entry.wellNamed, Bool.and_eq_true, Entry.wellNamedIn_iff] at hnamed
      rintro name hname
      obtain ⟨item, hitem, rfl⟩ := List.mem_map.1 hname
      exact (hnamed.2 item hitem).1
  | _ => cases h

theorem place_realPath {path : String} {parts : List String} (h : fs.place path = .ok parts) :
    fs.place (fs.realPath path) = .ok parts := by
  obtain ⟨⟨items, hroot⟩, e, he, hlink⟩ := place_entry h
  rw [realPath_eq h]
  exact place_ofParts hroot (isEntryName_of_place hfs h) he hlink

end

/-! ## The text of real paths -/

structure Slashless (seen : Seen) (path : List String) (steps : List Step) : Prop where
  seen : ∀ l known, (l, some known) ∈ seen → ∀ name ∈ known, Path.IsPart name
  path : ∀ name ∈ path, Path.IsPart name
  steps : ∀ name, Step.part name ∈ steps → '/' ∉ name.toList

theorem isPart_appendParts {parts more : List String} (hparts : ∀ name ∈ parts, Path.IsPart name)
    (hmore : ∀ name ∈ more, '/' ∉ name.toList) : ∀ name ∈ appendParts parts more, Path.IsPart name := by
  unfold appendParts
  induction more generalizing parts with
  | nil => exact hparts
  | cons part more ih =>
    obtain ⟨hpart, hmore⟩ := List.forall_mem_cons.1 hmore
    rw [List.foldl_cons]
    split
    · exact ih hparts hmore
    · rename_i hstay
      simp only [Bool.or_eq_true, decide_eq_true_eq, not_or] at hstay
      split
      · exact ih (fun name hname => hparts name (List.dropLast_subset _ hname)) hmore
      · refine ih (fun name hname => ?_) hmore
        rcases List.mem_append.1 hname with hname | hname
        · exact hparts name hname
        · rw [List.mem_singleton.1 hname]
          exact ⟨hstay.1, hpart⟩

theorem not_mem_of_mem_parts {steps : List Step} (h : ∀ name, Step.part name ∈ steps → '/' ∉ name.toList) :
    ∀ name ∈ Step.parts steps, '/' ∉ name.toList := by
  intro name hname
  obtain ⟨step, hstep, hsome⟩ := List.mem_filterMap.1 hname
  cases step with
  | part other => cases hsome; exact h _ hstep
  | done l => cases hsome

theorem unlinkTo_isPart {root : Entry} {enter : Seen → List String → List String → String → List Step → List String}
    (henter : ∀ seen path next target rest, Slashless seen path rest → (∀ name ∈ next, Path.IsPart name) →
      ∀ name ∈ enter seen path next target rest, Path.IsPart name) {steps : List Step} :
    ∀ {seen : Seen} {path : List String}, Slashless seen path steps →
      ∀ name ∈ unlinkTo root enter seen path steps, Path.IsPart name := by
  induction steps with
  | nil => exact fun h => h.path
  | cons step rest ih =>
    intro seen path h
    have hrest : ∀ name, Step.part name ∈ rest → '/' ∉ name.toList :=
      fun name hname => h.steps name (List.mem_cons_of_mem _ hname)
    cases step with
    | done l =>
      rw [unlinkTo]
      refine ih ⟨fun l' known hknown => ?_, h.path, hrest⟩
      rcases List.mem_cons.1 hknown with he | hknown
      · cases he
        exact h.path
      · exact h.seen l' known hknown
    | part part =>
      have hpart := h.steps part List.mem_cons_self
      rw [unlinkTo]
      split
      · exact ih ⟨h.seen, h.path, hrest⟩
      · rename_i hstay
        simp only [Bool.or_eq_true, decide_eq_true_eq, not_or] at hstay
        split
        · exact ih ⟨h.seen, fun name hname => h.path name (List.dropLast_subset _ hname), hrest⟩
        · have hnext : ∀ name ∈ path ++ [part], Path.IsPart name := by
            intro name hname
            rcases List.mem_append.1 hname with hname | hname
            · exact h.path name hname
            · rw [List.mem_singleton.1 hname]
              exact ⟨hstay.1, hpart⟩
          dsimp only
          split
          · split
            · rename_i known hknown
              exact ih ⟨h.seen, h.seen _ known (mem_of_lookup hknown), hrest⟩
            · exact isPart_appendParts hnext (not_mem_of_mem_parts hrest)
            · exact henter _ _ _ _ _ ⟨h.seen, h.path, hrest⟩ hnext
          · exact ih ⟨h.seen, hnext, hrest⟩

theorem unlink_isPart {root : Entry} {limit : Nat} {seen : Seen} {path : List String} {steps : List Step}
    (h : Slashless seen path steps) : ∀ name ∈ unlink root limit seen path steps, Path.IsPart name := by
  induction limit generalizing seen path steps with
  | zero =>
    refine unlinkTo_isPart (fun seen path next target rest h hnext => ?_) h
    exact isPart_appendParts hnext (not_mem_of_mem_parts h.steps)
  | succ limit ih =>
    refine unlinkTo_isPart (fun seen path next target rest h hnext => ih ⟨fun l known hknown => ?_, ?_, ?_⟩) h
    · rcases List.mem_cons.1 hknown with he | hknown
      · cases he
      · exact h.seen l known hknown
    · split
      · exact List.forall_mem_nil _
      · exact h.path
    · intro name hname
      rcases List.mem_append.1 hname with hname | hname
      · obtain ⟨part, hpart, he⟩ := List.mem_map.1 hname
        cases he
        exact Text.not_mem_of_mem_pieces hpart
      · rcases List.mem_cons.1 hname with he | hname
        · cases he
        · exact h.steps name hname

/-- A real path is the text of some parts, whether it leads anywhere or not. -/
theorem realPath_isPart (fs : FileSystem) (path : String) :
    ∃ parts, fs.realPath path = Path.ofParts parts ∧ ∀ name ∈ parts, Path.IsPart name := by
  refine ⟨_, rfl, unlink_isPart ⟨nofun, ?_, ?_⟩⟩
  · unfold start
    split
    · exact List.forall_mem_nil _
    · intro name hname
      obtain ⟨hmem, hne⟩ := List.mem_filter.1 hname
      exact Path.isPart_of_mem_segments hmem (by simpa using hne)
  · intro name hname
    obtain ⟨part, hpart, he⟩ := List.mem_map.1 hname
    cases he
    exact Text.not_mem_of_mem_pieces hpart

/-! ## Directories of paths -/

/-- What has been followed further can be followed so far, also if a slash asks for a directory there. -/
theorem followTo_slash {root : Entry} {jump : List String → List String → Except Fault (List String)}
    (hjump : ∀ here xs s rest q, jump here (xs ++ s :: rest) = .ok q →
      ∃ mid, jump here xs = .ok mid ∧ jump here (xs ++ [""]) = .ok mid)
    {xs : List String} {s : String} {rest : List String} :
    ∀ {here q : List String}, followTo root false jump here (xs ++ s :: rest) = .ok q →
      ∃ mid, followTo root false jump here xs = .ok mid ∧ followTo root false jump here (xs ++ [""]) = .ok mid := by
  induction xs with
  | nil =>
    intro here q h
    rw [List.nil_append, followTo] at h
    split at h
    · rename_i items hdir
      refine ⟨here, rfl, ?_⟩
      rw [List.nil_append, followTo, hdir]
      rfl
    · cases h
    · cases h
  | cons part xs ih =>
    intro here q h
    rw [List.cons_append, followTo] at h ⊢
    rw [followTo]
    split at h
    · split at h
      · rename_i hstay
        simp only [if_pos hstay]
        exact ih h
      · rename_i hstay
        simp only [if_neg hstay]
        split at h
        · rename_i hup
          simp only [if_pos hup]
          exact ih h
        · rename_i hup
          simp only [if_neg hup]
          split at h
          · rw [← List.append_assoc] at h
            obtain ⟨mid, hmid, hslash⟩ := hjump _ _ _ _ _ h
            rw [List.append_assoc] at hslash
            exact ⟨mid, hmid, hslash⟩
          · exact ih h
          · cases h
    · cases h
    · cases h

theorem follow_slash {root : Entry} {limit : Nat} {here xs rest q : List String} {s : String}
    (h : follow root false limit here (xs ++ s :: rest) = .ok q) :
    ∃ mid, follow root false limit here xs = .ok mid ∧ follow root false limit here (xs ++ [""]) = .ok mid := by
  induction limit generalizing here xs s rest q with
  | zero => exact followTo_slash (fun _ _ _ _ _ h => by cases h) h
  | succ limit ih => exact followTo_slash (fun _ _ _ _ _ h => ih h) h

theorem place_of_slash {path : String} {parts : List String} (hne : path ≠ "")
    (h : fs.place (path ++ "/") = .ok parts) : fs.place path = .ok parts := by
  have hne' : path ++ "/" ≠ "" := fun h => hne (String.append_eq_empty_iff.1 h).1
  rw [place, if_neg hne', start, Path.isAbsolute_append hne, ← start, Path.segments_slash] at h
  obtain ⟨mid, hmid, hslash⟩ := follow_slash h
  rw [place, if_neg hne, hmid, ← hslash, h]

theorem place_trimmed {path : String} {parts : List String} (h : fs.place path = .ok parts) :
    fs.place (Path.trimmed path) = .ok parts := by
  have run : ∀ chars : List Char, fs.place (String.ofList chars) = .ok parts →
      fs.place (String.ofList (Path.withoutSlashes chars)) = .ok parts := by
    intro chars
    induction chars using List.reverseRecOn with
    | nil => exact id
    | append_singleton front c ih =>
      intro hplace
      rcases Path.withoutSlashes_concat front c with hsame | ⟨rfl, hfront, hshorter⟩
      · rwa [hsame]
      · rw [hshorter]
        rw [String.ofList_append] at hplace
        exact ih (place_of_slash (by simpa using hfront) hplace)
  have hrun := run path.toList
  rw [String.ofList_toList] at hrun
  exact hrun h

theorem Leads.append {root : Entry} {here xs mid ys q : List String} {n m : Nat} (h : Leads root here xs mid n)
    (h' : Leads root mid ys q m) : ∃ k, Leads root here (xs ++ ys) q k := by
  induction h with
  | nil here => exact ⟨m, h'⟩
  | stay hs _ ih =>
    obtain ⟨k, hk⟩ := ih h'
    exact ⟨k, .stay hs hk⟩
  | up _ ih =>
    obtain ⟨k, hk⟩ := ih h'
    exact ⟨k, .up hk⟩
  | down hn hg he _ ih =>
    obtain ⟨k, hk⟩ := ih h'
    exact ⟨k, .down hn hg he hk⟩
  | jump hn hg hmid _ _ ih =>
    obtain ⟨k, hk⟩ := ih h'
    exact ⟨_, .jump hn hg hmid hk⟩

theorem Leads.stay_inv {root : Entry} {here rest q : List String} {part : String} {n : Nat}
    (hs : part = "" ∨ part = ".") (h : Leads root here (part :: rest) q n) : Leads root here rest q n := by
  cases h with
  | stay _ h => exact h
  | up _ => exact absurd hs (by decide)
  | down hn _ _ _ => exact absurd hn (not_isName_of_stay hs)
  | jump hn _ _ _ => exact absurd hn (not_isName_of_stay hs)

/-- Before the last part of a path comes a directory, from which the part leads on. -/
theorem place_join_part {parts : List String} (hparts : ∀ part ∈ parts, Path.IsPart part) {name : String}
    (hname : Path.IsPart name) {q : List String} (h : fs.place (Path.join (Path.ofParts parts) name) = .ok q) :
    ∃ p n, fs.place (Path.ofParts parts) = .ok p ∧ fs.place (Path.join (Path.ofParts parts) "") = .ok p ∧
      Leads fs.root p [name] q n := by
  have hne := Path.ofParts_ne_empty
  have hstart : ∀ parts, fs.start (Path.ofParts parts) = [] := fun parts => if_pos (Path.isAbsolute_ofParts parts)
  obtain ⟨⟨items, htop⟩, _⟩ := place_entry h
  rw [Path.join_ofParts hparts hname] at h
  cases parts with
  | nil =>
    have hplace : fs.place (Path.ofParts []) = .ok [] :=
      place_ofParts htop (List.forall_mem_nil _) rfl (by rw [htop]; rfl)
    rw [place, if_neg (hne _), hstart, List.nil_append, Path.segments_ofParts (by simpa using hname) (by simp)] at h
    obtain ⟨n, hleads⟩ := follow_leads h
    refine ⟨[], n, hplace, ?_, ?_⟩
    · rw [Path.ofParts_nil] at hplace ⊢
      exact hplace
    · exact hleads.stay_inv (.inl rfl)
  | cons part parts =>
    have hseg : Path.segments (Path.ofParts (part :: parts ++ [name])) =
        Path.segments (Path.ofParts (part :: parts)) ++ [name] := by
      rw [Path.ofParts_concat (by simp), Path.segments_append, Path.segments_of_isPart hname]
    rw [place, if_neg (hne _), hstart, hseg] at h
    obtain ⟨mid, hmid, hslash⟩ := follow_slash h
    obtain ⟨n, hleads⟩ := follow_leads h
    obtain ⟨mid', k, m, hfront, hlast, _⟩ := hleads.append_inv rfl
    obtain ⟨k', hmid'⟩ := follow_leads hmid
    obtain ⟨rfl, _⟩ := hfront.unique hmid'
    refine ⟨mid', m, ?_, ?_, hlast⟩
    · rw [place, if_neg (hne _), hstart, hmid]
    · rw [Path.join_of_not_endsIn (by decide) (hne _) (Path.endsIn_ofParts hparts (by simp)), String.append_empty,
        place, if_neg (fun h => hne _ (String.append_eq_empty_iff.1 h).1), start, Path.isAbsolute_append (hne _),
        ← start, hstart, Path.segments_slash, hslash]

/-! ## Trees without links -/

def NoLinks (root : Entry) : Prop := ∀ p target, root.get? p ≠ some (.link target)

theorem noLinks_of_links {root : Entry} (h : root.links = 0) : NoLinks root := by
  intro p target hg
  have hmem : p ∈ root.placesOf Entry.isLink := Entry.mem_placesOf hg rfl
  rw [← Entry.length_placesOf_isLink, List.length_eq_zero_iff] at h
  rw [h] at hmem
  cases hmem

section

variable {root : Entry} (hno : NoLinks root)
include hno

theorem followTo_append {jump : List String → List String → Except Fault (List String)} (xs ys : List String) :
    ∀ here, followTo root false jump here (xs ++ ys) =
      followTo root false jump here xs >>= fun mid => followTo root false jump mid ys := by
  induction xs with
  | nil => exact fun here => rfl
  | cons part rest ih =>
    intro here
    rw [List.cons_append, followTo, followTo]
    split
    · rename_i items hdir
      split
      · exact ih here
      · split
        · exact ih here.dropLast
        · split
          · rename_i target hlink
            refine absurd ?_ (hno (here ++ [part]) target)
            rw [Entry.get?_append_singleton, hdir]
            exact hlink
          · exact ih (here ++ [part])
          · rfl
    · rfl
    · rfl

theorem follow_append (limit : Nat) (here xs ys : List String) :
    follow root false limit here (xs ++ ys) =
      follow root false limit here xs >>= fun mid => follow root false limit mid ys := by
  cases limit <;> exact followTo_append hno xs ys here

end

section

variable (hno : NoLinks fs.root) {path name : String}
include hno

theorem follow_stay (limit : Nat) (here : List String) {stay : String} (hs : stay = "" ∨ stay = ".")
    {todo : List String} (hne : todo ≠ []) :
    (follow fs.root false limit here [stay] >>= fun mid => follow fs.root false limit mid todo) =
      follow fs.root false limit here todo := by
  obtain ⟨part, rest, rfl⟩ := List.exists_cons_of_ne_nil hne
  rw [← follow_append hno]
  have hstay : ∀ jump, followTo fs.root false jump here ([stay] ++ part :: rest) =
      followTo fs.root false jump here (part :: rest) := by
    intro jump
    rw [List.singleton_append, followTo]
    split
    · exact if_pos (by simpa using hs)
    · rename_i e hnot hother
      rw [followTo, hother]
      cases e with
      | dir items => exact absurd rfl (hnot items)
      | _ => rfl
    · rename_i hnone
      rw [followTo, hnone]
  cases limit <;> exact hstay _

/-- A relative name leads on from the place of the path to which it is joined. -/
theorem place_join (hne : path ≠ "") (hname : Path.isAbsolute name = false) :
    fs.place (Path.join path name) =
      fs.place path >>= fun parts => follow fs.root false linkLimit parts (Path.segments name) := by
  have hplace : ∀ more, fs.place (path ++ more) =
      follow fs.root false linkLimit (fs.start path) (Path.segments (path ++ more)) := by
    intro more
    rw [place, if_neg fun h => hne (String.append_eq_empty_iff.1 h).1, start, start, Path.isAbsolute_append hne]
  rcases Path.join_cases hname path with ⟨rfl, _⟩ | ⟨front, rfl, hj⟩ | ⟨_, _, hj⟩
  · exact absurd rfl hne
  · -- the empty text after the last slash asks for a directory and stays there
    rw [hj, hplace, Path.segments_append, follow_append hno, place, if_neg hne, Path.segments_slash,
      follow_append hno, bind_assoc]
    refine bind_congr fun mid => ?_
    rw [follow_stay hno _ _ (.inl rfl) (Path.segments_ne_nil name)]
  · rw [hj, String.append_assoc, hplace, ← String.append_assoc, Path.segments_append, follow_append hno, place,
      if_neg hne]

theorem place_join_congr {path' : String} (hne : path ≠ "") (hne' : path' ≠ "") (h : fs.place path = fs.place path')
    (name : String) : fs.place (Path.join path name) = fs.place (Path.join path' name) := by
  cases hname : Path.isAbsolute name with
  | true => rw [Path.join_of_absolute hname, Path.join_of_absolute hname]
  | false => rw [place_join hno hne hname, place_join hno hne' hname, h]

/-- What has an entry below it exists and is a directory. -/
theorem place_join_inv {q : List String} (hne : path ≠ "") (hname : IsEntryName name)
    (h : fs.place (Path.join path name) = .ok q) :
    ∃ parts items, fs.place path = .ok parts ∧ fs.root.get? parts = some (.dir items) ∧ q = parts ++ [name] := by
  rw [place_join hno hne hname.isPart.not_absolute, Path.segments_of_isPart hname.isPart] at h
  obtain ⟨parts, hparts, hq⟩ := except_bind_inv h
  obtain ⟨n, hleads⟩ := follow_leads hq
  cases hleads with
  | stay hs _ => exact absurd hname.1 (not_isName_of_stay hs)
  | up _ => exact absurd rfl hname.1.2.2
  | down _ hg _ hrest =>
    cases hrest
    obtain ⟨items, hitems, _⟩ := Entry.dir_of_get?_concat hg
    exact ⟨parts, items, hparts, hitems, rfl⟩
  | jump _ hlink _ _ => exact absurd hlink (hno _ _)

end

end FileSystem

end ImportAtlas
