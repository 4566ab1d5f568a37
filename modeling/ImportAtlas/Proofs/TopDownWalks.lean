import ImportAtlas.Proofs.Walks

/-!
# Walks from the top down

A walk may be told at each directory which of those in it to enter. It then visits exactly the directories that are
reached through directories alone, each of them allowed by the one above, once and from the top down: a directory
before what is below it, and neighbours, with all that is below them, in the order in which they are listed.
-/

namespace ImportAtlas

namespace Path

def under (top : String) (way : List String) : String := way.foldl join top

theorem under_cons (top name : String) (way : List String) : under top (name :: way) = under (join top name) way := rfl

theorem under_append (top : String) (way more : List String) : under top (way ++ more) = under (under top way) more :=
  List.foldl_append

theorem under_concat (top : String) (way : List String) (name : String) :
    under top (way ++ [name]) = join (under top way) name :=
  under_append top way [name]

theorem join_slash {name : String} (h : IsPart name) (front : String) :
    join (front ++ "/") name = front ++ "/" ++ name := by
  rcases join_cases h.not_absolute (front ++ "/") with ⟨hempty, _⟩ | ⟨_, _, hj⟩ | ⟨_, hends, _⟩
  · exact absurd (String.append_eq_empty_iff.1 hempty).2 (by decide)
  · simp_all
  · rw [← Bool.not_eq_true] at hends
    exact absurd (Text.endsIn_iff.2 ⟨front.toList, by simp⟩) hends

theorem join_eq_append {name : String} (h : IsPart name) (top : String) : join top name = join top "" ++ name := by
  by_cases hempty : top = ""
  · subst hempty
    rcases join_cases h.not_absolute "" with ⟨_, hj⟩ | ⟨front, hfront, _⟩ | ⟨hne, _, _⟩
    · rw [hj]
      exact (String.empty_append).symm
    · exact absurd (String.append_eq_empty_iff.1 hfront.symm).2 (by decide)
    · exact absurd rfl hne
  · rw [← join_join_empty hempty h.not_absolute]
    rcases join_cases (by decide : isAbsolute "" = false) top with ⟨htop, _⟩ | ⟨front, _, hj⟩ | ⟨_, _, hj⟩
    · exact absurd htop hempty
    · rw [hj, String.append_empty]
      exact join_slash h front
    · rw [hj, String.append_empty]
      exact join_slash h top

theorem under_eq_append (top : String) {way : List String} (h : ∀ name ∈ way, IsPart name) (hne : way ≠ []) :
    under top way = join top "" ++ "/".intercalate way := by
  induction way generalizing top with
  | nil => exact absurd rfl hne
  | cons name way ih =>
    obtain ⟨hname, hway⟩ := List.forall_mem_cons.1 h
    rw [under_cons]
    cases way with
    | nil => rw [String.intercalate_singleton, ← join_eq_append hname]; rfl
    | cons next way =>
      have hnonempty : join top name ≠ "" := fun h0 =>
        hname.1 (String.append_eq_empty_iff.1 ((join_eq_append hname top).symm.trans h0)).2
      rw [ih (join top name) hway (by simp), String.intercalate_cons_cons,
        join_of_not_endsIn (by decide) hnonempty (endsIn_join hname top), String.append_empty, join_eq_append hname top]
      simp only [String.append_assoc]

theorem length_le_join_empty (top : String) : top.length ≤ (join top "").length := by
  rcases join_cases (by decide : isAbsolute "" = false) top with ⟨rfl, hj⟩ | ⟨front, rfl, hj⟩ | ⟨_, _, hj⟩
  · simp [hj]
  · simp [hj]
  · simp [hj]

/-- Different ways lead to different paths. -/
theorem under_inj {top : String} {way way' : List String} (h : ∀ name ∈ way, IsPart name)
    (h' : ∀ name ∈ way', IsPart name) (hsame : under top way = under top way') : way = way' := by
  have hlonger : ∀ way, (∀ name ∈ way, IsPart name) → way ≠ [] → top ≠ under top way := by
    intro way h hne htop
    have hlength := congrArg String.length (htop.trans (under_eq_append top h hne))
    have hslash := length_le_join_empty top
    rw [String.length_append] at hlength
    have hnothing : "/".intercalate way = "" := String.length_eq_zero_iff.1 (by omega)
    exact hne (ofParts_inj h (List.forall_mem_nil _) (by rw [ofParts, hnothing, ofParts_nil, String.append_empty]))
  by_cases hne : way = []
  · by_cases hne' : way' = []
    · rw [hne, hne']
    · subst hne
      exact absurd hsame (hlonger way' h' hne')
  · by_cases hne' : way' = []
    · subst hne'
      exact absurd hsame.symm (hlonger way h hne)
    · rw [under_eq_append top h hne, under_eq_append top h' hne'] at hsame
      have hparts := (String.append_right_inj _).1 hsame
      exact ofParts_inj h h' (by rw [ofParts, ofParts, hparts])

end Path

namespace FileSystem

/-! ## Paths that go on -/

section

variable {root e : Entry} {more : List String} (hnames : ∀ name ∈ more, IsName name) (he : e.isLink = false)
include hnames he

theorem followTo_onward {jump : List String → List String → Except Fault (List String)}
    (hjump : ∀ here xs q, jump here xs = .ok q → root.get? (q ++ more) = some e →
      jump here (xs ++ more) = .ok (q ++ more))
    {xs : List String} : ∀ {here q : List String}, followTo root false jump here xs = .ok q →
      root.get? (q ++ more) = some e → followTo root false jump here (xs ++ more) = .ok (q ++ more) := by
  induction xs with
  | nil =>
    intro here q h hg
    cases h
    have hdown : followTo root false jump here (more ++ []) = .ok (here ++ more) := followTo_of_get? hnames hg he []
    rwa [List.append_nil] at hdown
  | cons part xs ih =>
    intro here q h hg
    rw [followTo] at h
    rw [List.cons_append, followTo]
    split at h
    · split at h
      · rename_i hstay
        simp only [if_pos hstay]
        exact ih h hg
      · rename_i hstay
        simp only [if_neg hstay]
        split at h
        · rename_i hup
          simp only [if_pos hup]
          exact ih h hg
        · rename_i hup
          simp only [if_neg hup]
          split at h
          · rw [← List.append_assoc]
            exact hjump _ _ _ h hg
          · exact ih h hg
          · cases h
    · cases h
    · cases h

theorem follow_onward {limit : Nat} {here xs q : List String} (h : follow root false limit here xs = .ok q)
    (hg : root.get? (q ++ more) = some e) : follow root false limit here (xs ++ more) = .ok (q ++ more) := by
  induction limit generalizing here xs q with
  | zero => exact followTo_onward hnames he (fun _ _ _ h => by cases h) h hg
  | succ limit ih => exact followTo_onward hnames he (fun _ _ _ h hg => ih h hg) h hg

end

section

variable {fs : FileSystem} {q : List String} {e : Entry}

/-- A name leads on from a path, whatever links that led through. -/
theorem place_join_entry {path name : String} (h : fs.place path = .ok q) (hname : IsEntryName name)
    (hg : fs.root.get? (q ++ [name]) = some e) (he : e.isLink = false) :
    fs.place (Path.join path name) = .ok (q ++ [name]) := by
  have hne := ne_empty_of_place h
  have honward : ∀ {xs}, follow fs.root false linkLimit (fs.start path) xs = .ok q →
      follow fs.root false linkLimit (fs.start path) (xs ++ [name]) = .ok (q ++ [name]) := fun hxs =>
    follow_onward (List.forall_mem_singleton.2 hname.1) he hxs hg
  have hplace : ∀ more, fs.place (path ++ more) =
      follow fs.root false linkLimit (fs.start path) (Path.segments (path ++ more)) := by
    intro more
    rw [place, if_neg fun h => hne (String.append_eq_empty_iff.1 h).1, start, start, Path.isAbsolute_append hne]
  rw [place, if_neg hne] at h
  rcases Path.join_cases hname.isPart.not_absolute path with ⟨hempty, _⟩ | ⟨front, rfl, hj⟩ | ⟨_, _, hj⟩
  · exact absurd hempty hne
  · -- the slash at the end asks for the directory that the rest of the path leads to
    rw [Path.segments_slash] at h
    obtain ⟨mid, hmid, hslash⟩ := follow_slash h
    cases hslash.symm.trans h
    rw [hj, hplace, Path.segments_append, Path.segments_of_isPart hname.isPart]
    exact honward hmid
  · rw [hj, String.append_assoc, hplace, ← String.append_assoc, Path.segments_append,
      Path.segments_of_isPart hname.isPart]
    exact honward h

theorem place_under (hfs : fs.root.wellNamed = true) {top : String} (h : fs.place top = .ok q) {way : List String}
    (hg : fs.root.get? (q ++ way) = some e) (he : e.isLink = false) :
    fs.place (Path.under top way) = .ok (q ++ way) := by
  induction way generalizing top q with
  | nil =>
    rw [List.append_nil]
    exact h
  | cons name way ih =>
    have hsplit : q ++ name :: way = q ++ [name] ++ way := by simp
    rw [hsplit] at hg ⊢
    obtain ⟨f, hf, hfe⟩ := Option.bind_eq_some_iff.1 ((Entry.get?_append fs.root (q ++ [name]) way).symm.trans hg)
    have hname := (Entry.wellNamed_get? hfs hf).2 name (by simp)
    exact ih (place_join_entry h hname hf (Entry.isLink_of_get? hfe he)) hg

theorem isDir_iff {dir : String} : fs.isDir dir = true ↔ ∃ items, fs.locate dir = .ok (.dir items) := by
  unfold isDir
  split
  · rename_i items hitems
    exact iff_of_true rfl ⟨items, hitems⟩
  · rename_i hother
    exact iff_of_false Bool.false_ne_true fun hdir => hdir.elim hother

theorem wellNamed_of_locate (hfs : fs.root.wellNamed = true) {path : String} {e : Entry} (h : fs.locate path = .ok e) :
    e.wellNamed = true := by
  obtain ⟨parts, _, hget⟩ := place_of_locate h
  exact (Entry.wellNamed_get? hfs hget).1

theorem locate_under (hfs : fs.root.wellNamed = true) {top : String} {e f : Entry} (h : fs.locate top = .ok e)
    {way : List String} (hget : e.get? way = some f) (hf : f.isLink = false) :
    fs.locate (Path.under top way) = .ok f := by
  obtain ⟨q, hq, he⟩ := place_of_locate h
  have hdown : fs.root.get? (q ++ way) = some f := by rw [Entry.get?_append, he]; exact hget
  exact locate_of_place (place_under hfs hq hdown hf) hdown

theorem isDir_under (hfs : fs.root.wellNamed = true) {top : String} {e : Entry} (h : fs.locate top = .ok e)
    {way : List String} {items : List (String × Entry)} (hget : e.get? way = some (.dir items)) :
    fs.isDir (Path.under top way) = true :=
  isDir_iff.2 ⟨items, locate_under hfs h hget rfl⟩

end

end FileSystem

/-! ## Directories that are entered -/

namespace Entry

/-- From the top down: a directory comes before those below it, and neighbours, with all below them, in the order in
which they are listed. -/
inductive TopDown : Entry → List String → List String → Prop
  | inside (e : Entry) (name : String) (way : List String) : TopDown e [] (name :: way)
  | beside {items : List (String × Entry)} {x y : String} (p q : List String) :
    [x, y].Sublist (items.map (·.1)) → TopDown (.dir items) (x :: p) (y :: q)
  | within {items : List (String × Entry)} {name : String} {e : Entry} {p q : List String} :
    items.lookup name = some e → TopDown e p q → TopDown (.dir items) (name :: p) (name :: q)

theorem nodup_of_wellNamed {items : List (String × Entry)} (h : (dir items).wellNamed = true) :
    (items.map (·.1)).Nodup := by
  rw [wellNamed, Bool.and_eq_true] at h
  exact of_decide_eq_true h.1

theorem isPart_of_get? {e f : Entry} (he : e.wellNamed = true) {way : List String} (hget : e.get? way = some f) :
    ∀ name ∈ way, Path.IsPart name :=
  fun name hname => ((wellNamed_get? he hget).2 name hname).isPart

theorem TopDown.ne {e : Entry} {p q : List String} (h : TopDown e p q) (he : e.wellNamed = true) : p ≠ q := by
  induction h with
  | inside e name way => exact fun h => by cases h
  | beside p q hlisted =>
    intro h
    have hnodup := (nodup_of_wellNamed he).sublist hlisted
    rw [(List.cons.inj h).1] at hnodup
    simp at hnodup
  | within hlookup _ ih =>
    intro h
    exact ih (wellNamed_get? (p := [_]) he (by rw [get?, child?, hlookup]; rfl)).1 (List.cons.inj h).2

def Allowed (allows : String → String → Bool) : String → List String → Prop
  | _, [] => True
  | top, name :: way => allows top name = true ∧ Allowed allows (Path.join top name) way

mutual

def entered (allows : String → String → Bool) (top : String) : Entry → List (List String × List (String × Entry))
  | dir items => ([], items) :: enteredIn allows top items
  | _ => []

def enteredIn (allows : String → String → Bool) (top : String) :
    List (String × Entry) → List (List String × List (String × Entry))
  | [] => []
  | (name, e) :: rest =>
    (if allows top name then (entered allows (Path.join top name) e).map fun p => (name :: p.1, p.2) else []) ++
      enteredIn allows top rest

end

variable {allows : String → String → Bool}

theorem mem_enteredIn_iff {top : String} {items : List (String × Entry)} {p : List String × List (String × Entry)} :
    p ∈ enteredIn allows top items ↔ ∃ name e rest, p.1 = name :: rest ∧ (name, e) ∈ items ∧ allows top name = true ∧
      (rest, p.2) ∈ e.entered allows (Path.join top name) := by
  induction items with
  | nil => simp [enteredIn]
  | cons item items ih =>
    obtain ⟨name, e⟩ := item
    rw [enteredIn, List.mem_append, ih]
    constructor
    · rintro (hp | ⟨name', e', rest, hway, hmem, hrest⟩)
      · split at hp
        · rename_i hallowed
          obtain ⟨⟨rest, inner⟩, hinner, rfl⟩ := List.mem_map.1 hp
          exact ⟨name, e, rest, rfl, List.mem_cons_self, hallowed, hinner⟩
        · cases hp
      · exact ⟨name', e', rest, hway, List.mem_cons_of_mem _ hmem, hrest⟩
    · rintro ⟨name', e', rest, hway, hmem, hallowed, hrest⟩
      rcases List.mem_cons.1 hmem with heq | hmem
      · cases heq
        rw [if_pos hallowed]
        exact .inl (List.mem_map.2 ⟨_, hrest, by rw [← hway]⟩)
      · exact .inr ⟨name', e', rest, hway, hmem, hallowed, hrest⟩

/-- **Entered directories.** Those that are reached through directories alone, each allowed by the one above. -/
theorem mem_entered_iff {top : String} {e : Entry} (he : e.wellNamed = true) {way : List String}
    {items : List (String × Entry)} :
    (way, items) ∈ e.entered allows top ↔ e.get? way = some (.dir items) ∧ Allowed allows top way := by
  induction way generalizing e top with
  | nil =>
    cases e with
    | dir own =>
      rw [entered, List.mem_cons, mem_enteredIn_iff]
      constructor
      · rintro (heq | ⟨_, _, _, hway, _⟩)
        · cases heq
          exact ⟨rfl, trivial⟩
        · cases hway
      · rintro ⟨hget, _⟩
        cases hget
        exact .inl rfl
    | _ => simp [entered, get?]
  | cons name way ih =>
    cases e with
    | dir own =>
      have hnodup := nodup_of_wellNamed he
      rw [entered, List.mem_cons, mem_enteredIn_iff, get?, child?, Allowed]
      constructor
      · rintro (heq | ⟨name', e, rest, hway, hmem, hallowed, hrest⟩)
        · cases heq
        · cases hway
          have hlookup := lookup_of_mem hnodup hmem
          have hnamed := (wellNamedIn_iff.1 (Bool.and_eq_true_iff.1 he).2 _ hmem).2
          rw [hlookup]
          obtain ⟨hget, hbelow⟩ := (ih hnamed).1 hrest
          exact ⟨hget, hallowed, hbelow⟩
      · rintro ⟨hget, hallowed, hbelow⟩
        cases hlookup : own.lookup name with
        | none => rw [hlookup] at hget; cases hget
        | some e =>
          rw [hlookup] at hget
          have hmem := mem_of_lookup hlookup
          have hnamed := (wellNamedIn_iff.1 (Bool.and_eq_true_iff.1 he).2 _ hmem).2
          exact .inr ⟨name, e, way, rfl, hmem, hallowed, (ih hnamed).2 ⟨hget, hbelow⟩⟩
    | _ => simp [entered, get?, child?]

mutual

theorem pairwise_entered : ∀ (e : Entry) (top : String), e.wellNamed = true →
    (e.entered allows top).Pairwise fun p q => TopDown e p.1 q.1
  | .dir items, top, he => by
    have hitems := wellNamedIn_iff.1 (Bool.and_eq_true_iff.1 he).2
    rw [entered, List.pairwise_cons]
    refine ⟨fun p hp => ?_, pairwise_enteredIn items items top (fun item hitem => ?_) (List.Sublist.refl _)⟩
    · obtain ⟨name, _, rest, hway, _⟩ := mem_enteredIn_iff.1 hp
      rw [hway]
      exact .inside _ name rest
    · exact ⟨lookup_of_mem (nodup_of_wellNamed he) hitem, (hitems item hitem).2⟩
  | .file _, _, _ => .nil
  | .archive _, _, _ => .nil
  | .link _, _, _ => .nil

theorem pairwise_enteredIn : ∀ (items all : List (String × Entry)) (top : String),
    (∀ item ∈ items, all.lookup item.1 = some item.2 ∧ item.2.wellNamed = true) →
    (items.map (·.1)).Sublist (all.map (·.1)) →
    (enteredIn allows top items).Pairwise fun p q => TopDown (.dir all) p.1 q.1
  | [], _, _, _, _ => .nil
  | (name, e) :: rest, all, top, hitems, hlisted => by
    obtain ⟨⟨hlookup, hnamed⟩, hrest⟩ := List.forall_mem_cons.1 hitems
    have hothers : (rest.map (·.1)).Sublist (all.map (·.1)) := (List.sublist_cons_self _ _).trans hlisted
    rw [enteredIn, List.pairwise_append]
    refine ⟨?_, pairwise_enteredIn rest all top hrest hothers, fun p hp q hq => ?_⟩
    · split
      · rw [List.pairwise_map]
        exact (pairwise_entered e (Path.join top name) hnamed).imp fun h => .within hlookup h
      · exact .nil
    · obtain ⟨other, e', rest', hway, hmem, _⟩ := mem_enteredIn_iff.1 hq
      split at hp
      · obtain ⟨p', _, rfl⟩ := List.mem_map.1 hp
        rw [hway]
        refine .beside _ _ (List.Sublist.trans ?_ hlisted)
        exact List.Sublist.cons_cons name (List.singleton_sublist.2 (List.mem_map.2 ⟨_, hmem, rfl⟩))
      · cases hp

end

theorem nodup_entered {e : Entry} (he : e.wellNamed = true) (top : String) :
    ((e.entered allows top).map (·.1)).Nodup := by
  rw [List.Nodup, List.pairwise_map]
  exact (pairwise_entered e top he).imp fun h => h.ne he

theorem nodup_under {e : Entry} (he : e.wellNamed = true) (top : String) :
    ((e.entered allows top).map fun p => Path.under top p.1).Nodup := by
  have hparts : ∀ way ∈ (e.entered allows top).map (·.1), ∀ name ∈ way, Path.IsPart name := by
    intro way hway
    obtain ⟨p, hp, rfl⟩ := List.mem_map.1 hway
    exact isPart_of_get? he ((mem_entered_iff he).1 hp).1
  have hinj := (nodup_entered he top).map_on (f := Path.under top)
    fun way hway way' hway' => Path.under_inj (hparts way hway) (hparts way' hway')
  rwa [List.map_map] at hinj

end Entry

/-! ## Visits -/

namespace FileSystem

variable {fs : FileSystem} {allows : String → String → Bool}

def fileNames (fs : FileSystem) (dir : String) (items : List (String × Entry)) : List String :=
  (items.filter fun item => !fs.leadsToDir (Path.join dir item.1) item.2).map (·.1)

def visitOf (fs : FileSystem) (dir : String) (items : List (String × Entry)) : Visit where
  dir := dir
  dirs := (items.filter fun item => fs.leadsToDir (Path.join dir item.1) item.2).map (·.1)
  files := fs.fileNames dir items

mutual

theorem visits_eq : ∀ (e : Entry) (top : String),
    fs.visits (fun dir dirs => dirs.filter (allows dir)) top e =
      (e.entered allows top).map fun p => fs.visitOf (Path.under top p.1) p.2
  | .dir items, top => by
    rw [visits, List.partition_eq_filter_filter, Entry.entered, List.map_cons]
    refine congrArg₂ List.cons rfl (visitsIn_eq items top _ fun item hitem hdir => ?_)
    -- a directory is among those from which the walk chooses
    obtain ⟨own, hown⟩ := hdir
    have hlisted : item.1 ∈ (items.filter fun item => fs.leadsToDir (Path.join top item.1) item.2).map (·.1) :=
      List.mem_map.2 ⟨item, List.mem_filter.2 ⟨hitem, by rw [hown]; rfl⟩, rfl⟩
    rw [List.mem_filter]
    exact and_iff_right hlisted
  | .file _, _ => rfl
  | .archive _, _ => rfl
  | .link _, _ => rfl

theorem visitsIn_eq : ∀ (items : List (String × Entry)) (top : String) (kept : List String),
    (∀ item ∈ items, (∃ own, item.2 = .dir own) → (item.1 ∈ kept ↔ allows top item.1 = true)) →
    fs.visitsIn (fun dir dirs => dirs.filter (allows dir)) top kept items =
      (Entry.enteredIn allows top items).map fun p => fs.visitOf (Path.under top p.1) p.2
  | [], _, _, _ => rfl
  | (name, e) :: rest, top, kept, h => by
    obtain ⟨hname, hrest⟩ := List.forall_mem_cons.1 h
    rw [visitsIn, Entry.enteredIn, List.map_append, visitsIn_eq rest top kept hrest]
    refine congrArg (· ++ _) ?_
    cases e with
    | dir own =>
      have hkept := hname ⟨own, rfl⟩
      by_cases hallowed : allows top name = true
      · rw [if_pos (hkept.2 hallowed), if_pos hallowed, visits_eq (.dir own) (Path.join top name), List.map_map]
        rfl
      · rw [if_neg (mt hkept.1 hallowed), if_neg hallowed]
        rfl
    | _ => simp [visits, Entry.entered]

end

theorem walk_eq {keep : String → List String → List String}
    (hkeep : ∀ dir dirs, keep dir dirs = dirs.filter (allows dir)) {top : String} {e : Entry}
    (h : fs.locate top = .ok e) :
    fs.walk keep top = (e.entered allows top).map fun p => fs.visitOf (Path.under top p.1) p.2 := by
  rw [walk, h, show keep = fun dir dirs => dirs.filter (allows dir) from funext₂ hkeep]
  exact visits_eq e top

end FileSystem

end ImportAtlas
