import ImportAtlas.Proofs.Places
import ImportAtlas.Sources

/-!
# Visited places

A walk goes down the directories of one entry, and the paths of its visits tell the way. If the walk starts at a real
path, then every directory that it visits has a real path too, and so has every file that it lists there, unless the
file is a link.
-/

namespace ImportAtlas.FileSystem

variable {fs : FileSystem} {keep : String → List String → List String}

/-- The visit is made in an entry whose parts are `top`, at the place `rest` below it. The files that it lists are
entries there that lead to no directory. -/
structure VisitedBelow (fs : FileSystem) (top : List String) (e : Entry) (v : Visit) (rest : List String) : Prop where
  dir : v.dir = Path.ofParts (top ++ rest)
  isDir : ∃ items, e.get? rest = some (.dir items)
  files : ∀ name ∈ v.files, ∃ f, e.get? (rest ++ [name]) = some f ∧
    fs.leadsToDir (Path.ofParts (top ++ rest ++ [name])) f = false

theorem VisitedBelow.cons {top rest : List String} {items : List (String × Entry)} {item : String × Entry} {v : Visit}
    (h : VisitedBelow fs (top ++ [item.1]) item.2 v rest) (hitem : items.lookup item.1 = some item.2) :
    VisitedBelow fs top (.dir items) v (item.1 :: rest) := by
  have htop : top ++ item.1 :: rest = top ++ [item.1] ++ rest := by simp
  have hget : ∀ p, (Entry.dir items).get? (item.1 :: p) = item.2.get? p := by
    intro p
    rw [Entry.get?, Entry.child?, hitem]
  refine ⟨by rw [htop, h.dir], ?_, ?_⟩
  · rw [hget]
    exact h.isDir
  · rw [htop]
    intro name hname
    rw [List.cons_append, hget]
    exact h.files name hname

mutual

theorem visits_below : ∀ (e : Entry) (p : List String), e.wellNamed = true → (∀ name ∈ p, Path.IsPart name) →
    ∀ v ∈ fs.visits keep (Path.ofParts p) e, ∃ rest, VisitedBelow fs p e v rest
  | .dir items, p, he, hp, v, hv => by
    rw [Entry.wellNamed, Bool.and_eq_true, decide_eq_true_eq, Entry.wellNamedIn_iff] at he
    obtain ⟨hnd, hitems⟩ := he
    have hlookup : ∀ item ∈ items, items.lookup item.1 = some item.2 := fun item hitem => Entry.lookup_of_mem hnd hitem
    rw [visits, List.partition_eq_filter_filter] at hv
    rcases List.mem_cons.1 hv with rfl | hv
    · refine ⟨[], by rw [List.append_nil], ⟨items, rfl⟩, fun name hname => ?_⟩
      obtain ⟨item, hitem, rfl⟩ := List.mem_map.1 hname
      obtain ⟨hmem, hleads⟩ := List.mem_filter.1 hitem
      refine ⟨item.2, ?_, ?_⟩
      · rw [List.nil_append, Entry.get?, Entry.child?, hlookup item hmem]
        rfl
      · rw [List.append_nil, ← Path.join_ofParts hp (hitems item hmem).1.isPart]
        simpa using hleads
    · obtain ⟨item, hitem, rest, hrest⟩ := visitsIn_below items p _ hitems hp v hv
      exact ⟨item.1 :: rest, hrest.cons (hlookup item hitem)⟩
  | .file _, _, _, _, _, hv => by cases hv
  | .archive _, _, _, _, _, hv => by cases hv
  | .link _, _, _, _, _, hv => by cases hv

theorem visitsIn_below : ∀ (items : List (String × Entry)) (p kept : List String),
    (∀ item ∈ items, IsEntryName item.1 ∧ item.2.wellNamed = true) → (∀ name ∈ p, Path.IsPart name) →
    ∀ v ∈ fs.visitsIn keep (Path.ofParts p) kept items,
      ∃ item ∈ items, ∃ rest, VisitedBelow fs (p ++ [item.1]) item.2 v rest
  | [], _, _, _, _, v, hv => by cases hv
  | (name, e) :: others, p, kept, h, hp, v, hv => by
    rw [visitsIn] at hv
    obtain ⟨⟨hname, he⟩, hothers⟩ := List.forall_mem_cons.1 h
    rcases List.mem_append.1 hv with hv | hv
    · split at hv
      · rw [Path.join_ofParts hp hname.isPart] at hv
        have hparts : ∀ part ∈ p ++ [name], Path.IsPart part :=
          List.forall_mem_append.2 ⟨hp, List.forall_mem_singleton.2 hname.isPart⟩
        obtain ⟨rest, hrest⟩ := visits_below e (p ++ [name]) he hparts v hv
        exact ⟨(name, e), List.mem_cons_self, rest, hrest⟩
      · cases hv
    · obtain ⟨item, hitem, rest, hrest⟩ := visitsIn_below others p kept hothers hp v hv
      exact ⟨item, List.mem_cons_of_mem _ hitem, rest, hrest⟩

end

theorem walk_below (hfs : fs.root.wellNamed = true) {p q : List String} (hp : ∀ name ∈ p, Path.IsPart name)
    (h : fs.place (Path.ofParts p) = .ok q) {v : Visit} (hv : v ∈ fs.walk keep (Path.ofParts p)) :
    ∃ e rest, fs.root.get? q = some e ∧ e.wellNamed = true ∧ VisitedBelow fs p e v rest := by
  obtain ⟨_, e, he, _⟩ := place_entry h
  have hnamed := (Entry.wellNamed_get? hfs he).1
  rw [walk, locate_of_place h he] at hv
  obtain ⟨rest, hrest⟩ := visits_below e p hnamed hp v hv
  exact ⟨e, rest, he, hnamed, hrest⟩

/-- A file that is found at or below a path is an entry of what the path leads to. -/
theorem pythonFilesAt_below (hfs : fs.root.wellNamed = true) {ignores p : List String} {path : String}
    (hp : ∀ name ∈ p, Path.IsPart name) (h : .file path ∈ fs.pythonFilesAt ignores (Path.ofParts p)) :
    ∃ q rest e, fs.place (Path.ofParts p) = .ok q ∧ path = Path.ofParts (p ++ rest) ∧
      (∀ name ∈ rest, Path.IsPart name) ∧ fs.root.get? (q ++ rest) = some e := by
  unfold pythonFilesAt at h
  split at h
  · simp at h
  · rename_i hexists
    obtain ⟨q, hq⟩ := exists?_iff.1 (by simpa using hexists)
    split at h
    · split at h
      · obtain ⟨_, e, he, _⟩ := place_entry hq
        refine ⟨q, [], e, hq, by simpa using h, List.forall_mem_nil _, by rwa [List.append_nil]⟩
      · cases h
    · obtain ⟨v, hv, h⟩ := List.mem_flatMap.1 h
      obtain ⟨_, hfile, hpath⟩ := List.mem_map.1 h
      cases hpath
      obtain ⟨name, hname, rfl⟩ := List.mem_map.1 (List.mem_filter.1 hfile).1
      obtain ⟨e, rest, he, hnamed, hvisit⟩ := walk_below hfs hp hq hv
      obtain ⟨f, hf, _⟩ := hvisit.files name hname
      have hnames := (Entry.wellNamed_get? hnamed hf).2
      have hrest : ∀ part ∈ rest, Path.IsPart part := fun part hpart =>
        (hnames part (List.mem_append_left _ hpart)).isPart
      refine ⟨q, rest ++ [name], f, hq, ?_, fun part hpart => (hnames part hpart).isPart, ?_⟩
      · rw [hvisit.dir, Path.join_ofParts (List.forall_mem_append.2 ⟨hp, hrest⟩) (hnames name (by simp)).isPart,
          List.append_assoc]
      · rw [Entry.get?_append, he]
        exact hf

end ImportAtlas.FileSystem
