import ImportAtlas.Proofs.TopDownWalks

/-!
# Sources below

The Python files of a directory are those that a walk meets, and the walk leaves out what lies behind links and behind
names that are passed over. A link to a file, a file under such a name and a directory that is itself given under such
a name are still met. So the files that are found below given paths are told by the way to each of them, and they are
listed in the order of the walk.
-/

namespace ImportAtlas

/-! ## The order of the files -/

namespace Entry

/-- The order in which a walk lists what is in the directories: from the top down, and as listed in each. -/
inductive WalkedBefore (e : Entry) : List String → List String → Prop
  | apart {p q : List String} (x y : String) : TopDown e p q → WalkedBefore e (p ++ [x]) (q ++ [y])
  | together {p : List String} {items : List (String × Entry)} {x y : String} :
    e.get? p = some (.dir items) → [x, y].Sublist (items.map (·.1)) → WalkedBefore e (p ++ [x]) (p ++ [y])

theorem WalkedBefore.ne {e : Entry} {p q : List String} (h : WalkedBefore e p q) (he : e.wellNamed = true) : p ≠ q := by
  cases h with
  | apart x y hdown => exact fun heq => hdown.ne he (List.append_inj_left' heq rfl)
  | together hget hlisted =>
    intro heq
    have hnodup := (nodup_of_wellNamed (wellNamed_get? he hget).1).sublist hlisted
    rw [(List.append_right_inj _).1 heq |> List.singleton_inj.1] at hnodup
    simp at hnodup

theorem allowed_iff_of_names {names : String → Bool} {top : String} {way : List String} :
    Allowed (fun _ name => names name) top way ↔ ∀ name ∈ way, names name = true := by
  induction way generalizing top with
  | nil => exact ⟨fun _ => List.forall_mem_nil _, fun _ => trivial⟩
  | cons name way ih => rw [Allowed, ih, List.forall_mem_cons]

end Entry

namespace FileSystem

variable {fs : FileSystem} {ignores : List String} {top : String}

/-! ## What is met -/

/-- The way leads to a Python file, through directories none of which is a link or has a name to pass over. -/
structure SourceBelow (fs : FileSystem) (ignores : List String) (top : String) (way : List String) : Prop where
  reached : ∃ e f, fs.locate top = .ok e ∧ e.get? way = some f
  noDir : fs.isDir (Path.under top way) = false
  named : ∀ name ∈ way.dropLast, name ∉ ignores
  isPython : fs.isPython (Path.under top way) = true

def sourcesIn (fs : FileSystem) (top : String) (way : List String) (items : List (String × Entry)) :
    List (List String) :=
  ((fs.fileNames (Path.under top way) items).filter fun name => fs.isPython (Path.join (Path.under top way) name)).map
    fun name => way ++ [name]

def sourceWays (fs : FileSystem) (ignores : List String) (top : String) (e : Entry) : List (List String) :=
  (e.entered (fun _ name => decide (name ∉ ignores)) top).flatMap fun p => fs.sourcesIn top p.1 p.2

theorem leadsToDir_eq (hfs : fs.root.wellNamed = true) {e f : Entry} (h : fs.locate top = .ok e) {way : List String}
    (hget : e.get? way = some f) : fs.leadsToDir (Path.under top way) f = fs.isDir (Path.under top way) := by
  cases f with
  | dir items => exact (isDir_under hfs h hget).symm
  | link target => rfl
  | _ =>
    unfold isDir
    rw [locate_under hfs h hget rfl]
    rfl

theorem mem_fileNames_iff (hfs : fs.root.wellNamed = true) {e : Entry} (h : fs.locate top = .ok e) {way : List String}
    {items : List (String × Entry)} (hget : e.get? way = some (.dir items)) {name : String} :
    name ∈ fs.fileNames (Path.under top way) items ↔
      (∃ f, e.get? (way ++ [name]) = some f) ∧ fs.isDir (Path.under top (way ++ [name])) = false := by
  have hnodup := Entry.nodup_of_wellNamed (Entry.wellNamed_get? (wellNamed_of_locate hfs h) hget).1
  have hchild : ∀ f, e.get? (way ++ [name]) = some f ↔ items.lookup name = some f := by
    intro f
    rw [Entry.get?_append_singleton, hget]
    rfl
  rw [fileNames, List.mem_map]
  constructor
  · rintro ⟨item, hitem, rfl⟩
    obtain ⟨hmem, hleads⟩ := List.mem_filter.1 hitem
    have hitem := (hchild item.2).2 (Entry.lookup_of_mem hnodup hmem)
    refine ⟨⟨item.2, hitem⟩, ?_⟩
    rw [← leadsToDir_eq hfs h hitem, Path.under_concat]
    simpa using hleads
  · rintro ⟨⟨f, hf⟩, hnot⟩
    refine ⟨(name, f), List.mem_filter.2 ⟨mem_of_lookup ((hchild f).1 hf), ?_⟩, rfl⟩
    rw [← leadsToDir_eq hfs h hf, Path.under_concat] at hnot
    simpa using hnot

theorem mem_sourceWays_iff (hfs : fs.root.wellNamed = true) {items : List (String × Entry)}
    (h : fs.locate top = .ok (.dir items)) {way : List String} :
    way ∈ fs.sourceWays ignores top (.dir items) ↔ SourceBelow fs ignores top way := by
  have hnamed := wellNamed_of_locate hfs h
  unfold sourceWays
  rw [List.mem_flatMap]
  constructor
  · rintro ⟨⟨front, own⟩, hentered, hway⟩
    obtain ⟨hget, hallowed⟩ := (Entry.mem_entered_iff hnamed).1 hentered
    obtain ⟨name, hname, rfl⟩ := List.mem_map.1 hway
    obtain ⟨hfile, hpython⟩ := List.mem_filter.1 hname
    obtain ⟨⟨f, hf⟩, hnot⟩ := (mem_fileNames_iff hfs h hget).1 hfile
    refine ⟨⟨_, f, h, hf⟩, hnot, ?_, ?_⟩
    · rw [List.dropLast_concat]
      exact fun name hname => of_decide_eq_true (Entry.allowed_iff_of_names.1 hallowed name hname)
    · rw [Path.under_concat]
      exact hpython
  · intro hsource
    obtain ⟨e, f, he, hf⟩ := hsource.reached
    cases h.symm.trans he
    rcases List.eq_nil_or_concat' way with rfl | ⟨front, name, rfl⟩
    · -- the directory itself is none of its files
      cases (isDir_under hfs h rfl).symm.trans hsource.noDir
    · have hallowed := hsource.named
      rw [List.dropLast_concat] at hallowed
      obtain ⟨own, hown, _⟩ := Entry.dir_of_get?_concat hf
      refine ⟨(front, own), (Entry.mem_entered_iff hnamed).2 ⟨hown, ?_⟩,
        List.mem_map.2 ⟨name, List.mem_filter.2 ⟨?_, ?_⟩, rfl⟩⟩
      · exact Entry.allowed_iff_of_names.2 fun name hname => decide_eq_true (hallowed name hname)
      · exact (mem_fileNames_iff hfs h hown).2 ⟨⟨f, hf⟩, hsource.noDir⟩
      · rw [← Path.under_concat]
        exact hsource.isPython

theorem pairwise_sourceWays {e : Entry} (he : e.wellNamed = true) :
    (fs.sourceWays ignores top e).Pairwise e.WalkedBefore := by
  unfold sourceWays
  rw [List.pairwise_flatMap]
  refine ⟨fun p hp => ?_, (Entry.pairwise_entered e top he).imp fun hdown x hx y hy => ?_⟩
  · have hget := ((Entry.mem_entered_iff he).1 hp).1
    have hlisted : ((fs.fileNames (Path.under top p.1) p.2).filter
        fun name => fs.isPython (Path.join (Path.under top p.1) name)).Sublist (p.2.map (·.1)) :=
      List.filter_sublist.trans (List.filter_sublist.map _)
    rw [sourcesIn, List.pairwise_map, List.pairwise_iff_forall_sublist]
    exact fun hpair => .together hget (hpair.trans hlisted)
  · obtain ⟨x, _, rfl⟩ := List.mem_map.1 hx
    obtain ⟨y, _, rfl⟩ := List.mem_map.1 hy
    exact .apart x y hdown

theorem pythonFilesAt_eq {items : List (String × Entry)} (hexists : fs.exists? top = true)
    (h : fs.locate top = .ok (.dir items)) :
    fs.pythonFilesAt ignores top = ((fs.sourceWays ignores top (.dir items)).map (Path.under top)).map .file := by
  have hdir : fs.isDir top = true := isDir_iff.2 ⟨items, h⟩
  have hkeep : ∀ (dir : String) dirs, unignored ignores dirs = dirs.filter fun name => decide (name ∉ ignores) :=
    fun _ _ => rfl
  unfold pythonFilesAt
  simp only [hexists, hdir, Bool.not_true, Bool.false_eq_true, if_false]
  rw [walk_eq hkeep h, sourceWays, List.flatMap_map, List.map_map, List.map_flatMap]
  refine List.flatMap_congr fun p _ => ?_
  rw [sourcesIn, List.map_map, List.filter_map, List.map_map]
  refine List.map_congr_left fun name _ => ?_
  exact congrArg Found.file (Path.under_concat top p.1 name).symm

/-- All Python files below a directory, each once and in the order of the walk. -/
structure AllBelow (fs : FileSystem) (ignores : List String) (top : String) (found : List String) : Prop where
  walked : ∃ (e : Entry) (ways : List (List String)), fs.locate top = .ok e ∧ found = ways.map (Path.under top) ∧
    ways.Pairwise e.WalkedBefore ∧ ∀ way, way ∈ ways ↔ SourceBelow fs ignores top way
  nodup : found.Nodup

theorem SourceBelow.isPart (hfs : fs.root.wellNamed = true) {way : List String} (h : SourceBelow fs ignores top way) :
    ∀ name ∈ way, Path.IsPart name := by
  obtain ⟨e, f, he, hget⟩ := h.reached
  exact Entry.isPart_of_get? (wellNamed_of_locate hfs he) hget

theorem allBelow_sourceWays (hfs : fs.root.wellNamed = true) {items : List (String × Entry)}
    (h : fs.locate top = .ok (.dir items)) :
    AllBelow fs ignores top ((fs.sourceWays ignores top (.dir items)).map (Path.under top)) := by
  have hnamed := wellNamed_of_locate hfs h
  have hmem : ∀ {way}, way ∈ fs.sourceWays ignores top (.dir items) ↔ SourceBelow fs ignores top way :=
    mem_sourceWays_iff hfs h
  have hordered : (fs.sourceWays ignores top (.dir items)).Pairwise (Entry.dir items).WalkedBefore :=
    pairwise_sourceWays hnamed
  refine ⟨⟨_, _, h, rfl, hordered, fun way => hmem⟩,
    List.Nodup.map_on ?_ (hordered.imp fun hbefore => hbefore.ne hnamed)⟩
  exact fun way hway way' hway' => Path.under_inj ((hmem.1 hway).isPart hfs) ((hmem.1 hway').isPart hfs)

/-! ## What is found -/

inductive FoundAt (fs : FileSystem) (ignores : List String) (path : String) : List String → Prop
  | alone : fs.isDir path = false → fs.isPython (fs.realPath path) = true → FoundAt fs ignores path [fs.realPath path]
  | nothing : fs.isDir path = false → fs.isPython (fs.realPath path) = false → FoundAt fs ignores path []
  | inside {found : List String} : fs.isDir path = true → AllBelow fs ignores (fs.realPath path) found →
    FoundAt fs ignores path found

theorem pythonFilesAt_found (hfs : fs.root.wellNamed = true) (ignores : List String) {path : String}
    (h : fs.exists? path = true) :
    ∃ found, FoundAt fs ignores path found ∧ fs.pythonFilesAt ignores (fs.realPath path) = found.map .file := by
  obtain ⟨q, hq⟩ := exists?_iff.1 h
  have hplace : fs.place (fs.realPath path) = fs.place path := (place_realPath hfs hq).trans hq.symm
  have hexists : fs.exists? (fs.realPath path) = true := (exists?_congr hplace).trans h
  have hsame : fs.isDir (fs.realPath path) = fs.isDir path := isDir_congr hplace
  cases hdir : fs.isDir path with
  | true =>
    obtain ⟨items, hitems⟩ := isDir_iff.1 (hsame.trans hdir)
    exact ⟨_, .inside hdir (allBelow_sourceWays hfs hitems), pythonFilesAt_eq hexists hitems⟩
  | false =>
    unfold pythonFilesAt
    rw [hexists, hsame, hdir]
    cases hpython : fs.isPython (fs.realPath path) with
    | true => exact ⟨_, .alone hdir hpython, rfl⟩
    | false => exact ⟨_, .nothing hdir hpython, rfl⟩

/-- **The Python files below the paths.** What is found is what is found for each path in turn: the file itself, if the
path leads to a Python file; else every Python file below the directory, once and in the order of the walk, that is
reached through directories none of which is a link or has a name to pass over. -/
theorem pythonFiles_below (hfs : fs.root.wellNamed = true) (ignores : List String) {paths : List String}
    (h : ∀ path ∈ paths, fs.exists? path = true) :
    ∃ founds, List.Forall₂ (FoundAt fs ignores) paths founds ∧
      fs.pythonFiles ignores paths = founds.flatten.map .file := by
  induction paths with
  | nil => exact ⟨[], .nil, rfl⟩
  | cons path paths ih =>
    obtain ⟨hpath, hpaths⟩ := List.forall_mem_cons.1 h
    obtain ⟨found, hfound, hat⟩ := pythonFilesAt_found hfs ignores hpath
    obtain ⟨founds, hfounds, hfiles⟩ := ih hpaths
    simp only [pythonFiles, Bool.false_eq_true, if_false] at hfiles ⊢
    refine ⟨found :: founds, .cons hfound hfounds, ?_⟩
    rw [List.flatMap_cons, hat, hfiles, List.flatten_cons, List.map_append]

end FileSystem

namespace SourcesBelow

-- a file may have a name that is passed over, and so may the directory that is given
def work : FileSystem where
  root := .dir [("w", .dir [("build", .dir [("sub", .dir [("c.py", .file (.plain ""))]),
    ("build", .file (.plain "#!/bin/python")), ("link", .link "sub"), ("a.py", .link "gone"),
    ("notes", .file (.plain ""))]),
    ("one.py", .file (.plain ""))])]
  cwd := "/w"

end SourcesBelow

theorem pythonFiles_below_work : ∃ founds,
    List.Forall₂ (FileSystem.FoundAt SourcesBelow.work ["build"]) ["build", "one.py"] founds ∧
      founds.flatten = ["/w/build/build", "/w/build/a.py", "/w/build/sub/c.py", "/w/one.py"] := by
  have hexist : ∀ path ∈ ["build", "one.py"], SourcesBelow.work.exists? path = true := by decide +kernel
  obtain ⟨founds, hfounds, hfiles⟩ := FileSystem.pythonFiles_below (by decide) ["build"] hexist
  refine ⟨founds, hfounds, ?_⟩
  have hlisted : SourcesBelow.work.pythonFiles ["build"] ["build", "one.py"] =
      ["/w/build/build", "/w/build/a.py", "/w/build/sub/c.py", "/w/one.py"].map .file := by decide +kernel
  exact List.map_injective_iff.2 (fun _ _ => FileSystem.Found.file.inj) (hfiles.symm.trans hlisted)

end ImportAtlas
