import ImportAtlas.Proofs.Listings
import ImportAtlas.Proofs.PackageRoots

/-!
# Files that nodes name

The root of a node is found from the real path of a file, and its name is cut out of the path itself, by the length of
the root. So a node names its file if the path is real, unless the root is the top directory, whose path ends in a
slash already. Paths that come from imports are real. Paths that come from walks are real up to the last part, which
may be a link.
-/

namespace ImportAtlas

namespace FileSystem

variable {fs : FileSystem} {ignores : Ignores} {parts : List String} {path root name : String}

/-! ## Roots lie above -/

theorem leavePackages_prefix {fuel : Nat} {top : String} (hparts : ∀ name ∈ parts, Path.IsPart name)
    (h : fs.leavePackages fuel (Path.ofParts parts) = .ok top) :
    ∃ front, front <+: parts ∧ top = Path.ofParts front := by
  induction fuel generalizing parts with
  | zero => cases h
  | succ fuel ih =>
    rw [leavePackages] at h
    split at h
    · cases h
      exact ⟨parts, List.prefix_refl parts, rfl⟩
    · rw [if_neg (Path.ofParts_ne_empty parts), Path.parent_ofParts hparts] at h
      obtain ⟨front, hfront, htop⟩ := ih (fun name hname => hparts name (List.mem_of_mem_dropLast hname)) h
      exact ⟨front, hfront.trans (List.dropLast_prefix parts), htop⟩

theorem packageRoot_inv (h : fs.packageRoot ignores path = .ok (some root)) :
    (∃ fuel, fs.leavePackages fuel (if fs.isDir path then path else Path.parent path) = .ok root) ∧
      fs.isPackageRoot ignores root = .ok true := by
  unfold packageRoot at h
  obtain ⟨top, htop, h⟩ := except_bind_inv h
  split at h
  · cases h
  · obtain ⟨isRoot, hroot, h⟩ := except_bind_inv h
    cases isRoot with
    | false => cases h
    | true =>
      cases h
      exact ⟨⟨_, htop⟩, hroot⟩

theorem packageRoot_prefix (hparts : ∀ name ∈ parts, Path.IsPart name)
    (h : fs.packageRoot ignores (Path.ofParts parts) = .ok (some root)) :
    ∃ front, front <+: parts ∧ root = Path.ofParts front := by
  obtain ⟨⟨fuel, hup⟩, _⟩ := packageRoot_inv h
  split at hup
  · exact leavePackages_prefix hparts hup
  · rw [Path.parent_ofParts hparts] at hup
    obtain ⟨front, hfront, hroot⟩ :=
      leavePackages_prefix (fun name hname => hparts name (List.mem_of_mem_dropLast hname)) hup
    exact ⟨front, hfront.trans (List.dropLast_prefix parts), hroot⟩

theorem exists_slash_of_isPackageRoot (hfs : fs.root.wellNamed = true) (hparts : ∀ name ∈ parts, Path.IsPart name)
    (h : fs.isPackageRoot ignores (Path.ofParts parts) = .ok true) :
    fs.exists? (Path.join (Path.ofParts parts) "") = true := by
  -- a root holds a directory, whose path leads through the slash
  obtain ⟨name, hname, hdir⟩ := isPackageRoot_child hfs h
  obtain ⟨q, hq⟩ := place_of_isDir hdir
  obtain ⟨p, _, _, hslash, _⟩ := place_join_part hparts hname.isPart hq
  exact exists?_iff.2 ⟨p, hslash⟩

/-! ## Names of paths -/

/-- The name is cut out of a path that neither is the root nor lies in it. The root is that of the place to which the
path leads. -/
structure Askew (fs : FileSystem) (ignores : Ignores) (path root name : String) : Prop where
  rooted : fs.packageRoot ignores (fs.realPath path) = .ok (some root)
  outside : Text.beginsWith path (root ++ "/") = false
  ne : path ≠ root
  cut : name = Text.dropFirst path (root.length + 1)

theorem relativeTo_inv (h : fs.relativeTo ignores path = .ok (root, name)) :
    root = Path.parent path ∧ name = Path.base path ∨
      fs.packageRoot ignores (fs.realPath path) = .ok (some root) ∧ name = Text.dropFirst path (root.length + 1) := by
  unfold relativeTo at h
  obtain ⟨found, hfound, h⟩ := except_bind_inv h
  cases found with
  | none =>
    obtain ⟨rfl, rfl⟩ := Prod.mk.inj (Except.ok.inj h)
    exact .inl ⟨rfl, rfl⟩
  | some top =>
    obtain ⟨rfl, rfl⟩ := Prod.mk.inj (Except.ok.inj h)
    exact .inr ⟨hfound, rfl⟩

theorem relativeTo_cases (hfs : fs.root.wellNamed = true) (hparts : ∀ name ∈ parts, Path.IsPart name)
    (h : fs.relativeTo ignores (Path.ofParts parts) = .ok (root, name)) :
    Path.join root name = Path.ofParts parts ∨ fs.exists? (Path.join root name) = true ∨
      Askew fs ignores (Path.ofParts parts) root name := by
  rcases relativeTo_inv h with ⟨rfl, rfl⟩ | ⟨hroot, hname⟩
  · exact .inl (Path.join_parent_base hparts)
  · obtain ⟨real, hreal, hrealParts⟩ := realPath_isPart fs (Path.ofParts parts)
    rw [hreal] at hroot
    obtain ⟨front, hfront, hfrontRoot⟩ := packageRoot_prefix hrealParts hroot
    by_cases hbegins : Text.beginsWith (Path.ofParts parts) (root ++ "/") = true
    · rw [hname, Path.join_dropFirst hparts hbegins (hfrontRoot ▸ Path.ofParts_ne_empty front)]
      exact .inl rfl
    · by_cases hself : Path.ofParts parts = root
      · refine .inr (.inl ?_)
        have hempty : name = "" := by
          rw [hname, hself, Text.dropFirst, List.drop_eq_nil_of_le (by simp [String.length_toList])]
        have hisRoot := (packageRoot_inv hroot).2
        rw [hfrontRoot] at hisRoot
        rw [hempty, hfrontRoot]
        exact exists_slash_of_isPackageRoot hfs (fun name hname => hrealParts name (hfront.subset hname)) hisRoot
      · exact .inr (.inr ⟨hreal ▸ hroot, by simpa using hbegins, hself, hname⟩)

/-- Only in the top directory is a real path cut askew. -/
theorem Askew.top (hparts : ∀ name ∈ parts, Path.IsPart name)
    (hreal : fs.realPath (Path.ofParts parts) = Path.ofParts parts)
    (h : Askew fs ignores (Path.ofParts parts) root name) : root = "/" := by
  have hroot := h.rooted
  rw [hreal] at hroot
  obtain ⟨front, hfront, rfl⟩ := packageRoot_prefix hparts hroot
  by_cases hempty : front = []
  · rw [hempty, Path.ofParts_nil]
  · have hproper : front ≠ parts := fun he => h.ne (he ▸ rfl)
    have hbegins := Path.beginsWith_ofParts hempty hfront hproper
    rw [h.outside] at hbegins
    cases hbegins

end FileSystem

namespace Tools

open FileSystem

/-! ## What a node can stand for -/

section

variable (known : Installation) (fs : FileSystem) (ignores paths : List String) (root name : String)

def Names : Prop :=
  fs.exists? (Path.join root name) = true ∨
    ∃ b ∈ known.builtinNames, Path.join root name = fs.realPath (Path.join known.libraryDir b)

structure Sound (path : String) : Prop where
  real : fs.realPath path = path
  stands : fs.exists? path = true ∨
    ∃ b ∈ known.builtinNames, path = fs.realPath (Path.join known.libraryDir b)

inductive Strays (file : String) : Prop
  /-- The file is a link that was met on a walk. -/
  | link (parts : List String) (target : String) : .file file ∈ fs.pythonFiles ignores paths →
    file = Path.ofParts parts → fs.root.get? parts = some (.link target) → Strays file
  /-- The links of a given path go round, so that its real path leads through links again. -/
  | round (path : String) : path ∈ paths → fs.realPath (fs.realPath path) ≠ fs.realPath path →
    .file file ∈ fs.pythonFilesAt ignores (fs.realPath path) → Strays file
  /-- Links lead away from where a built-in module is said to be. -/
  | builtin (b : String) : b ∈ known.builtinNames → file = fs.realPath (Path.join known.libraryDir b) →
    file ≠ Path.join known.libraryDir b → Strays file

def Placed (file : String) : Prop :=
  ∃ parts, file = Path.ofParts parts ∧ (∀ part ∈ parts, Path.IsPart part) ∧
    (Sound known fs (withoutInit file) ∨ Strays known fs ignores paths file)

/-- The node of a file does not name it: the name is cut askew, or it is that of a link that leads nowhere. -/
inductive Misnames (file : String) : Prop
  | top : Sound known fs (withoutInit file) → root = "/" → Askew fs (.names ignores) (withoutInit file) root name →
    Misnames file
  | askew : Strays known fs ignores paths file → Askew fs (.names ignores) (withoutInit file) root name → Misnames file
  | dangling : Strays known fs ignores paths file → Path.join root name = withoutInit file →
    fs.exists? (Path.join root name) = false → Misnames file

end

section

variable {known : Installation} {fs : FileSystem} {ignores paths parts : List String} {file root name : String}

theorem withoutInit_ofParts (hparts : ∀ part ∈ parts, Path.IsPart part) :
    ∃ front, front <+: parts ∧ withoutInit (Path.ofParts parts) = Path.ofParts front := by
  unfold withoutInit
  split
  · exact ⟨parts.dropLast, List.dropLast_prefix parts, Path.parent_ofParts hparts⟩
  · exact ⟨parts, List.prefix_refl parts, rfl⟩

variable (hfs : fs.root.wellNamed = true)
include hfs

theorem Placed.named (hplaced : Placed known fs ignores paths file)
    (h : fs.relativeTo (.names ignores) (withoutInit file) = .ok (root, name)) :
    Names known fs root name ∨ Misnames known fs ignores paths root name file := by
  obtain ⟨parts, rfl, hparts, hfile⟩ := hplaced
  obtain ⟨front, hfront, hpath⟩ := withoutInit_ofParts hparts
  have hfrontParts : ∀ part ∈ front, Path.IsPart part := fun part hpart => hparts part (hfront.subset hpart)
  rw [hpath] at h
  rcases relativeTo_cases hfs hfrontParts h with hjoin | hexists | haskew
  · cases hexists : fs.exists? (Path.join root name) with
    | true => exact .inl (.inl hexists)
    | false =>
      rcases hfile with hsound | hstrays
      · rw [hpath, ← hjoin] at hsound
        exact .inl hsound.stands
      · exact .inr (.dangling hstrays (by rw [hpath, hjoin]) hexists)
  · exact .inl (.inl hexists)
  · rw [← hpath] at haskew
    rcases hfile with hsound | hstrays
    · have hreal := hsound.real
      rw [hpath] at hreal haskew
      exact .inr (.top hsound (haskew.top hfrontParts hreal) (by rwa [hpath]))
    · exact .inr (.askew hstrays haskew)

/-! ## Where files come from -/

theorem sound_of_get? {items : List (String × Entry)} {e : Entry} (hroot : fs.root = .dir items)
    (hg : fs.root.get? parts = some e) (he : e.isLink = false) : Sound known fs (Path.ofParts parts) := by
  have hplace := place_ofParts hroot (Entry.wellNamed_get? hfs hg).2 hg he
  exact ⟨realPath_eq hplace, .inl (exists?_iff.2 ⟨parts, hplace⟩)⟩

theorem sound_withoutInit {items : List (String × Entry)} {e : Entry} (hroot : fs.root = .dir items)
    (hg : fs.root.get? parts = some e) (he : e.isLink = false) : Sound known fs (withoutInit (Path.ofParts parts)) := by
  unfold withoutInit
  split
  · rw [Path.parent_ofParts fun part hpart => ((Entry.wellNamed_get? hfs hg).2 part hpart).isPart]
    rcases Entry.get?_dropLast hg with rfl | ⟨items', hg'⟩
    · exact sound_of_get? hfs hroot hg he
    · exact sound_of_get? hfs hroot hg' rfl
  · exact sound_of_get? hfs hroot hg he

/-- Files that are given have real paths, up to a link at the end. -/
theorem placed_of_given (h : .file file ∈ fs.pythonFiles ignores paths) : Placed known fs ignores paths file := by
  obtain ⟨path, hpath, hfile⟩ := List.mem_flatMap.1 h
  obtain ⟨p, hp, hparts⟩ := realPath_isPart fs path
  have hbelow := hfile
  rw [hp] at hbelow
  obtain ⟨q, rest, e, hq, rfl, hrest, hg⟩ := pythonFilesAt_below hfs hparts hbelow
  refine ⟨p ++ rest, rfl, List.forall_mem_append.2 ⟨hparts, hrest⟩, ?_⟩
  obtain ⟨⟨items, hroot⟩, _⟩ := place_entry hq
  by_cases hreal : fs.realPath (fs.realPath path) = fs.realPath path
  · -- the file lies where its path says
    rw [hp, realPath_eq hq] at hreal
    have hqParts : ∀ part ∈ q, Path.IsPart part := fun part hpart => (isEntryName_of_place hfs hq part hpart).isPart
    obtain rfl : q = p := Path.ofParts_inj hqParts hparts hreal
    cases he : e.isLink with
    | false => exact .inl (sound_withoutInit hfs hroot hg he)
    | true =>
      cases e with
      | link target =>
        by_cases hinit : Path.base (Path.ofParts (q ++ rest)) = "__init__.py"
        · -- a package is named by its directory, which is no link
          rw [withoutInit, if_pos hinit, Path.parent_ofParts (List.forall_mem_append.2 ⟨hparts, hrest⟩)]
          rcases Entry.get?_dropLast hg with hnil | ⟨items', hg'⟩
          · rw [hnil, hroot] at hg
            cases hg
          · exact .inl (sound_of_get? hfs hroot hg' rfl)
        · exact .inr (.link _ target h rfl hg)
      | _ => cases he
  · exact .inr (.round path hpath hreal hfile)

theorem placed_of_place {path : String} (h : fs.place path = .ok parts) :
    Placed known fs ignores paths (fs.realPath path) := by
  obtain ⟨⟨items, hroot⟩, e, hg, he⟩ := place_entry h
  rw [realPath_eq h]
  exact ⟨parts, rfl, fun part hpart => (isEntryName_of_place hfs h part hpart).isPart,
    .inl (sound_withoutInit hfs hroot hg he)⟩

omit hfs in
/-- No built-in module is named as the initial module of a package is. -/
theorem base_builtin {b : String} (hb : b ∈ known.builtinNames) :
    Path.base (Path.join known.libraryDir b) ≠ "__init__.py" := by
  have hname : Path.IsPart b ∧ b ≠ "__init__.py" := by
    rcases List.mem_append.1 hb with hb | hb
    · have htop := List.all_eq_true.1 known.topNames b hb
      simp only [isTopName, Bool.and_eq_true, decide_eq_true_eq, List.all_eq_true] at htop
      refine ⟨⟨htop.1, fun hslash => (htop.2 _ hslash).1 rfl⟩, ?_⟩
      rintro rfl
      exact (htop.2 '.' (by decide)).2 rfl
    · obtain rfl := List.mem_singleton.1 hb
      exact ⟨⟨by decide, by decide⟩, by decide⟩
  rw [Path.base_join hname.1]
  exact hname.2

omit hfs in
theorem placed_of_builtin {b : String} (hb : b ∈ known.builtinNames) :
    Placed known fs ignores paths (fs.realPath (Path.join known.libraryDir b)) := by
  obtain ⟨parts, hfile, hparts⟩ := realPath_isPart fs (Path.join known.libraryDir b)
  refine ⟨parts, hfile, hparts, ?_⟩
  generalize hreal : fs.realPath (Path.join known.libraryDir b) = file
  by_cases hsound : fs.realPath file = file ∧ Path.base file ≠ "__init__.py"
  · rw [withoutInit, if_neg hsound.2]
    exact .inl ⟨hsound.1, .inr ⟨b, hb, hreal.symm⟩⟩
  · refine .inr (.builtin b hb hreal.symm fun hself => hsound ⟨?_, ?_⟩)
    · rw [hself, hreal, hself]
    · rw [hself]
      exact base_builtin hb

theorem placed_of_findable {s : Session} (hfiles : s.files = fs) (hknown : s.installation = known)
    (hcache : ∀ name own, (name, some own) ∈ s.cache → fs.isFile own = true) (h : s.Findable file) :
    Placed known fs ignores paths file := by
  subst hfiles hknown
  cases h with
  | file h =>
    obtain ⟨parts, hplace⟩ := place_of_isFile h
    exact placed_of_place hfs hplace
  | builtin hb => exact placed_of_builtin hb
  | remembered hown =>
    obtain ⟨parts, hplace⟩ := place_of_isFile (hcache _ _ hown)
    exact placed_of_place hfs hplace

end

/-! ## Printed nodes -/

section

variable {settings : DepsSettings} {roots paths : List String} {s s' : Session} {given : Set String} {file : String}
  {r : Ref} {p : Dependency}

theorem Visited.given_or_findable (h : Visited settings roots s given file) : file ∈ given ∨ s.Findable file := by
  cases h with
  | given h => exact .inl h
  | target _ _ hbrings =>
    obtain ⟨_, ds, hds, hd, _⟩ := hbrings
    exact .inr (findable_of_targets hds hd)

theorem Charted.node (h : Charted settings roots s given p) (hr : r = p.source ∨ r = p.target)
    (hsome : r ≠ Ref.nothing) : ∃ file, (file ∈ given ∨ s.Findable file) ∧ Tools.node settings s file = .ok r := by
  obtain ⟨f, hvisited, hsource, _, hdrawn⟩ := h
  rcases hr with rfl | rfl
  · exact ⟨f, hvisited.given_or_findable, hsource⟩
  · obtain ⟨ds, hds, d, hd, htarget, _⟩ := hdrawn.resolve_left fun h => hsome h.2
    exact ⟨d, .inr (findable_of_targets hds hd), htarget⟩

/-- **Nodes name files.** In every run that lists dependencies, a node that is printed names something that is there, or
a built-in module. The exceptions are nodes whose root is the top directory, and nodes of files whose path is not real:
links that were met on the way down from a given path, and paths whose links go round or lead away from where a
built-in module is said to be. -/
theorem nodes_named (hnames : s.files.root.wellNamed = true)
    (hcache : ∀ name own, (name, some own) ∈ s.cache → s.files.isFile own = true)
    (h : Returns settings paths s s') (hroots : settings.printRoots = false) :
    ∃ ps, Printed s s' ps ∧ ∀ p ∈ ps, ∀ r, r = p.source ∨ r = p.target → r ≠ Ref.nothing →
      ∃ root name, r = ⟨some root, some name⟩ ∧
        (Names s.installation s.files root name ∨
          ∃ file, Misnames s.installation s.files settings.ignores (searchedPaths paths) root name file) := by
  obtain ⟨roots, ps, l⟩ := h.listing hroots
  refine ⟨ps, l.printed, fun p hp r hr hsome => ?_⟩
  obtain ⟨file, hfile, hnode⟩ := ((l.mem_iff p).1 hp).1.node hr hsome
  obtain ⟨root, name, rfl, hrelative⟩ := node_inv hnode
  have hplaced : Placed s.installation s.files settings.ignores (searchedPaths paths) file := by
    rcases hfile with hgiven | hfound
    · exact placed_of_given hnames hgiven
    · exact placed_of_findable (s := rooted settings s roots) hnames rfl rfl hcache hfound
  exact ⟨root, name, rfl, (hplaced.named hnames hrelative).imp_right fun h => ⟨file, h⟩⟩

end

def linked : Session where
  files :=
    { root := .dir [("lib", .dir [("pkg", .dir [("__init__.py", .file (.plain "")), ("m.py", .file (.plain ""))])]),
        ("project", .dir [("x.py", .link "/lib/pkg/m.py")])],
      cwd := "/" }

def linkedNode : Ref := ⟨some "/lib", some "ect/x.py"⟩

theorem linked_read :
    Options.read depsFlags ["/project"] { ignores := linked.ignores } = .ok ["/project"] plainly := rfl

theorem linked_returns : ∃ s' ps, deps ["/project"] linked = .ok () s' ∧ Printed linked s' ps ∧
    ⟨linkedNode, Ref.nothing⟩ ∈ ps := by
  obtain ⟨s', ps, hdeps, hprinted, hlines⟩ :=
    deps_returns linked_read (.inl rfl) rfl [⟨linkedNode, Ref.nothing⟩] [true] (by decide +kernel)
  exact ⟨s', ps, hdeps, hprinted, by simpa using hlines⟩

theorem linked_not_names : ¬ Names linked.installation linked.files "/lib" "ect/x.py" := by
  unfold Names
  decide +kernel

theorem linked_misnames : ∃ s' ps, deps ["/project"] linked = .ok () s' ∧ Printed linked s' ps ∧
    ⟨linkedNode, Ref.nothing⟩ ∈ ps ∧
      ∃ file, Misnames linked.installation linked.files plainly.ignores ["/project"] "/lib" "ect/x.py" file := by
  obtain ⟨s', ps, hdeps, hprinted, hline⟩ := linked_returns
  obtain ⟨ps', hprinted', hnamed⟩ := nodes_named (s := linked) (by decide) nofun ⟨_, linked_read, hdeps⟩ rfl
  obtain rfl : ps = ps' := hprinted.unique hprinted'
  obtain ⟨root, name, hnode, hnames⟩ := hnamed _ hline linkedNode (.inl rfl) (by decide)
  simp only [linkedNode, Ref.mk.injEq, Option.some.injEq] at hnode
  obtain ⟨rfl, rfl⟩ := hnode
  exact ⟨s', ps, hdeps, hprinted, hline, hnames.resolve_left linked_not_names⟩

/-- The node of the link names nothing that is there. -/
theorem linked_unnamed : ∃ s' ps, deps ["/project"] linked = .ok () s' ∧ Printed linked s' ps ∧
    ⟨linkedNode, Ref.nothing⟩ ∈ ps ∧ ¬ Names linked.installation linked.files "/lib" "ect/x.py" := by
  obtain ⟨s', ps, hdeps, hprinted, hline⟩ := linked_returns
  exact ⟨s', ps, hdeps, hprinted, hline, linked_not_names⟩

end Tools

end ImportAtlas
