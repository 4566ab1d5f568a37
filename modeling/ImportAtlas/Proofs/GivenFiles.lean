import ImportAtlas.Proofs.ArgumentOrder
import ImportAtlas.Proofs.NamedFiles
import ImportAtlas.Proofs.Restrictions

/-!
# Files that are given

The roots of the input are found from the given files, and the root of a node is found from the file that it stands
for. Both climb from the same directory, so they agree where there is a package root. Where there is none, a file lies
in its directory, but a package is named by its directory and lies in the one above: the file of a package may then be
outside the roots that it gave itself. This needs an outermost package whose directory cannot be imported.
-/

namespace ImportAtlas

namespace FileSystem

variable {fs : FileSystem} {parts front : List String} {name : String}

/-! ## Outermost packages -/

/-- The directory lies in packages, the outermost of which has this name. -/
def OutermostPackage (fs : FileSystem) (parts front : List String) (name : String) : Prop :=
  ∃ rest, parts = front ++ name :: rest ∧ fs.isPackageDir (Path.ofParts front) = false ∧
    ∀ inner, inner <+: rest → fs.isPackageDir (Path.ofParts (front ++ name :: inner)) = true

theorem leavePackages_outermost (hparts : ∀ part ∈ parts, Path.IsPart part)
    (hpackage : fs.isPackageDir (Path.ofParts parts) = true) {fuel : Nat} {top : String}
    (h : fs.leavePackages fuel (Path.ofParts parts) = .ok top) :
    ∃ front name, top = Path.ofParts front ∧ OutermostPackage fs parts front name := by
  induction fuel generalizing parts with
  | zero => cases h
  | succ fuel ih =>
    rw [leavePackages, hpackage, if_neg (by simp), if_neg (Path.ofParts_ne_empty parts),
      Path.parent_ofParts hparts] at h
    have hfront : ∀ part ∈ parts.dropLast, Path.IsPart part := fun part hpart =>
      hparts part (List.mem_of_mem_dropLast hpart)
    rcases List.eq_nil_or_concat' parts with rfl | ⟨outer, last, rfl⟩
    · -- the top directory lies in itself, and so it has no outermost package
      obtain ⟨_, _, _, _, hsplit, _⟩ := ih hfront hpackage h
      cases List.append_eq_nil_iff.1 hsplit.symm |>.2
    rw [List.dropLast_concat] at h hfront
    cases hup : fs.isPackageDir (Path.ofParts outer) with
    | false =>
      have htop : top = Path.ofParts outer := by
        cases fuel with
        | zero => cases h
        | succ fuel =>
          rw [leavePackages, hup] at h
          exact (Except.ok.inj h).symm
      refine ⟨outer, last, htop, [], rfl, hup, fun inner hinner => ?_⟩
      rw [List.prefix_nil.1 hinner]
      exact hpackage
    | true =>
      obtain ⟨front, name, htop, rest, rfl, houter, hinner⟩ := ih hfront hup h
      refine ⟨front, name, htop, rest ++ [last], by simp, houter, fun inner hin => ?_⟩
      rcases List.prefix_concat_iff.1 hin with rfl | hin
      · simpa using hpackage
      · exact hinner inner hin

theorem anyM_eq_false {α : Type} {test : α → Except Fault Bool} {xs : List α} (h : xs.anyM test = .ok false) :
    ∀ x ∈ xs, test x = .ok false := by
  induction xs with
  | nil => exact List.forall_mem_nil _
  | cons x xs ih =>
    rw [List.anyM] at h
    obtain ⟨found, hx, h⟩ := except_bind_inv h
    cases found with
    | true => cases h
    | false => exact List.forall_mem_cons.2 ⟨hx, ih h⟩

/-- A directory that holds a package is a root, unless the package is called as nothing can be that is imported. -/
theorem isPackageRoot_eq_false {ignores ns : List String} {dir : String}
    (h : fs.isPackageRoot (.names ignores) dir = .ok false) (hexists : fs.exists? dir = true)
    (hout : fs.isPackageDir dir = false) (hns : fs.names dir = .ok ns) (hname : name ∈ ns)
    (hdir : fs.isDir (Path.join dir name) = true) (hpackage : fs.isPackageDir (Path.join dir name) = true) :
    '.' ∈ name.toList ∨ name ∈ ignores := by
  unfold isPackageRoot at h
  rw [hexists, hout, hns] at h
  obtain ⟨_, hns', h⟩ := except_bind_inv h
  cases hns'
  obtain ⟨_, hgroups, h⟩ := except_bind_inv h
  rw [separate_ok] at hgroups
  cases hgroups
  obtain ⟨_, _, h⟩ := except_bind_inv h
  split at h
  · cases h
  · have hin := anyM_eq_false h name (List.mem_filter.2 ⟨hname, hdir⟩)
    unfold isPackageIn at hin
    split at hin
    · rename_i hdot
      exact .inl hdot
    · obtain ⟨found, hfound, hin⟩ := except_bind_inv hin
      cases hfound
      split at hin
      · rename_i hignored
        exact .inr (of_decide_eq_true hignored)
      · rw [hpackage] at hin
        cases hin

/-! ## Real files -/

/-- The path leads to a file without a detour. -/
structure RealFile (fs : FileSystem) (file : String) (dir : List String) (base : String) : Prop where
  path : file = Path.ofParts (dir ++ [base])
  names : ∀ part ∈ dir ++ [base], IsEntryName part
  isFile : fs.isFile file = true
  place : fs.place file = .ok (dir ++ [base])
  held : ∃ items, fs.root.get? dir = some (.dir items)
  top : ∃ items, fs.root = .dir items

theorem realFile_of_isFile (hfs : fs.root.wellNamed = true) {path : String} (h : fs.isFile path = true) :
    ∃ dir base, RealFile fs (fs.realPath path) dir base := by
  obtain ⟨parts, hplace⟩ := place_of_isFile h
  obtain ⟨⟨items, htop⟩, e, hg, he⟩ := place_entry hplace
  have hfile : fs.isFile (fs.realPath path) = true := by
    rw [← h]
    exact isFile_congr (by rw [place_realPath hfs hplace, hplace])
  rcases List.eq_nil_or_concat' parts with rfl | ⟨dir, base, rfl⟩
  · -- the top directory is no file
    rw [htop] at hg
    cases hg
    unfold FileSystem.isFile at h
    rw [locate_of_place hplace (by rw [htop]; rfl)] at h
    cases h
  · obtain ⟨items', hdir, _⟩ := Entry.dir_of_get?_concat hg
    exact ⟨dir, base, realPath_eq hplace, isEntryName_of_place hfs hplace, hfile, place_realPath hfs hplace,
      ⟨items', hdir⟩, ⟨items, htop⟩⟩

section

variable {file base : String} {dir : List String} (hf : RealFile fs file dir base)
include hf

theorem RealFile.isPart : ∀ part ∈ dir ++ [base], Path.IsPart part := fun part hpart => (hf.names part hpart).isPart

theorem RealFile.parent_eq : Path.parent file = Path.ofParts dir := by
  rw [hf.path, Path.parent_ofParts hf.isPart, List.dropLast_concat]

theorem RealFile.base_eq : Path.base file = base := by
  obtain ⟨hdir, hbase⟩ := List.forall_mem_append.1 hf.isPart
  rw [hf.path, ← Path.join_ofParts hdir (hbase base (by simp)), Path.base_join (hbase base (by simp))]

/-- The directory has an entry at every point of the way to it. -/
theorem RealFile.place_front {front : List String} (hfront : front <+: dir) :
    fs.place (Path.ofParts front) = .ok front ∧ ∃ items, fs.root.get? front = some (.dir items) := by
  obtain ⟨rest, rfl⟩ := hfront
  obtain ⟨items, hdir⟩ := hf.held
  obtain ⟨_, htop⟩ := hf.top
  have hget : ∃ items, fs.root.get? front = some (.dir items) := by
    rw [Entry.get?_append] at hdir
    obtain ⟨e, he, hrest⟩ := Option.bind_eq_some_iff.1 hdir
    cases rest with
    | nil =>
      cases hrest
      exact ⟨items, he⟩
    | cons name rest =>
      obtain ⟨items', rfl⟩ := Entry.isDir_of_get?_cons hrest
      exact ⟨items', he⟩
  obtain ⟨items', hget⟩ := hget
  exact ⟨place_ofParts htop (fun name hname => hf.names name (by simp [hname])) hget rfl, items', hget⟩

theorem RealFile.isDir_parent : fs.isDir (Path.parent file) = true := by
  obtain ⟨hplace, items, hget⟩ := hf.place_front (List.prefix_refl dir)
  rw [hf.parent_eq]
  unfold FileSystem.isDir
  rw [locate_of_place hplace hget]

/-- A file and its directory are climbed in the same way. -/
theorem RealFile.packageRoot_parent (ignores : Ignores) :
    fs.packageRoot ignores (Path.parent file) = fs.packageRoot ignores file := by
  unfold packageRoot
  rw [hf.isDir_parent, not_isDir_of_isFile hf.isFile]
  rfl

theorem RealFile.packageRoot_withoutInit (ignores : Ignores) :
    fs.packageRoot ignores (fs.realPath (Tools.withoutInit file)) = fs.packageRoot ignores file := by
  unfold Tools.withoutInit
  split
  · rw [hf.parent_eq, realPath_eq (hf.place_front (List.prefix_refl dir)).1, ← hf.parent_eq, hf.packageRoot_parent]
  · rw [realPath_eq hf.place, ← hf.path]

/-- The outermost package of a package without a root is called as nothing can be that is imported. -/
theorem RealFile.outermost (hinit : base = "__init__.py") {ignores : List String}
    (hroot : fs.packageRoot (.names ignores) file = .ok none) :
    ∃ front name, OutermostPackage fs dir front name ∧ ('.' ∈ name.toList ∨ name ∈ ignores) := by
  obtain ⟨hdirParts, hbase⟩ := List.forall_mem_append.1 hf.isPart
  have hpackage : fs.isPackageDir (Path.ofParts dir) = true := by
    unfold isPackageDir
    rw [← hinit, Path.join_ofParts hdirParts (hbase base (by simp)), ← hf.path]
    exact exists?_iff.2 ⟨_, hf.place⟩
  rw [← hf.packageRoot_parent, hf.parent_eq] at hroot
  unfold packageRoot at hroot
  obtain ⟨top, htop, hroot⟩ := except_bind_inv hroot
  rw [← hf.parent_eq, hf.isDir_parent, if_pos rfl, hf.parent_eq] at htop
  obtain ⟨front, name, rfl, hout⟩ := leavePackages_outermost hdirParts hpackage htop
  rw [if_neg (Path.ofParts_ne_empty front)] at hroot
  obtain ⟨isRoot, hisRoot, hroot⟩ := except_bind_inv hroot
  cases isRoot with
  | true => cases hroot
  | false =>
    refine ⟨front, name, hout, ?_⟩
    obtain ⟨rest, rfl, houter, hinner⟩ := hout
    obtain ⟨hplace, items, hget⟩ := hf.place_front (List.prefix_append front (name :: rest))
    have hfirst : front ++ [name] <+: front ++ name :: rest := by simp
    obtain ⟨hplace', items', hget'⟩ := hf.place_front hfirst
    have hfrontParts : ∀ part ∈ front, Path.IsPart part := fun part hpart => hdirParts part (by simp [hpart])
    have hjoin : Path.join (Path.ofParts front) name = Path.ofParts (front ++ [name]) :=
      Path.join_ofParts hfrontParts (hdirParts name (by simp))
    have hnames : fs.names (Path.ofParts front) = .ok (items.map (·.1)) := by
      unfold FileSystem.names
      rw [locate_of_place hplace hget]
      rfl
    obtain ⟨_, hitems, hlookup⟩ := Entry.dir_of_get?_concat hget'
    cases hget.symm.trans hitems
    refine isPackageRoot_eq_false hisRoot (exists?_iff.2 ⟨_, hplace⟩) houter hnames
      (List.mem_map.2 ⟨_, mem_of_lookup hlookup, rfl⟩) ?_ ?_
    · unfold FileSystem.isDir
      rw [hjoin, locate_of_place hplace' hget']
    · rw [hjoin]
      exact hinner [] List.nil_prefix

end

end FileSystem

namespace Tools

open FileSystem

/-! ## Given files and the roots of the input -/

/-- The file of a package that has no package root, and neither does the directory above the package count as one. -/
structure LeftOut (fs : FileSystem) (ignores roots : List String) (file : String) : Prop where
  init : Path.base file = "__init__.py"
  rootless : fs.packageRoot (.names ignores) file = .ok none
  above : Path.parent (Path.parent file) ∉ roots

section

variable {settings : DepsSettings} {paths roots : List String} {s s' : Session} {path file base : String}
  {dir : List String} {n : Ref}

/-- Inner and outer dependencies are not asked for together by a run that returns. -/
theorem Returns.external_eq (h : Returns settings paths s s') (hinternal : 0 < settings.internal) :
    settings.external = false := by
  obtain ⟨arguments, hread, hdeps⟩ := h
  obtain ⟨t, _, hproceed⟩ := deps_inv hread hdeps
  unfold proceed at hproceed
  split at hproceed
  · obtain ⟨_, _, hmisused, _⟩ := bind_inv hproceed
    cases hmisused
  · rename_i hone
    simpa [DepsSettings.weighed, hinternal] using hone

theorem mem_searchedPaths (h : path ∈ paths) : path ∈ searchedPaths paths := by
  unfold searchedPaths
  rw [if_neg (by simpa using List.ne_nil_of_mem h)]
  exact h

/-- A given file gives its package root or, if it has none, its directory. -/
theorem InputRoots.of_file (h : InputRoots settings paths s roots) (hpath : path ∈ paths)
    (hf : RealFile s.files (s.files.realPath path) dir base) :
    s.files.packageRoot (.names settings.ignores) (s.files.realPath path) = .ok none ∧
        Path.parent (s.files.realPath path) ∈ roots ∨
      ∃ root ∈ roots, s.files.packageRoot (.names settings.ignores) (s.files.realPath path) = .ok (some root) := by
  obtain ⟨s', h⟩ := h
  obtain ⟨all, hall, rfl⟩ := rootsOf_inv h
  have hsearched := mem_searchedPaths hpath
  obtain ⟨rs, hrs⟩ := of_mapM_ok hall path hsearched
  have hmem : ∀ root ∈ rs, root ∈ Text.sort (Text.distinct all.flatten) := by
    intro root hroot
    rw [Text.mem_sort, Text.mem_distinct]
    exact List.mem_flatten.2 ⟨rs, (mem_of_mapM hall rs).2 ⟨path, hsearched, hrs⟩, hroot⟩
  dsimp only at hrs
  unfold rootsFor at hrs
  obtain ⟨found, hfound, hrs⟩ := except_bind_inv hrs
  cases found with
  | none =>
    dsimp only at hrs
    rw [hf.isFile, if_pos rfl] at hrs
    cases hrs
    exact .inl ⟨hfound, hmem _ List.mem_cons_self⟩
  | some root =>
    cases hrs
    exact .inr ⟨root, hmem _ List.mem_cons_self, hfound⟩

/-- The root of the node of a file. -/
theorem node_root (hf : RealFile s.files file dir base) (h : node settings s file = .ok n) :
    n.root = some (Path.parent (withoutInit file)) ∧
        s.files.packageRoot (.names settings.ignores) file = .ok none ∨
      ∃ root, n.root = some root ∧ s.files.packageRoot (.names settings.ignores) file = .ok (some root) := by
  obtain ⟨root, name, rfl, hrel⟩ := node_inv h
  unfold relativeTo at hrel
  obtain ⟨found, hfound, hrel⟩ := except_bind_inv hrel
  rw [hf.packageRoot_withoutInit] at hfound
  cases found with
  | none =>
    obtain ⟨rfl, rfl⟩ := Prod.mk.inj (Except.ok.inj hrel)
    exact .inl ⟨rfl, hfound⟩
  | some top =>
    obtain ⟨rfl, rfl⟩ := Prod.mk.inj (Except.ok.inj hrel)
    exact .inr ⟨_, rfl, hfound⟩

/-- Which given files lie inside the roots of the input. -/
theorem inside_iff (hinput : InputRoots settings paths s roots) (hpath : path ∈ paths)
    (hf : RealFile s.files (s.files.realPath path) dir base) (h : node settings s (s.files.realPath path) = .ok n) :
    Inside roots n ↔ ¬ LeftOut s.files settings.ignores roots (s.files.realPath path) := by
  rcases node_root hf h with ⟨hn, hnone⟩ | ⟨root, hn, hsome⟩
  · by_cases hinit : Path.base (s.files.realPath path) = "__init__.py"
    · rw [withoutInit, if_pos hinit] at hn
      have hinside : Inside roots n ↔ Path.parent (Path.parent (s.files.realPath path)) ∈ roots := by
        simp only [Inside, hn, Option.some.injEq, exists_eq_right']
      rw [hinside]
      exact ⟨fun hmem hleft => hleft.above hmem, fun hnot => Classical.not_not.1 fun hmem => hnot ⟨hinit, hnone, hmem⟩⟩
    · rw [withoutInit, if_neg hinit] at hn
      refine iff_of_true ?_ fun hleft => hinit hleft.init
      rcases hinput.of_file hpath hf with ⟨_, hmem⟩ | ⟨root, _, hsome⟩
      · exact ⟨_, hmem, hn⟩
      · cases hnone.symm.trans hsome
  · refine iff_of_true ?_ fun hleft => ?_
    · rcases hinput.of_file hpath hf with ⟨hnone, _⟩ | ⟨root', hmem, hsome'⟩
      · cases hnone.symm.trans hsome
      · cases hsome.symm.trans hsome'
        exact ⟨root, hmem, hn⟩
    · cases hsome.symm.trans hleft.rootless

/-- **Given files are shown.** Every run that lists inner dependencies prints the node of every Python file that was
given exactly if the root of the node is a root of the input. The only files that it leaves out are those of packages
without a package root, where no other path gives the directory above the package. The outermost package around such a
file is called as nothing can be that is imported: its name has a dot in it or is one that is ignored. -/
theorem given_files_shown (hnames : s.files.root.wellNamed = true) (h : Returns settings paths s s')
    (hroots : settings.printRoots = false) (hinternal : 0 < settings.internal) :
    ∃ roots ps, InputRoots settings paths s roots ∧ Printed s s' ps ∧
      ∀ path ∈ paths, s.files.isFile path = true → s.files.isPython (s.files.realPath path) = true →
        ∃ n, node settings s (s.files.realPath path) = .ok n ∧
          (⟨n, Ref.nothing⟩ ∈ ps ↔ Inside roots n) ∧
          (⟨n, Ref.nothing⟩ ∉ ps ↔ LeftOut s.files settings.ignores roots (s.files.realPath path)) ∧
          (⟨n, Ref.nothing⟩ ∉ ps → ∃ dir front name, s.files.realPath path = Path.ofParts (dir ++ ["__init__.py"]) ∧
            OutermostPackage s.files dir front name ∧ ('.' ∈ name.toList ∨ name ∈ settings.ignores)) := by
  obtain ⟨roots, ps, l⟩ := h.listing hroots
  refine ⟨roots, ps, l.input, l.printed, fun path hpath hfile hpython => ?_⟩
  obtain ⟨dir, base, hf⟩ := realFile_of_isFile hnames hfile
  have hgiven : s.files.realPath path ∈ givenFiles settings paths s := by
    refine List.mem_flatMap.2 ⟨path, mem_searchedPaths hpath, ?_⟩
    rw [if_neg Bool.false_ne_true, pythonFilesAt]
    rw [exists?_iff.2 ⟨_, hf.place⟩, not_isDir_of_isFile hf.isFile, hpython]
    exact List.mem_cons_self
  obtain ⟨_, n, _, hnode, _⟩ := l.fit _ (.given hgiven)
  have hlisted : ⟨n, Ref.nothing⟩ ∈ ps ↔ Inside roots n := by
    rw [l.mem_iff]
    constructor
    · rintro ⟨⟨_, _, _, hshows, _⟩, _⟩
      exact hshows hinternal
    · intro hinside
      exact ⟨⟨_, .given hgiven, hnode, fun _ => hinside, .inl ⟨h.external_eq hinternal, rfl⟩⟩, fun _ => .inl rfl⟩
  have hleft : ⟨n, Ref.nothing⟩ ∉ ps ↔ LeftOut s.files settings.ignores roots (s.files.realPath path) := by
    rw [hlisted, inside_iff l.input hpath hf hnode, Classical.not_not]
  refine ⟨n, hnode, hlisted, hleft, fun hout => ?_⟩
  obtain ⟨hinit, hnone, _⟩ := hleft.1 hout
  rw [hf.base_eq] at hinit
  obtain ⟨front, name, hpackage, hname⟩ := hf.outermost hinit hnone
  exact ⟨dir, front, name, hinit ▸ hf.path, hpackage, hname⟩

end

/-- A package that cannot be imported under the name of its directory. -/
def dottedPackage : Session where
  files := { root := .dir [("w", .dir [("my.pkg", .dir [("__init__.py", .file (.plain ""))])])], cwd := "/w" }

def dottedNode : Ref := ⟨some "/w", some "my.pkg"⟩

theorem dottedPackage_read :
    Options.read depsFlags ["-i", "my.pkg/__init__.py"] { ignores := dottedPackage.ignores } =
      .ok ["my.pkg/__init__.py"] (plainly.restricted 1 false) := rfl

theorem dottedPackage_returns : ∃ s' ps, deps ["-i", "my.pkg/__init__.py"] dottedPackage = .ok () s' ∧
    Printed dottedPackage s' ps ∧ ⟨dottedNode, Ref.nothing⟩ ∉ ps := by
  obtain ⟨s', ps, hdeps, hprinted, hlines⟩ :=
    deps_returns dottedPackage_read (.inr rfl) rfl [⟨dottedNode, Ref.nothing⟩] [false] (by decide +kernel)
  exact ⟨s', ps, hdeps, hprinted, by simpa using hlines⟩

theorem dottedPackage_node :
    node (plainly.restricted 1 false) dottedPackage (dottedPackage.files.realPath "my.pkg/__init__.py") =
      .ok dottedNode := rfl

theorem dottedPackage_left_out : ∃ s' roots, deps ["-i", "my.pkg/__init__.py"] dottedPackage = .ok () s' ∧
    InputRoots (plainly.restricted 1 false) ["my.pkg/__init__.py"] dottedPackage roots ∧
    LeftOut dottedPackage.files defaultIgnores roots (dottedPackage.files.realPath "my.pkg/__init__.py") := by
  obtain ⟨s', ps, hdeps, hprinted, hout⟩ := dottedPackage_returns
  obtain ⟨roots, ps', hinput, hprinted', hshown⟩ :=
    given_files_shown (s := dottedPackage) (by decide) ⟨_, dottedPackage_read, hdeps⟩ rfl (by decide)
  obtain rfl : ps = ps' := hprinted.unique hprinted'
  obtain ⟨n, hnode, _, hleft, _⟩ :=
    hshown "my.pkg/__init__.py" List.mem_cons_self (by decide +kernel) (by decide +kernel)
  cases dottedPackage_node.symm.trans hnode
  exact ⟨s', roots, hdeps, hinput, hleft.1 hout⟩

/-- The file of a package is given, and yet it is not shown among the inner ones. -/
theorem given_file_not_shown : ∃ s' ps, deps ["-i", "my.pkg/__init__.py"] dottedPackage = .ok () s' ∧
    Printed dottedPackage s' ps ∧ dottedPackage.files.isFile "my.pkg/__init__.py" = true ∧
    dottedPackage.files.isPython (dottedPackage.files.realPath "my.pkg/__init__.py") = true ∧
    node (plainly.restricted 1 false) dottedPackage (dottedPackage.files.realPath "my.pkg/__init__.py") =
      .ok dottedNode ∧ ⟨dottedNode, Ref.nothing⟩ ∉ ps := by
  obtain ⟨s', ps, hdeps, hprinted, hout⟩ := dottedPackage_returns
  exact ⟨s', ps, hdeps, hprinted, by decide +kernel, by decide +kernel, dottedPackage_node, hout⟩

end Tools

end ImportAtlas
