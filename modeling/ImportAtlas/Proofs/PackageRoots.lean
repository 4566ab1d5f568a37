import ImportAtlas.Analysis.Roots
import ImportAtlas.Proofs.Walks

/-!
# Roots from above and from below

Without links, what a path means depends only on the place to which it leads. So a root that was found by going down
is found again by going up from any package in it and from any file of such a package: all directories on the way are
packages, and the root, under whatever name, is none.
-/

namespace ImportAtlas

namespace Path

theorem join_ne_empty {path : String} (h : path ≠ "") (name : String) : join path name ≠ "" := by
  cases hname : isAbsolute name with
  | true =>
    rw [join_of_absolute hname]
    rintro rfl
    cases hname
  | false =>
    rcases join_cases hname path with ⟨hempty, _⟩ | ⟨front, _, hj⟩ | ⟨_, _, hj⟩
    · exact absurd hempty h
    · simp [hj]
    · simp [hj]

theorem length_trimmed_lt {name : String} (h : IsPart name) (path : String) :
    (trimmed path).length < (join path name).length := by
  have htrimmed : (trimmed path).length ≤ path.length := by
    have := length_withoutSlashes_le path.toList
    simpa [trimmed, ← String.length_toList] using this
  have hname : 0 < name.length := Nat.pos_of_ne_zero fun h0 => h.1 (String.length_eq_zero_iff.1 h0)
  have hjoin : path.length + name.length ≤ (join path name).length := by
    rcases join_cases h.not_absolute path with ⟨rfl, hj⟩ | ⟨front, rfl, hj⟩ | ⟨_, _, hj⟩
    · simp [hj]
    · simp [hj]
    · simp only [hj, String.length_append]
      omega
  omega

end Path

namespace FileSystem

variable {fs : FileSystem} {ignores : Ignores}

/-- Whoever is a root exists, is no package, and is a directory. -/
theorem isPackageRoot_inv {dir : String} (h : fs.isPackageRoot ignores dir = .ok true) :
    (∃ parts, fs.place dir = .ok parts) ∧ fs.isPackageDir dir = false ∧ fs.isDir dir = true := by
  unfold isPackageRoot at h
  split at h
  · cases h
  · rename_i hnot
    simp only [Bool.or_eq_true, Bool.not_eq_true', not_or, Bool.not_eq_false, Bool.not_eq_true] at hnot
    refine ⟨exists?_iff.1 hnot.1, hnot.2, ?_⟩
    obtain ⟨names, hnames, _⟩ := except_bind_inv h
    unfold FileSystem.names at hnames
    obtain ⟨e, he, hnames⟩ := except_bind_inv hnames
    unfold isDir
    rw [he]
    cases e with
    | dir items => rfl
    | _ => cases hnames

theorem isPackageRoot_child (hfs : fs.root.wellNamed = true) {dir : String}
    (h : fs.isPackageRoot ignores dir = .ok true) :
    ∃ name, IsEntryName name ∧ fs.isDir (Path.join dir name) = true := by
  unfold isPackageRoot at h
  split at h
  · cases h
  · obtain ⟨names, hnames, h⟩ := except_bind_inv h
    obtain ⟨_, hgroups, h⟩ := except_bind_inv h
    rw [separate_ok] at hgroups
    cases hgroups
    obtain ⟨_, _, h⟩ := except_bind_inv h
    obtain ⟨name, hname⟩ : ∃ name, name ∈ names.filter fun name => fs.isDir (Path.join dir name) := by
      refine List.exists_mem_of_ne_nil _ fun hempty => ?_
      rw [hempty] at h
      cases h
    obtain ⟨hmem, hdir⟩ := List.mem_filter.1 hname
    exact ⟨name, isEntryName_of_names hfs hnames name hmem, hdir⟩

section

variable (hno : NoLinks fs.root)
include hno

theorem isPackageDir_congr {a b : String} (ha : a ≠ "") (hb : b ≠ "") (h : fs.place a = fs.place b) :
    fs.isPackageDir a = fs.isPackageDir b := by
  unfold isPackageDir
  exact exists?_congr (place_join_congr hno ha hb h _)

theorem isPackageRoot_congr {a b : String} (ha : a ≠ "") (hb : b ≠ "") (h : fs.place a = fs.place b) :
    fs.isPackageRoot ignores a = fs.isPackageRoot ignores b := by
  have hdirs : ∀ name, fs.isDir (Path.join a name) = fs.isDir (Path.join b name) := fun name =>
    isDir_congr (place_join_congr hno ha hb h name)
  have hin : fs.isPackageIn ignores a = fs.isPackageIn ignores b := by
    funext name
    unfold isPackageIn
    rw [isPackageDir_congr hno (Path.join_ne_empty ha name) (Path.join_ne_empty hb name)
      (place_join_congr hno ha hb h name)]
  unfold isPackageRoot
  simp only [exists?_congr h, isPackageDir_congr hno ha hb h, names_congr h, hdirs, hin]

/-- Packages are directories. -/
theorem isDir_of_isPackageDir {dir : String} (hne : dir ≠ "") (h : fs.isPackageDir dir = true) :
    fs.isDir dir = true := by
  obtain ⟨q, hq⟩ := exists?_iff.1 h
  obtain ⟨parts, items, hparts, hitems, _⟩ := place_join_inv hno hne (by decide) hq
  unfold isDir
  rw [locate_of_place hparts hitems]

end

theorem packageRoot_eq {path dir top : String} (hdir : (if fs.isDir path then path else Path.parent path) = dir)
    (htop : fs.leavePackages (dir.length + 2) dir = .ok top) (hne : top ≠ "")
    (hroot : fs.isPackageRoot ignores top = .ok true) : fs.packageRoot ignores path = .ok (some top) := by
  unfold packageRoot
  simp only [hdir, htop, bind, Except.bind, hne, if_false, hroot]
  rfl

/-! ## What a root covers -/

/-- The directory is the root, or lies in it under packages and is one. -/
inductive InPackages (fs : FileSystem) (root : String) : String → Prop
  | root : InPackages fs root root
  | package {dir name : String} : InPackages fs root dir → IsEntryName name →
    fs.isPackageDir (Path.join dir name) = true → InPackages fs root (Path.join dir name)

/-- The path is the root, a package in it, or a file of one of them. -/
def Covers (fs : FileSystem) (root path : String) : Prop :=
  fs.InPackages root path ∨
    ∃ dir name, path = Path.join dir name ∧ fs.InPackages root dir ∧ IsEntryName name ∧ fs.isFile path = true

section

variable (hno : NoLinks fs.root) {root : String} (hroot : fs.isPackageRoot ignores root = .ok true)
include hno hroot

theorem trimmed_root : Path.trimmed root ≠ "" ∧ fs.isPackageDir (Path.trimmed root) = false ∧
    fs.isPackageRoot ignores (Path.trimmed root) = .ok true := by
  obtain ⟨⟨parts, hparts⟩, hpackage, _⟩ := isPackageRoot_inv hroot
  have hne := ne_empty_of_place hparts
  have htrimmed := Path.trimmed_ne_empty hne
  have hplace : fs.place (Path.trimmed root) = fs.place root := by rw [place_trimmed hparts, hparts]
  exact ⟨htrimmed, by rw [isPackageDir_congr hno htrimmed hne hplace, hpackage],
    by rw [isPackageRoot_congr hno htrimmed hne hplace, hroot]⟩

omit hno in
theorem InPackages.ne_empty {dir : String} (h : fs.InPackages root dir) : dir ≠ "" := by
  induction h with
  | root =>
    obtain ⟨⟨parts, hparts⟩, _⟩ := isPackageRoot_inv hroot
    exact ne_empty_of_place hparts
  | package _ _ _ ih => exact Path.join_ne_empty ih _

/-- Going up from a package of the root ends at the root. -/
theorem InPackages.leavePackages {dir : String} (h : fs.InPackages root dir) :
    ∀ fuel, (Path.trimmed dir).length + 2 ≤ fuel →
      fs.leavePackages fuel (Path.trimmed dir) = .ok (Path.trimmed root) := by
  induction h with
  | root =>
    intro fuel hfuel
    obtain ⟨fuel, rfl⟩ : ∃ n, fuel = n + 1 := ⟨fuel - 1, by omega⟩
    rw [FileSystem.leavePackages, (trimmed_root hno hroot).2.1]
    rfl
  | @package dir name hdir hname hpackage ih =>
    intro fuel hfuel
    obtain ⟨fuel, rfl⟩ : ∃ n, fuel = n + 1 := ⟨fuel - 1, by omega⟩
    rw [Path.trimmed_join hname.isPart] at hfuel ⊢
    have hlt := Path.length_trimmed_lt hname.isPart dir
    have hne := Path.join_ne_empty (hdir.ne_empty hroot) name
    rw [FileSystem.leavePackages, hpackage, if_neg (by simp), if_neg hne, Path.parent_join hname.isPart]
    exact ih fuel (by omega)

/-- Whatever a root covers lies in this root. The slashes at its end are lost on the way up. -/
theorem Covers.packageRoot {path : String} (h : fs.Covers root path) :
    fs.packageRoot ignores path = .ok (some (if path = root then root else Path.trimmed root)) := by
  obtain ⟨⟨parts, hparts⟩, hpackage, hisDir⟩ := isPackageRoot_inv hroot
  obtain ⟨htrimmed, _, htop⟩ := trimmed_root hno hroot
  by_cases hself : path = root
  · subst hself
    rw [if_pos rfl]
    refine packageRoot_eq (if_pos hisDir) ?_ (ne_empty_of_place hparts) hroot
    rw [leavePackages, hpackage]
    rfl
  · rw [if_neg hself]
    rcases h with hin | ⟨dir, name, rfl, hin, hname, hfile⟩
    · cases hin with
      | root => exact absurd rfl hself
      | @package dir name hdir hname hpackage' =>
        have hin := hdir.package hname hpackage'
        have hup := hin.leavePackages hno hroot _ (Nat.le_refl _)
        rw [Path.trimmed_join hname.isPart] at hup
        exact packageRoot_eq (if_pos (isDir_of_isPackageDir hno (hin.ne_empty hroot) hpackage')) hup htrimmed htop
    · have hdir : (if fs.isDir (Path.join dir name) then Path.join dir name else Path.parent (Path.join dir name)) =
          Path.trimmed dir := by
        rw [not_isDir_of_isFile hfile, Path.parent_join hname.isPart]
        rfl
      exact packageRoot_eq hdir (hin.leavePackages hno hroot _ (Nat.le_refl _)) htrimmed htop

end

/-! ## Real paths -/

section

variable (hno : NoLinks fs.root) (hfs : fs.root.wellNamed = true) {root : String} {top : List String}
  (htop : fs.place root = .ok top)
include hno hfs htop

/-- What a root covers is covered in the same way under real paths. -/
theorem InPackages.real {dir : String} (h : fs.InPackages root dir) :
    ∃ parts, fs.place dir = .ok parts ∧ fs.InPackages (Path.ofParts top) (Path.ofParts parts) := by
  induction h with
  | root => exact ⟨top, htop, .root⟩
  | @package dir name hdir hname hpackage ih =>
    obtain ⟨parts, hparts, hin⟩ := ih
    have hne := Path.join_ne_empty (ne_empty_of_place hparts) name
    obtain ⟨q, hq⟩ := exists?_iff.1 hpackage
    obtain ⟨parts', _, hparts', _, _⟩ := place_join_inv hno hne (by decide) hq
    obtain ⟨_, _, hdir', _, rfl⟩ := place_join_inv hno (ne_empty_of_place hparts) hname hparts'
    cases hparts.symm.trans hdir'
    have hreal := place_realPath hfs hparts'
    rw [realPath_eq hparts'] at hreal
    have hjoin : Path.join (Path.ofParts parts) name = Path.ofParts (parts ++ [name]) :=
      Path.join_ofParts (fun part hpart => (isEntryName_of_place hfs hparts part hpart).isPart) hname.isPart
    refine ⟨parts ++ [name], hparts', ?_⟩
    rw [← hjoin] at hreal ⊢
    refine hin.package hname ?_
    rw [isPackageDir_congr hno (ne_empty_of_place hreal) hne (by rw [hreal, hparts']), hpackage]

theorem Covers.real {path : String} (h : fs.Covers root path) : fs.Covers (Path.ofParts top) (fs.realPath path) := by
  rcases h with hin | ⟨dir, name, rfl, hin, hname, hfile⟩
  · obtain ⟨parts, hparts, hreal⟩ := hin.real hno hfs htop
    rw [realPath_eq hparts]
    exact .inl hreal
  · obtain ⟨parts, hparts, hreal⟩ := hin.real hno hfs htop
    obtain ⟨q, hq⟩ := place_of_isFile hfile
    obtain ⟨_, _, hdir, _, rfl⟩ := place_join_inv hno (ne_empty_of_place hparts) hname hq
    cases hparts.symm.trans hdir
    have hjoin : Path.join (Path.ofParts parts) name = Path.ofParts (parts ++ [name]) :=
      Path.join_ofParts (fun part hpart => (isEntryName_of_place hfs hparts part hpart).isPart) hname.isPart
    refine .inr ⟨Path.ofParts parts, name, ?_, hreal, hname, ?_⟩
    · rw [realPath_eq hq, hjoin]
    · rw [← hfile]
      exact isFile_congr (by rw [place_realPath hfs hq, hq])

end

theorem mem_rootsBelow {path root : String} {roots : List String} (h : fs.rootsBelow ignores path = .ok roots)
    (hroot : root ∈ roots) :
    fs.isPackageRoot ignores root = .ok true ∧
      ∃ v ∈ fs.walk (fun dir dirs => if (fs.isPackageRoot ignores dir).toOption.getD false then []
        else ignores.remaining dirs) (if fs.isDir path then path else Path.parent path), root = v.dir := by
  unfold rootsBelow at h
  obtain ⟨_, _, h⟩ := except_bind_inv h
  cases h
  obtain ⟨hdir, hisRoot⟩ := List.mem_filter.1 hroot
  obtain ⟨v, hv, rfl⟩ := List.mem_map.1 hdir
  refine ⟨?_, v, hv, rfl⟩
  cases hr : fs.isPackageRoot ignores v.dir with
  | ok b =>
    rw [hr] at hisRoot
    exact congrArg Except.ok hisRoot
  | error fault =>
    rw [hr] at hisRoot
    cases hisRoot

/-- The roots below a real path have real paths. -/
theorem realPath_of_mem_rootsBelow (hfs : fs.root.wellNamed = true) {path root : String} {roots : List String}
    (hdir : fs.isDir path = true) (hreal : fs.realPath path = path) (h : fs.rootsBelow ignores path = .ok roots)
    (hroot : root ∈ roots) : Path.trimmed root = root ∧ fs.realPath root = root := by
  obtain ⟨_, v, hv, rfl⟩ := mem_rootsBelow h hroot
  rw [if_pos hdir] at hv
  obtain ⟨p, hp⟩ := place_of_isDir hdir
  have hpath : path = Path.ofParts p := by rw [← realPath_eq hp, hreal]
  have hparts : ∀ name ∈ p, Path.IsPart name := fun name hname => (isEntryName_of_place hfs hp name hname).isPart
  rw [hpath] at hp hv
  obtain ⟨e, rest, he, _, hvisit⟩ := walk_below hfs hparts hp hv
  obtain ⟨items, hitems⟩ := hvisit.isDir
  have hget : fs.root.get? (p ++ rest) = some (.dir items) := by
    rw [Entry.get?_append, he]
    exact hitems
  have hnames := (Entry.wellNamed_get? hfs hget).2
  obtain ⟨⟨_, htop⟩, _⟩ := place_entry hp
  rw [hvisit.dir]
  refine ⟨Path.trimmed_ofParts fun name hname => (hnames name hname).isPart, ?_⟩
  exact realPath_eq (place_ofParts htop hnames hget rfl)

end FileSystem

namespace Run

open FileSystem

theorem rootsOf_singleton {ignores : Ignores} {path root : String} {s : Session}
    (h : s.files.packageRoot ignores (s.files.realPath path) = .ok (some root)) :
    rootsOf ignores [path] s = .ok [root] s := by
  have hroots : s.files.rootsFor ignores (s.files.realPath path) = .ok [root] := by
    unfold rootsFor
    rw [h]
    rfl
  unfold rootsOf
  rw [bind_of_ok (show files s = .ok s.files s from rfl), List.mapM_cons]
  simp only [hroots]
  have hsort : Text.sort (Text.distinct [root]) = [root] := by
    simp [Text.distinct, Text.sort, List.eraseDups_cons]
  exact congrArg (EStateM.Result.ok · s) hsort

/-- **Roots from above and below.** Without links, a root that was found below a directory is found again from the
root itself, from every package in it, and from every file of these: the path itself is climbed to the root, without
the slashes at its end, and the roots of the path are the real path of the root. Below a real path this is the root
as it was found. -/
theorem rootsOf_covered {s : Session} {ignores : Ignores} {dir root path : String} {roots : List String}
    (hlinks : s.files.root.links = 0) (hnames : s.files.root.wellNamed = true)
    (hroots : s.files.rootsBelow ignores dir = .ok roots) (hroot : root ∈ roots) (hpath : s.files.Covers root path) :
    s.files.packageRoot ignores path = .ok (some (if path = root then root else Path.trimmed root)) ∧
      rootsOf ignores [path] s = .ok [s.files.realPath root] s ∧
      (s.files.isDir dir = true → s.files.realPath dir = dir →
        s.files.packageRoot ignores path = .ok (some root) ∧ rootsOf ignores [path] s = .ok [root] s) := by
  have hno := noLinks_of_links hlinks
  have hisRoot := (mem_rootsBelow hroots hroot).1
  obtain ⟨⟨top, htop⟩, _⟩ := isPackageRoot_inv hisRoot
  have hup := hpath.packageRoot hno hisRoot
  have hreal := realPath_eq htop
  -- the same climb under real paths
  have hplace := place_realPath hnames htop
  have hsame : s.files.isPackageRoot ignores (s.files.realPath root) = .ok true := by
    rw [← hisRoot]
    exact isPackageRoot_congr hno (ne_empty_of_place hplace) (ne_empty_of_place htop) (by rw [hplace, htop])
  have hcovers := hpath.real hno hnames htop
  rw [← hreal] at hcovers
  have hclimb := hcovers.packageRoot hno hsame
  have htrimmed : Path.trimmed (s.files.realPath root) = s.files.realPath root := by
    rw [hreal]
    exact Path.trimmed_ofParts fun name hname => (isEntryName_of_place hnames htop name hname).isPart
  rw [htrimmed, ite_self] at hclimb
  have hrootsOf := rootsOf_singleton hclimb
  refine ⟨hup, hrootsOf, fun hdir hcanonical => ?_⟩
  obtain ⟨hshort, hself⟩ := realPath_of_mem_rootsBelow hnames hdir hcanonical hroots hroot
  rw [hshort, ite_self] at hup
  rw [hself] at hrootsOf
  exact ⟨hup, hrootsOf⟩

def aroundPackage : Session where
  files :=
    { root := .dir [("w", .dir [("p", .dir [("__init__.py", .file (.plain "")), ("m.py", .file (.plain ""))])])],
      cwd := "/w" }

theorem aroundPackage_rootsBelow : aroundPackage.files.rootsBelow (.names []) "." = .ok ["."] := by
  rfl

theorem rootsOf_around_module :
    aroundPackage.files.packageRoot (.names []) "./p/m.py" = .ok (some ".") ∧
      rootsOf (.names []) ["./p/m.py"] aroundPackage = .ok ["/w"] aroundPackage := by
  have hcovers : aroundPackage.files.Covers "." "./p/m.py" := by
    refine .inr ⟨"./p", "m.py", by decide +kernel, ?_, by decide, by decide +kernel⟩
    have hjoin : Path.join "." "p" = "./p" := by decide +kernel
    rw [← hjoin]
    exact .package .root (by decide) (by decide +kernel)
  obtain ⟨hup, hroots, _⟩ := rootsOf_covered (s := aroundPackage) (by decide) (by decide) aroundPackage_rootsBelow
    List.mem_cons_self hcovers
  exact ⟨hup, hroots⟩

/-- The root of the working directory is found under another name than the one under which it was given. -/
theorem rootsOf_working_dir : aroundPackage.files.root.links = 0 ∧
    aroundPackage.files.rootsBelow (.names []) "." = .ok ["."] ∧
    aroundPackage.files.Covers "." "." ∧ rootsOf (.names []) ["."] aroundPackage = .ok ["/w"] aroundPackage := by
  exact ⟨by decide, aroundPackage_rootsBelow, .inl .root, rootsOf_singleton (by rfl)⟩

end Run

end ImportAtlas
