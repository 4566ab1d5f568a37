import ImportAtlas.Proofs.Climbs
import ImportAtlas.Proofs.GivenFiles
import ImportAtlas.Proofs.TopmostRoots

/-!
# Split paths

The real path of a file is split into its root and its name from there on. The climb to the root always ends, outside
all packages, if the top directory is no package, and it passes through packages alone. The two parts join to the path
again, and so tell files apart, unless the root is the top directory: the slash that is cut off with the root is then
part of it, and the name loses its first letter.
-/

namespace ImportAtlas

/-- A name after the top directory makes a path that is longer by one letter at most. -/
theorem Path.length_join_top (name : String) : (join "/" name).length ≤ name.length + 1 := by
  cases hname : isAbsolute name with
  | true =>
    rw [join_of_absolute hname]
    exact Nat.le_succ _
  | false =>
    rcases join_cases hname "/" with ⟨hempty, _⟩ | ⟨front, hfront, hj⟩ | ⟨_, hends, _⟩
    · exact absurd hempty (by decide)
    · rw [hj, ← hfront, String.length_append, Nat.add_comm]
      exact Nat.le_refl _
    · exact absurd hends (by decide)

namespace FileSystem

variable {fs : FileSystem} {ignores : Ignores} {parts front dir : List String} {file base path : String}

theorem RealFile.packageRoot_ok (hf : RealFile fs file dir base) (htop : fs.isPackageDir "/" = false)
    (hignores : ignores ≠ .unusable) : ∃ front, LeavesAt fs dir front ∧
      (fs.packageRoot ignores file = .ok none ∨ fs.packageRoot ignores file = .ok (some (Path.ofParts front))) := by
  have hdir : ∀ part ∈ dir, Path.IsPart part := (List.forall_mem_append.1 hf.isPart).1
  have hfuel : dir.length < (Path.ofParts dir).length + 2 :=
    Nat.lt_add_right 1 (Nat.lt_succ_of_le (Path.length_le_ofParts dir))
  obtain ⟨front, hleaves, hclimb⟩ := leavePackages_ok htop hdir hfuel
  obtain ⟨hplace, items, hget⟩ := hf.place_front hleaves.above
  have hisDir : fs.isDir (Path.ofParts front) = true := isDir_iff.2 ⟨items, locate_of_place hplace hget⟩
  obtain ⟨isRoot, hisRoot⟩ := isPackageRoot_ok hignores hisDir
  refine ⟨front, hleaves, ?_⟩
  unfold packageRoot
  rw [not_isDir_of_isFile hf.isFile, if_neg Bool.false_ne_true, hf.parent_eq, except_bind_of_ok hclimb,
    if_neg (Path.ofParts_ne_empty front), except_bind_of_ok hisRoot]
  cases isRoot with
  | true => exact .inr rfl
  | false => exact .inl rfl

/-! ## The two parts -/

/-- A name that is cut out of a path after the top directory has lost its first letter. -/
theorem join_top_ne (hparts : ∀ part ∈ parts, Path.IsPart part) (hne : parts ≠ []) :
    Path.join "/" (Text.dropFirst (Path.ofParts parts) 2) ≠ Path.ofParts parts := by
  intro hjoin
  have hlonger : 2 ≤ (Path.ofParts parts).length := by
    by_contra hshort
    rw [Path.ofParts, String.length_append] at hshort
    have hslash : "/".length = 1 := rfl
    have hnothing : "/".intercalate parts = "" := String.length_eq_zero_iff.1 (by omega)
    have htop : Path.ofParts parts = Path.ofParts [] := by
      rw [Path.ofParts, hnothing, Path.ofParts_nil, String.append_empty]
    exact hne (Path.ofParts_inj hparts (List.forall_mem_nil _) htop)
  have hlength := Path.length_join_top (Text.dropFirst (Path.ofParts parts) 2)
  rw [hjoin, Text.dropFirst, String.length_ofList, List.length_drop, String.length_toList] at hlength
  omega

/-- **Splitting a path.** The real path of a file splits into its root and its name. The parts join to the path again if
and only if the root is not the top directory, found as a package root. A package root that is found is the first
directory above the file that is no package. -/
theorem relativeTo_splits (hfs : fs.root.wellNamed = true) (htop : fs.isPackageDir "/" = false)
    (hignores : ignores ≠ .unusable) (hfile : fs.isFile path = true) (hreal : fs.realPath path = path) :
    ∃ root name, fs.relativeTo ignores path = .ok (root, name) ∧
      (Path.join root name = path ↔ fs.packageRoot ignores path ≠ .ok (some "/")) ∧
      ∀ found, fs.packageRoot ignores path = .ok (some found) → found = root ∧
        ∃ dir base front, path = Path.ofParts (dir ++ [base]) ∧ root = Path.ofParts front ∧ LeavesAt fs dir front := by
  obtain ⟨dir, base, hf⟩ := realFile_of_isFile hfs hfile
  rw [hreal] at hf
  have hpath := hf.path
  have hparts := hf.isPart
  obtain ⟨front, hleaves, hroot | hroot⟩ := hf.packageRoot_ok htop hignores
  · refine ⟨Path.parent path, Path.base path, ?_, iff_of_true ?_ ?_, fun found hfound => ?_⟩
    · unfold relativeTo
      rw [hreal, except_bind_of_ok hroot]
      rfl
    · rw [hpath]
      exact Path.join_parent_base hparts
    · rw [hroot]
      exact fun h => by cases h
    · cases hroot.symm.trans hfound
  · refine ⟨Path.ofParts front, Text.dropFirst path ((Path.ofParts front).length + 1), ?_, ?_, fun found hfound => ?_⟩
    · unfold relativeTo
      rw [hreal, except_bind_of_ok hroot]
      rfl
    · have hfront : ∀ part ∈ front, Path.IsPart part := fun part hpart =>
        hparts part (List.mem_append_left _ (hleaves.above.subset hpart))
      rw [hroot, hpath]
      by_cases hempty : front = []
      · subst hempty
        refine iff_of_false ?_ (fun h => h (by rw [Path.ofParts_nil]))
        rw [Path.ofParts_nil]
        exact join_top_ne hparts (by simp)
      · have hbegins := Path.beginsWith_ofParts hempty (hleaves.above.trans (List.prefix_append dir [base])) ?_
        · refine iff_of_true (Path.join_dropFirst hparts hbegins (Path.ofParts_ne_empty front)) fun h => ?_
          have hslash := Option.some.inj (Except.ok.inj h)
          rw [← Path.ofParts_nil] at hslash
          exact hempty (Path.ofParts_inj hfront (List.forall_mem_nil _) hslash)
        · -- the root lies above the directory of the file
          intro hsame
          have hshort := hleaves.above.length_le
          rw [hsame, List.length_append] at hshort
          exact absurd hshort (Nat.not_succ_le_self _)
    · cases hroot.symm.trans hfound
      exact ⟨rfl, dir, base, front, hpath, rfl, hleaves⟩

theorem relativeTo_inj (hfs : fs.root.wellNamed = true) (htop : fs.isPackageDir "/" = false)
    (hignores : ignores ≠ .unusable) {path' : String} (hfile : fs.isFile path = true) (hfile' : fs.isFile path' = true)
    (hreal : fs.realPath path = path) (hreal' : fs.realPath path' = path')
    (hroot : fs.packageRoot ignores path ≠ .ok (some "/")) (hroot' : fs.packageRoot ignores path' ≠ .ok (some "/"))
    (hsame : fs.relativeTo ignores path = fs.relativeTo ignores path') : path = path' := by
  obtain ⟨root, name, hsplit, hjoin, _⟩ := relativeTo_splits hfs htop hignores hfile hreal
  obtain ⟨root', name', hsplit', hjoin', _⟩ := relativeTo_splits hfs htop hignores hfile' hreal'
  cases hsplit.symm.trans (hsame.trans hsplit')
  exact (hjoin.2 hroot).symm.trans (hjoin'.2 hroot')

end FileSystem

namespace TopPackages

def package : Entry := .dir [("__init__.py", .file (.plain "")), ("m.py", .file (.plain ""))]

/-- Two packages in the top directory, whose names differ in the first letter. -/
def fs : FileSystem where
  root := .dir [("apkg", package), ("bpkg", package)]
  cwd := "/"

end TopPackages

/-- The top directory is cut off with the first letter of a package in it. -/
theorem split_loses_letter :
    TopPackages.fs.relativeTo (.names []) "/apkg/m.py" = .ok ("/", "pkg/m.py") ∧
      TopPackages.fs.relativeTo (.names []) "/bpkg/m.py" = .ok ("/", "pkg/m.py") := by
  decide +kernel

end ImportAtlas
