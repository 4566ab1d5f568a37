import ImportAtlas.Analysis.Roots
import ImportAtlas.Proofs.Faults
import ImportAtlas.Proofs.Places

/-!
# Climbs

The root of a path is looked for upward, as long as a directory is a package. If the top directory is no package the
climb ends there at the latest, and where the search for roots stops then it stops at a plain fault. If the top
directory is a package, a climb through packages alone never ends, since the directory above the top is the top again.
-/

namespace ImportAtlas

theorem Path.length_le_ofParts (parts : List String) : parts.length ≤ (ofParts parts).length := by
  induction parts using List.reverseRecOn with
  | nil => exact Nat.zero_le _
  | append_singleton front name ih =>
    cases front with
    | nil =>
      rw [List.nil_append, ofParts_singleton, String.length_append]
      exact Nat.le_add_right _ _
    | cons first front =>
      rw [ofParts_concat (List.cons_ne_nil first front), String.length_append, String.length_append, List.length_append]
      exact Nat.le_trans (Nat.add_le_add_right ih 1) (Nat.le_add_right _ _)

namespace FileSystem

variable {fs : FileSystem} {ignores : Ignores} {parts : List String}

/-- The first directory above that is no package. -/
structure LeavesAt (fs : FileSystem) (parts front : List String) : Prop where
  above : front <+: parts
  outside : fs.isPackageDir (Path.ofParts front) = false
  between : ∀ mid, front <+: mid → mid <+: parts → mid ≠ front → fs.isPackageDir (Path.ofParts mid) = true

theorem leavePackages_ok (htop : fs.isPackageDir "/" = false) (hparts : ∀ part ∈ parts, Path.IsPart part) {fuel : Nat}
    (hfuel : parts.length < fuel) :
    ∃ front, LeavesAt fs parts front ∧ fs.leavePackages fuel (Path.ofParts parts) = .ok (Path.ofParts front) := by
  induction fuel generalizing parts with
  | zero => exact absurd hfuel (Nat.not_lt_zero _)
  | succ fuel ih =>
    rw [leavePackages]
    cases hpackage : fs.isPackageDir (Path.ofParts parts) with
    | false =>
      refine ⟨parts, ⟨List.prefix_refl parts, hpackage, fun mid hlow hhigh hne => ?_⟩, rfl⟩
      exact absurd (hhigh.eq_of_length_le hlow.length_le) hne
    | true =>
      rcases List.eq_nil_or_concat' parts with rfl | ⟨outer, last, rfl⟩
      · rw [Path.ofParts_nil, htop] at hpackage
        cases hpackage
      have houter : ∀ part ∈ outer, Path.IsPart part := fun part hpart => hparts part (by simp [hpart])
      obtain ⟨front, hleaves, hclimb⟩ := ih houter (by simpa using hfuel)
      refine ⟨front, ⟨hleaves.above.trans (List.prefix_append outer [last]), hleaves.outside, ?_⟩, ?_⟩
      · intro mid hlow hhigh hne
        rcases List.prefix_concat_iff.1 hhigh with rfl | hhigh
        · exact hpackage
        · exact hleaves.between mid hlow hhigh hne
      · rw [if_neg (by simp), if_neg (Path.ofParts_ne_empty _), Path.parent_ofParts hparts, List.dropLast_concat]
        exact hclimb

/-- A climb through packages that has reached the top goes on for ever: no number of steps is enough for it. -/
theorem leavePackages_endless (hparts : ∀ part ∈ parts, Path.IsPart part)
    (hall : ∀ front, front <+: parts → fs.isPackageDir (Path.ofParts front) = true) (fuel : Nat) :
    fs.leavePackages fuel (Path.ofParts parts) = .error .endless := by
  induction fuel generalizing parts with
  | zero => rfl
  | succ fuel ih =>
    rw [leavePackages, hall parts (List.prefix_refl parts), if_neg (by simp), if_neg (Path.ofParts_ne_empty _),
      Path.parent_ofParts hparts]
    refine ih (fun part hpart => hparts part (List.mem_of_mem_dropLast hpart)) fun front hfront => ?_
    exact hall front (hfront.trans (List.dropLast_prefix parts))

end FileSystem

/-! ## Faults of the search for roots -/

theorem Ignores.has_faults (ignores : Ignores) (name : String) : Faults Fault.Plain (ignores.has name) := by
  cases ignores with
  | unusable => exact faults_error trivial
  | _ => exact faults_ok _

theorem Ignores.discard_has_faults (ignores : Ignores) (name : String) :
    Faults Fault.Plain (discard (ignores.has name)) :=
  faults_map _ (ignores.has_faults name)

namespace FileSystem

variable {fs : FileSystem}

theorem isPackageRoot_faults (fs : FileSystem) (ignores : Ignores) (dir : String) :
    Faults Fault.Plain (fs.isPackageRoot ignores dir) := by
  have hin : ∀ name, Faults Fault.Plain (fs.isPackageIn ignores dir name) := by
    intro name
    unfold isPackageIn
    split
    · exact faults_ok _
    · refine faults_bind (ignores.has_faults name) fun ignored => ?_
      split
      · exact faults_ok _
      · exact faults_ok _
  unfold isPackageRoot
  split
  · exact faults_ok _
  · refine faults_bind (fs.names_faults dir) fun names => ?_
    rw [separate_ok]
    refine faults_bind (faults_ok _) fun groups => faults_bind (faults_forM ignores.discard_has_faults _) fun _ => ?_
    split
    · exact faults_ok _
    · exact faults_anyM hin _

theorem rootsBelow_faults (fs : FileSystem) (ignores : Ignores) (path : String) :
    Faults Fault.Plain (fs.rootsBelow ignores path) := by
  refine faults_bind (faults_forM (fun visit => ?_) _) fun _ => faults_ok _
  exact faults_bind (faults_forM ignores.discard_has_faults _) fun _ =>
    faults_map _ (fs.isPackageRoot_faults ignores visit.dir)

section

variable (htop : fs.isPackageDir "/" = false) (ignores : Ignores) (path : String)
include htop

theorem packageRoot_faults : Faults Fault.Plain (fs.packageRoot ignores (fs.realPath path)) := by
  obtain ⟨parts, hreal, hparts⟩ := fs.realPath_isPart path
  have hdir : ∃ dir, (∀ part ∈ dir, Path.IsPart part) ∧
      (if fs.isDir (fs.realPath path) then fs.realPath path else Path.parent (fs.realPath path)) =
        Path.ofParts dir := by
    rw [hreal]
    split
    · exact ⟨parts, hparts, rfl⟩
    · exact ⟨parts.dropLast, fun part hpart => hparts part (List.mem_of_mem_dropLast hpart), Path.parent_ofParts hparts⟩
  obtain ⟨dir, hdirParts, hdir⟩ := hdir
  have hfuel : dir.length < (Path.ofParts dir).length + 2 :=
    Nat.lt_add_right 1 (Nat.lt_succ_of_le (Path.length_le_ofParts dir))
  obtain ⟨front, _, hclimb⟩ := leavePackages_ok htop hdirParts hfuel
  unfold packageRoot
  rw [hdir]
  dsimp only
  rw [hclimb]
  refine faults_bind (faults_ok _) fun top => ?_
  split
  · exact faults_ok _
  · exact faults_bind (fs.isPackageRoot_faults ignores _) fun _ => faults_ok _

theorem rootsFor_faults : Faults Fault.Plain (fs.rootsFor ignores (fs.realPath path)) := by
  refine faults_bind (packageRoot_faults htop ignores path) fun root => ?_
  split
  · exact faults_ok _
  · split
    · exact faults_ok _
    · split
      · exact fs.rootsBelow_faults ignores _
      · exact faults_error trivial

theorem relativeTo_faults : Faults Fault.Plain (fs.relativeTo ignores path) := by
  refine faults_bind (packageRoot_faults htop ignores path) fun root => ?_
  split
  · exact faults_ok _
  · exact faults_ok _

end

end FileSystem

theorem Run.rootsOf_faults {s t : Session} (htop : s.files.isPackageDir "/" = false) (ignores : Ignores)
    (paths : List String) {fault : Fault} (h : Run.rootsOf ignores paths s = .error fault t) : fault.Plain := by
  unfold Run.rootsOf at h
  rw [bind_of_ok (rfl : Run.files s = .ok s.files s)] at h
  refine faultsIn_bind (faultsIn_mapM fun path _ => ?_) (fun _ => faultsIn_pure _) s fault t h
  refine faultsIn_bind (faultsIn_lift (FileSystem.rootsFor_faults htop ignores path)) fun roots => ?_
  split
  · exact faultsIn_bind (faultsIn_modify _) fun _ => faultsIn_pure _
  · exact faultsIn_pure _

end ImportAtlas
