import ImportAtlas.Proofs.Clusters
import ImportAtlas.Proofs.WrittenFiles

/-!
# Copied files

A file is copied to a target that does not exist, after the directory of the target has been made. Nothing else is
changed by that, unless the target goes around: it may then exist as soon as its directory has been made. What has been
delivered once stays delivered as the file system is extended.
-/

namespace ImportAtlas

open FileSystem

namespace Run

theorem change_of_ok {α : Type} {c : Change α} {a : α} {s : Session} {fs : FileSystem} (h : c s.files = .ok a fs) :
    change c s = .ok a { s with files := fs } := by
  unfold change
  rw [bind_of_ok (get_eq s), h]
  rfl

theorem change_of_error {α : Type} {c : Change α} {fault : Fault} {s : Session} {fs : FileSystem}
    (h : c s.files = .error fault fs) : change c s = .error fault { s with files := fs } := by
  unfold change
  rw [bind_of_ok (get_eq s), h]
  rfl

theorem printLine_files (text : String) (s : Session) : ∃ s', printLine text s = .ok () s' ∧ s'.files = s.files :=
  ⟨_, rfl, rfl⟩

end Run

namespace Tools

variable {T : String → Prop}

/-! ## One file -/

theorem guardTarget_cases {settings : CopySettings} (hkeep : settings.overwrite = false) (target : String)
    (s : Session) :
    (∃ s', guardTarget settings target s = .error (.exit (.code 1)) s' ∧ s'.files = s.files) ∨
      s.files.exists? target = false ∧ guardTarget settings target s = .ok () s := by
  unfold guardTarget
  rw [bind_of_ok (Run.files_eq s), hkeep]
  cases h : s.files.exists? target with
  | true => exact .inl ⟨_, rfl, rfl⟩
  | false => exact .inr ⟨rfl, rfl⟩

theorem readyDir_cases (target : String) (s : Session) :
    (∃ fault s', readyDir (Path.parent target) s = .error fault s' ∧ fault.Fatal ∧ ∀ T, Extends T s.files s'.files) ∨
      ∃ s', readyDir (Path.parent target) s = .ok () s' ∧ (∀ T, Extends T s.files s'.files) ∧
        (s'.files = s.files ∨ s'.files.LeadsToEmpty (Path.parent target) ∨
          Change.Roundabout (Path.parent target)) := by
  unfold readyDir
  generalize hdir : Path.parent target = dir
  have htrim : Path.trimmed dir = dir := hdir ▸ Path.trimmed_parent target
  have hleaves : ∀ T, Leaves (Extends T) Fault.Fatal (Change.makeDirs dir dir.length) :=
    fun T => Change.leaves_makeDirs dir.length htrim
  rw [bind_of_ok (Run.files_eq s)]
  split
  · cases h : Change.makeDirs dir dir.length s.files with
    | ok a fs => exact .inr ⟨_, Run.change_of_ok h, fun T => (hleaves T).ok h, Change.makeDirs_ok htrim h⟩
    | error fault fs =>
      have hfatal : fault.Fatal := ((hleaves fun _ => False).error h).2
      exact .inl ⟨fault, _, Run.change_of_error h, hfatal, fun T => ((hleaves T).error h).1⟩
  · exact .inr ⟨s, rfl, fun T => .refl T s.files, .inl rfl⟩

theorem copyFound_cases (source target : String) (s : Session) :
    (∃ fault s', copyFound source target s = .error fault s' ∧ fault.Fatal ∧ s'.files = s.files) ∨
    (s.files.exists? source = false ∧ ∃ s', copyFound source target s = .ok () s' ∧ s'.files = s.files) ∨
    ∃ e p, s.files.content source = .ok e ∧ s.files.writeSite target = .ok p ∧
      copyFound source target s = .ok () { s with files := s.files.put p e } := by
  unfold copyFound
  rw [bind_of_ok (Run.files_eq s)]
  cases h : s.files.exists? source with
  | true =>
    rw [if_pos rfl]
    rcases Change.copy_cases source target s.files with ⟨fault, hfatal, hcopy⟩ | ⟨e, p, he, hp, hcopy⟩
    · exact .inl ⟨fault, _, Run.change_of_error hcopy, hfatal, rfl⟩
    · exact .inr (.inr ⟨e, p, he, hp, Run.change_of_ok hcopy⟩)
  | false => exact .inr (.inl ⟨rfl, _, rfl, rfl⟩)

/-- The copy of a file. The target must not exist, but its directory may be missing. -/
theorem copyTo_cases {settings : CopySettings} (hkeep : settings.overwrite = false) (source target : String)
    (hT : Change.Roundabout (Path.parent target) → T target) (s : Session) :
    (∃ fault s', copyTo settings source target s = .error fault s' ∧ fault.Fatal ∧ Extends T s.files s'.files) ∨
    ∃ s', copyTo settings source target s = .ok () s' ∧ Extends T s.files s'.files ∧
      s.files.exists? target = false ∧
      ∀ e, s.files.locate source = .ok e → e.isPlain = true → s'.files.locate target = .ok e := by
  unfold copyTo
  rcases guardTarget_cases hkeep target s with ⟨s', hguard, hfiles⟩ | ⟨hnone, hguard⟩
  · exact .inl ⟨_, s', bind_of_error hguard _, nofun, hfiles ▸ .refl T s.files⟩
  rw [bind_of_ok hguard]
  rcases readyDir_cases target s with ⟨fault, s', hready, hfatal, hfirst⟩ | ⟨s₁, hready, hfirst, hdir⟩
  · exact .inl ⟨fault, s', bind_of_error hready _, hfatal, hfirst T⟩
  obtain ⟨s₂, hprint, hfiles⟩ := Run.printLine_files ("Copying: " ++ source) s₁
  rw [bind_of_ok hready, bind_of_ok hprint]
  rw [← hfiles] at hfirst hdir
  have hsource : ∀ e, s.files.locate source = .ok e → e.isPlain = true → s₂.files.locate source = .ok e := by
    intro e he hplain
    rcases (hfirst fun _ => False).locate he hplain with h | ⟨_, _, hfalse, _⟩
    · exact h
    · exact hfalse.elim
  rcases copyFound_cases source target s₂ with ⟨fault, s', hcopy, hfatal, hsame⟩ | ⟨hmissing, s', hcopy, hsame⟩ |
    ⟨e, p, he, hp, hcopy⟩
  · exact .inl ⟨fault, s', hcopy, hfatal, hsame ▸ hfirst T⟩
  · refine .inr ⟨s', hcopy, hsame ▸ hfirst T, hnone, fun e he hplain => ?_⟩
    obtain ⟨p, hp, _⟩ := place_of_locate (hsource e he hplain)
    cases hmissing.symm.trans (exists?_iff.2 ⟨p, hp⟩)
  · obtain ⟨hlocate, hplain⟩ := content_inv he
    refine .inr ⟨_, hcopy, extends_put_written (hfirst T) hnone hdir hT hp hplain, hnone, fun e' he' hplain' => ?_⟩
    cases hlocate.symm.trans (hsource e' he' hplain')
    exact locate_put hp hplain

theorem copyOne_cases (settings : CopySettings) (top : String) (root name : Value) (s : Session) :
    (∃ fault, copyOne settings top root name s = .error fault s ∧ fault.Fatal) ∨
      ∃ r n, root = .str r ∧ name = .str n ∧ copyOne settings top root name s =
        copyTo settings (Path.join r (copiedName s.files r n)) (Path.join top (copiedName s.files r n)) s := by
  have honly : ∀ v : Value, v.onlyText = .error .wrongKind ∨ ∃ text, v = .str text := by
    intro v
    cases v with
    | str text => exact .inr ⟨text, rfl⟩
    | _ => exact .inl rfl
  unfold copyOne
  rcases honly root with hroot | ⟨r, rfl⟩
  · exact .inl ⟨_, lift_bind_of_error hroot _ s, nofun⟩
  rw [lift_bind_of_ok (rfl : (Value.str r).onlyText = .ok r)]
  rcases honly name with hname | ⟨n, rfl⟩
  · exact .inl ⟨_, lift_bind_of_error hname _ s, nofun⟩
  rw [lift_bind_of_ok (rfl : (Value.str n).onlyText = .ok n), bind_of_ok (Run.files_eq s)]
  exact .inr ⟨r, n, rfl, rfl, rfl⟩

/-! ## What has been delivered -/

section

variable {fs₀ fs fs' : FileSystem}

/-- The target is what the source was at first, unless another of the paths, one that led nowhere at first, leads to the
target or to the source. -/
def Delivered (T : String → Prop) (fs₀ fs : FileSystem) (source target : String) : Prop :=
  ∀ e, fs₀.locate source = .ok e → e.isPlain = true → fs.locate target = .ok e ∨
    ∃ t p, T t ∧ t ≠ target ∧ fs₀.exists? t = false ∧ fs.place t = .ok p ∧
      (fs.place target = .ok p ∨ fs.place source = .ok p)

theorem Delivered.mono {source target : String} (h : Delivered T fs₀ fs source target) (hfirst : Extends T fs₀ fs)
    (hnext : Extends T fs fs') : Delivered T fs₀ fs' source target := by
  intro e he hplain
  rcases h e he hplain with htarget | ⟨t, p, ht, hne, hnew, hplace, hhit⟩
  · rcases hnext.locate htarget hplain with hkept | ⟨t, p, ht, hnew, hplace, hhit⟩
    · exact .inl hkept
    · -- the path is not that of the target, which did lead somewhere
      refine .inr ⟨t, p, ht, ?_, hfirst.not_exists? hnew, hplace, .inl hhit⟩
      rintro rfl
      obtain ⟨q, hq, _⟩ := place_of_locate htarget
      cases hnew.symm.trans (exists?_iff.2 ⟨q, hq⟩)
  · exact .inr ⟨t, p, ht, hne, hnew, hnext.place hplace, hhit.imp hnext.place hnext.place⟩

theorem copiedName_eq {root name : String} (h : Extends T fs₀ fs) {e : Entry}
    (he : fs₀.locate (Path.join root (copiedName fs₀ root name)) = .ok e) :
    copiedName fs root name = copiedName fs₀ root name := by
  have hdir : fs.isDir (Path.join root name) = fs₀.isDir (Path.join root name) := by
    unfold copiedName at he
    split at he
    · rename_i hdir
      obtain ⟨p, hp⟩ := place_of_isDir hdir
      obtain ⟨_, e', he', _⟩ := place_entry hp
      exact h.isDir_eq (locate_of_place hp he')
    · exact h.isDir_eq he
  unfold copiedName
  rw [hdir]

theorem delivered_of_copied {root name top : String} (hfirst : Extends T fs₀ fs) (hnext : Extends T fs fs')
    (hnone : fs.exists? (Path.join top (copiedName fs root name)) = false)
    (hcopied : ∀ e, fs.locate (Path.join root (copiedName fs root name)) = .ok e → e.isPlain = true →
      fs'.locate (Path.join top (copiedName fs root name)) = .ok e) :
    Delivered T fs₀ fs' (Path.join root (copiedName fs₀ root name)) (Path.join top (copiedName fs₀ root name)) := by
  intro e he hplain
  rw [copiedName_eq hfirst he] at hnone hcopied
  rcases hfirst.locate he hplain with hsource | ⟨t, p, ht, hnew, hplace, hhit⟩
  · exact .inl (hcopied e hsource hplain)
  · -- the source is lost already, to a path other than the target, which leads nowhere yet
    refine .inr ⟨t, p, ht, ?_, hnew, hnext.place hplace, .inr (hnext.place hhit)⟩
    rintro rfl
    cases hnone.symm.trans (exists?_iff.2 ⟨p, hplace⟩)

end

end Tools

end ImportAtlas
