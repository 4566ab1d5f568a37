import ImportAtlas.Proofs.CopiedFiles

/-!
# Runs that copy files

Every reference of the dependencies is copied once, in the order in which the references are met. What one copy leaves
is what the next one starts from, so that the files at the end are those of the start and the copies, and every copy
is what its source was at first. This fails only for targets that go astray: a target whose directory is reached by a
way round can turn out to exist when its directory has been made, and is written over then.
-/

namespace ImportAtlas

open FileSystem

/-! ## References -/

namespace Value

theorem eq_of_same_pair {r q : Value} {root name : String} (hkey : r.isKey = true)
    (hpair : r.pair = .ok (.str root, .str name)) (h : r.same q = true) : q = r := by
  cases r with
  | str text => exact same_str h
  | tuple items =>
    obtain ⟨others, rfl, hall⟩ := same_tuple h
    obtain ⟨parts, hparts, hpair⟩ := except_bind_inv hpair
    cases hparts
    split at hpair
    · cases hpair
      match others, hall with
      | [a, b], hall =>
        simp only [sameAll, Bool.and_eq_true] at hall
        rw [same_str hall.1, same_str hall.2.1]
      | [], hall => cases hall
      | [a], hall => simp [sameAll] at hall
      | a :: b :: c :: more, hall => simp [sameAll] at hall
    · cases hpair
  | list items => cases hkey
  | table names items => cases hkey
  | _ => cases hpair

end Value

namespace Depends

def Refers (input : String) (r : Value) : Prop := ∃ d refs, Reads input d ∧ d.parts = .ok refs ∧ r ∈ refs

theorem mem_of_mem_fresh {seen refs : List Value} {r : Value} (h : r ∈ (fresh seen refs).1) : r ∈ refs := by
  fun_induction fresh seen refs with
  | case1 seen => exact h
  | case2 seen q rest hkey => cases h
  | case3 seen q rest hkey hamong ih => exact List.mem_cons_of_mem q (ih h)
  | case4 seen q rest hkey hamong more fault hfresh ih =>
    rw [hfresh] at ih
    rcases List.mem_cons.1 h with rfl | h
    · exact List.mem_cons_self
    · exact List.mem_cons_of_mem q (ih h)

/-- If there is no fault, every reference is new or the same as one that has been seen. -/
theorem fresh_all {seen refs : List Value} (h : (fresh seen refs).2 = none) {r : Value} (hr : r ∈ refs) :
    r.isKey = true ∧ ∃ q ∈ seen ++ (fresh seen refs).1, q = r ∨ r.same q = true := by
  fun_induction fresh seen refs with
  | case1 seen => cases hr
  | case2 seen q rest hkey => cases h
  | case3 seen q rest hkey hamong ih =>
    rcases List.mem_cons.1 hr with rfl | hr
    · obtain ⟨p, hp, hsame⟩ := List.any_eq_true.1 hamong
      exact ⟨by simpa using hkey, p, List.mem_append_left _ hp, .inr hsame⟩
    · exact ih h hr
  | case4 seen q rest hkey hamong more fault hfresh ih =>
    rw [hfresh, List.append_assoc] at ih
    rcases List.mem_cons.1 hr with rfl | hr
    · exact ⟨by simpa using hkey, r, List.mem_append_right _ List.mem_cons_self, .inl rfl⟩
    · exact ih h hr

theorem step_fatal {seen : List Value} {d : Value} {fault : Fault} (h : (step seen d).2 = some fault) :
    fault.Fatal := by
  have hfresh : ∀ refs seen, (fresh seen refs).2 = some fault → fault.Fatal := by
    intro refs seen h
    fun_induction fresh seen refs with
    | case1 seen => cases h
    | case2 seen q rest hkey => cases h; exact nofun
    | case3 seen q rest hkey hamong ih => exact ih h
    | case4 seen q rest hkey hamong more fault' hfresh ih =>
      rw [hfresh] at ih
      exact ih h
  unfold step at h
  split at h
  · exact hfresh _ _ h
  · rename_i hparts
    cases h
    exact (d.parts_faults fault hparts).fatal

end Depends

namespace Run

theorem allValues_ends (text : String) (s : Session) :
    ∃ vs s', allValues text s = .ok vs s' ∧ s'.files = s.files ∧ ∀ v, v ∈ vs ↔ Depends.Reads text v := by
  unfold allValues foldValues
  refine foldlM_ends (fun (done : List Depends.Reading) (vs : List Value) (t : Session) =>
    t.files = s.files ∧ ∀ v, v ∈ vs ↔ ∃ r ∈ done, r.value = .ok v) ?_ ⟨rfl, by simp⟩
  rintro done r rest vs t _ ⟨hfiles, hvs⟩
  obtain ⟨line, value⟩ := r
  cases value with
  | ok v =>
    refine ⟨vs ++ [v], t, rfl, hfiles, fun w => ?_⟩
    simp [hvs, or_and_right, exists_or, eq_comm]
  | error e =>
    obtain ⟨t', ht', hquiet⟩ := message_quiet .warning (Depends.Reading.complaint ⟨line, .error e⟩) t
    refine ⟨vs, t', bind_of_ok ht' _, hquiet.alike.files.symm.trans hfiles, fun w => ?_⟩
    simp [hvs, or_and_right, exists_or]

section

variable {R : Session → Session → Prop} {Q : Fault → Prop} {use : Value → Value → Run Unit} {d : Value}

theorem useReferences_eq (use : Value → Value → Run Unit) (seen : List Value) (d : Value) :
    useReferences use seen d = ((Depends.step seen d).1.forM (useReference use) >>= fun _ =>
      match (Depends.step seen d).2 with
      | some fault => throw fault
      | none => pure (seen ++ (Depends.step seen d).1)) := rfl

theorem mem_of_mem_step {seen : List Value} {r : Value} (h : r ∈ (Depends.step seen d).1) :
    ∃ refs, d.parts = .ok refs ∧ r ∈ refs := by
  unfold Depends.step at h
  split at h
  · exact ⟨_, ‹_›, Depends.mem_of_mem_fresh h⟩
  · cases h

theorem leaves_useReferences (htrans : ∀ s t u, R s t → R t u → R s u) (hrefl : ∀ s, R s s)
    (huse : ∀ refs r, d.parts = .ok refs → r ∈ refs → Leaves R Fault.Fatal (useReference use r)) (seen : List Value) :
    Leaves R Fault.Fatal (useReferences use seen d) := by
  rw [useReferences_eq]
  refine leaves_bind htrans (leaves_forM htrans hrefl fun r hr => ?_) fun _ => ?_
  · obtain ⟨refs, hrefs, hr⟩ := mem_of_mem_step hr
    exact huse refs r hrefs hr
  · cases h : (Depends.step seen d).2 with
    | some fault => exact fun s => .error (hrefl s) (Depends.step_fatal h)
    | none => exact leaves_pure hrefl _

end

end Run

namespace Tools

/-! ## One reference after another -/

/-- The target of a reference of the input whose directory is reached by a way round. -/
def Astray (input top target : String) : Prop :=
  (∃ r root name, Depends.Refers input r ∧ r.pair = .ok (.str root, .str name) ∧
    (target = Path.join top name ∨ target = Path.join top (Path.join name "__init__.py"))) ∧
  Change.Roundabout (Path.parent target)

def Keeps (input top : String) (s t : Session) : Prop := Extends (Astray input top) s.files t.files

theorem keeps_of_eq {input top : String} {s t : Session} (h : t.files = s.files) : Keeps input top s t := by
  unfold Keeps
  rw [h]
  exact .refl _ _

theorem keeps_refl (input top : String) (s : Session) : Keeps input top s s := keeps_of_eq rfl

theorem keeps_trans (input top : String) (s t u : Session) (h : Keeps input top s t) (k : Keeps input top t u) :
    Keeps input top s u :=
  Extends.trans h k

def Copied (input top : String) (fs₀ fs : FileSystem) (r : Value) : Prop :=
  ∀ root name, r.pair = .ok (.str root, .str name) →
    Delivered (Astray input top) fs₀ fs (Path.join root (copiedName fs₀ root name))
      (Path.join top (copiedName fs₀ root name))

section

variable {settings : CopySettings} (hkeep : settings.overwrite = false) {input top : String} {r : Value}
  {fs₀ : FileSystem}

theorem Copied.mono {s t : Session} (h : Copied input top fs₀ s.files r)
    (hfirst : Extends (Astray input top) fs₀ s.files) (hnext : Keeps input top s t) :
    Copied input top fs₀ t.files r :=
  fun root name hpair => (h root name hpair).mono hfirst hnext

include hkeep

theorem copyReference_cases (hr : Depends.Refers input r) (s : Session) :
    (∃ fault s', Run.useReference (copyOne settings top) r s = .error fault s' ∧ Keeps input top s s' ∧ fault.Fatal) ∨
    ∃ s', Run.useReference (copyOne settings top) r s = .ok () s' ∧ Keeps input top s s' ∧
      ∀ fs₀, Extends (Astray input top) fs₀ s.files → Copied input top fs₀ s'.files r := by
  unfold Run.useReference Copied
  cases hpair : r.pair with
  | error fault => exact .inl ⟨fault, s, rfl, keeps_refl input top s, (r.pair_faults fault hpair).fatal⟩
  | ok values =>
    obtain ⟨root, name⟩ := values
    rw [lift_bind_of_ok rfl]
    rcases copyOne_cases settings top root name s with ⟨fault, hcopy, hfatal⟩ | ⟨root, name, rfl, rfl, hcopy⟩
    · exact .inl ⟨fault, s, hcopy, keeps_refl input top s, hfatal⟩
    · have hround : Change.Roundabout (Path.parent (Path.join top (copiedName s.files root name))) →
          Astray input top (Path.join top (copiedName s.files root name)) := by
        refine fun hround => ⟨⟨r, root, name, hr, hpair, ?_⟩, hround⟩
        unfold copiedName
        split
        · exact .inr rfl
        · exact .inl rfl
      rcases copyTo_cases hkeep (Path.join root (copiedName s.files root name)) _ hround s with
        ⟨fault, s', hto, hfatal, hextends⟩ | ⟨s', hto, hextends, hnone, hcopied⟩
      · exact .inl ⟨fault, s', hcopy.trans hto, hextends, hfatal⟩
      · refine .inr ⟨s', hcopy.trans hto, hextends, fun fs₀ hfirst root' name' hsame => ?_⟩
        cases hsame
        exact delivered_of_copied hfirst hextends hnone hcopied

theorem leaves_copyReference (hr : Depends.Refers input r) :
    Leaves (Keeps input top) Fault.Fatal (Run.useReference (copyOne settings top) r) := by
  intro s
  rcases @copyReference_cases settings hkeep input top r hr s with
    ⟨fault, s', hrun, hkeeps, hfatal⟩ | ⟨s', hrun, hkeeps, _⟩
  · rw [hrun]
    exact .error hkeeps hfatal
  · rw [hrun]
    exact .ok () hkeeps

theorem leaves_copyReferences {refs : List Value} (hrefs : ∀ r ∈ refs, Depends.Refers input r) :
    Leaves (Keeps input top) Fault.Fatal (refs.forM (Run.useReference (copyOne settings top))) :=
  leaves_forM (keeps_trans input top) (keeps_refl input top) fun r hr => leaves_copyReference hkeep (hrefs r hr)

theorem copied_of_forM {refs : List Value} (hrefs : ∀ r ∈ refs, Depends.Refers input r) {s s' : Session}
    (hfirst : Extends (Astray input top) fs₀ s.files)
    (h : refs.forM (Run.useReference (copyOne settings top)) s = .ok () s') :
    ∀ r ∈ refs, Copied input top fs₀ s'.files r := by
  induction refs generalizing s with
  | nil => exact List.forall_mem_nil _
  | cons r refs ih =>
    obtain ⟨hr, hrefs⟩ := List.forall_mem_cons.1 hrefs
    obtain ⟨_, s₁, hone, hrest⟩ := bind_inv h
    rcases @copyReference_cases settings hkeep input top r hr s with
      ⟨fault, s', hrun, _⟩ | ⟨s₁', hrun, hkeeps, hcopied⟩
    · cases hrun.symm.trans hone
    · cases hrun.symm.trans hone
      have hfirst₁ := hfirst.trans hkeeps
      have hnext := (leaves_copyReferences hkeep hrefs).ok hrest
      exact List.forall_mem_cons.2 ⟨(hcopied fs₀ hfirst).mono hfirst₁ hnext, ih hrefs hfirst₁ hrest⟩

theorem leaves_copyDependency {d : Value} (hd : Depends.Reads input d) (seen : List Value) :
    Leaves (Keeps input top) Fault.Fatal (Run.useReferences (copyOne settings top) seen d) :=
  Run.leaves_useReferences (keeps_trans input top) (keeps_refl input top)
    (fun refs _ hrefs hr => leaves_copyReference hkeep ⟨d, refs, hd, hrefs, hr⟩) seen

theorem leaves_copyDependencies {ds : List Value} (hds : ∀ d ∈ ds, Depends.Reads input d) (seen : List Value) :
    Leaves (Keeps input top) Fault.Fatal (ds.foldlM (Run.useReferences (copyOne settings top)) seen) :=
  leaves_foldlM (keeps_trans input top) (keeps_refl input top)
    (fun d hd seen => leaves_copyDependency hkeep (hds d hd) seen) seen

theorem copied_of_useReferences {d : Value} (hd : Depends.Reads input d) {seen seen' : List Value} {s s' : Session}
    (hfirst : Extends (Astray input top) fs₀ s.files) (hseen : ∀ r ∈ seen, Copied input top fs₀ s.files r)
    (h : Run.useReferences (copyOne settings top) seen d s = .ok seen' s') :
    (∀ r ∈ seen', Copied input top fs₀ s'.files r) ∧
      ∀ refs, d.parts = .ok refs → ∀ r ∈ refs, Copied input top fs₀ s'.files r := by
  rw [Run.useReferences_eq] at h
  obtain ⟨_, s₁, hrun, h⟩ := bind_inv h
  cases hfault : (Depends.step seen d).2 with
  | some fault => rw [hfault] at h; cases h
  | none =>
    rw [hfault] at h
    obtain ⟨rfl, rfl⟩ := pure_inv h
    have hnew : ∀ r ∈ (Depends.step seen d).1, Depends.Refers input r := by
      intro r hr
      obtain ⟨refs, hrefs, hr⟩ := Run.mem_of_mem_step hr
      exact ⟨d, refs, hd, hrefs, hr⟩
    have hnext := (leaves_copyReferences hkeep hnew).ok hrun
    have hall : ∀ r ∈ seen ++ (Depends.step seen d).1, Copied input top fs₀ s₁.files r := by
      intro r hr
      rcases List.mem_append.1 hr with hr | hr
      · exact (hseen r hr).mono hfirst hnext
      · exact copied_of_forM hkeep hnew hfirst hrun r hr
    refine ⟨hall, fun refs hrefs r hr root name hpair => ?_⟩
    have hstep : Depends.step seen d = Depends.fresh seen refs := by
      unfold Depends.step
      rw [hrefs]
    rw [hstep] at hfault hall
    -- a reference that is not new is the same as one that has been seen, and then it is that one
    obtain ⟨hkey, q, hq, hsame⟩ := Depends.fresh_all hfault hr
    have hqr : q = r := hsame.elim id (Value.eq_of_same_pair hkey hpair)
    exact hall r (hqr ▸ hq) root name hpair

theorem copied_of_foldlM {ds seen : List Value} (hds : ∀ d ∈ ds, Depends.Reads input d) {s s' : Session}
    (h : ds.foldlM (Run.useReferences (copyOne settings top)) [Depends.nothing] s = .ok seen s') :
    ∀ d ∈ ds, ∀ refs, d.parts = .ok refs → ∀ r ∈ refs, Copied input top s.files s'.files r := by
  have hrun : Keeps input top s s' ∧ (∀ r ∈ seen, Copied input top s.files s'.files r) ∧
      ∀ d ∈ ds, ∀ refs, d.parts = .ok refs → ∀ r ∈ refs, Copied input top s.files s'.files r := by
    -- all that has been seen is copied, and with it what the dependencies so far refer to
    refine foldlM_run (fun done seen t => Keeps input top s t ∧ (∀ r ∈ seen, Copied input top s.files t.files r) ∧
      ∀ d ∈ done, ∀ refs, d.parts = .ok refs → ∀ r ∈ refs, Copied input top s.files t.files r) ?_
      ⟨keeps_refl input top s, ?_, List.forall_mem_nil _⟩ h
    · rintro done d rest seen t seen' t' hsplit ⟨hfirst, hseen, hdone⟩ hstep
      have hd : Depends.Reads input d := hds d (by simp [← hsplit])
      have hnext := (leaves_copyDependency hkeep hd seen).ok hstep
      obtain ⟨hseen', hnow⟩ := copied_of_useReferences hkeep hd hfirst hseen hstep
      refine ⟨keeps_trans input top s t t' hfirst hnext, hseen', fun d' hd' refs hrefs r hr => ?_⟩
      rcases List.mem_append.1 hd' with hd' | hd'
      · exact (hdone d' hd' refs hrefs r hr).mono hfirst hnext
      · cases List.mem_singleton.1 hd'
        exact hnow refs hrefs r hr
    · -- the first of what has been seen is no pair of texts
      intro r hr root name hpair
      cases List.mem_singleton.1 hr
      cases hpair
  exact hrun.2.2

omit hkeep in
/-- The files that make packages are written only where nothing is. -/
theorem leaves_addInits (dir : String) : Leaves (Keeps input top) Fault.Fatal (addInits dir) := by
  unfold addInits
  refine leaves_bind (keeps_trans input top) (fun s => .ok s.files (keeps_refl input top s)) fun fs => ?_
  refine leaves_forM (keeps_trans input top) (keeps_refl input top) fun visit _ s => ?_
  rw [bind_of_ok (Run.files_eq s)]
  split
  · rename_i hmissing
    generalize hinit : Path.join visit.dir "__init__.py" = init at hmissing ⊢
    simp only [Bool.and_eq_true, Bool.not_eq_true'] at hmissing
    obtain ⟨s₁, hprint, hfiles⟩ := Run.printLine_files ("Creating: " ++ init) s
    rw [bind_of_ok hprint]
    rcases Change.write_cases init (.plain "") s₁.files with ⟨fault, hfatal, hwrite⟩ | ⟨p, hsite, hwrite⟩
    · rw [Run.change_of_error hwrite]
      exact .error (keeps_of_eq hfiles) hfatal
    · rw [Run.change_of_ok hwrite]
      refine .ok () (keeps_trans input top s s₁ _ (keeps_of_eq hfiles) ?_)
      rcases writeSite_cases hsite with hvacant | ⟨old, hplace, _⟩
      · exact extends_put_vacant hvacant _
      · rw [hfiles] at hplace
        cases hmissing.2.symm.trans (exists?_iff.2 ⟨p, hplace⟩)
  · exact .ok () (keeps_refl input top s)

theorem leaves_copyAll {ds : List Value} (hds : ∀ d ∈ ds, Depends.Reads input d) :
    Leaves (Keeps input top) Fault.Fatal (copyAll settings top ds) := by
  unfold copyAll
  refine leaves_bind (keeps_trans input top) (leaves_copyDependencies hkeep hds _) fun _ => ?_
  split
  · exact leaves_addInits top
  · exact leaves_pure (keeps_refl input top) ()

theorem copied_of_copyAll {ds : List Value} (hds : ∀ d, d ∈ ds ↔ Depends.Reads input d) {s s' : Session}
    (h : copyAll settings top ds s = .ok () s') {r : Value} (hr : Depends.Refers input r) :
    Copied input top s.files s'.files r := by
  have hreads : ∀ d ∈ ds, Depends.Reads input d := fun d => (hds d).1
  obtain ⟨d, refs, hd, hrefs, hr⟩ := hr
  obtain ⟨seen, s₁, hfold, hinits⟩ := bind_inv h
  have hcopied := copied_of_foldlM hkeep hreads hfold d ((hds d).2 hd) refs hrefs r hr
  have hfirst : Keeps input top s s₁ := (leaves_copyDependencies hkeep hreads _).ok hfold
  split at hinits
  · exact hcopied.mono hfirst ((leaves_addInits top).ok hinits)
  · obtain ⟨_, rfl⟩ := pure_inv hinits
    exact hcopied

end

/-! ## The program -/

section

variable {arguments : List String} {top : String} {settings : CopySettings}
  (hread : Options.read copyFlags arguments {} = .ok [top] settings) (hkeep : settings.overwrite = false)
include hread

theorem copy_eq (s : Session) : copy arguments s = (guardTarget settings top >>= fun _ => Run.takeInput >>= fun text =>
    Run.allValues text >>= copyAll settings top) s := by
  have hoptions : Run.ownOptions copyManual copyFlags {} arguments s = .ok (settings, [top]) s := by
    unfold Run.ownOptions Run.options
    rw [hread]
    rfl
  unfold copy
  rw [bind_of_ok hoptions]

include hkeep

theorem copy_cases (input : String) (s : Session) :
    (∃ fault s', copy arguments (started s input) = .error fault s' ∧ Keeps input top s s' ∧ fault.Fatal) ∨
      ∃ s', copy arguments (started s input) = .ok () s' ∧ Keeps input top s s' ∧
        ∀ r, Depends.Refers input r → Copied input top s.files s'.files r := by
  rw [copy_eq hread]
  rcases guardTarget_cases hkeep top (started s input) with ⟨s', hguard, hfiles⟩ | ⟨_, hguard⟩
  · exact .inl ⟨_, s', bind_of_error hguard _, keeps_of_eq hfiles, nofun⟩
  have htake : Run.takeInput (started s input) = .ok input (started s "") := rfl
  obtain ⟨ds, s₁, hvalues, hfiles, hds⟩ := Run.allValues_ends input (started s "")
  have hfirst : Keeps input top s s₁ := keeps_of_eq hfiles
  have hend : Left (Keeps input top) Fault.Fatal s₁ (copyAll settings top ds s₁) :=
    leaves_copyAll hkeep (fun d => (hds d).1) s₁
  rw [bind_of_ok hguard, bind_of_ok htake, bind_of_ok hvalues]
  cases hrun : copyAll settings top ds s₁ with
  | error fault s' =>
    rw [hrun] at hend
    cases hend with
    | error hnext hfatal => exact .inl ⟨fault, s', rfl, keeps_trans input top s s₁ s' hfirst hnext, hfatal⟩
  | ok _ s' =>
    rw [hrun] at hend
    cases hend with
    | ok _ hnext =>
      refine .inr ⟨s', rfl, keeps_trans input top s s₁ s' hfirst hnext, fun r hr => ?_⟩
      have hcopied := copied_of_copyAll hkeep hds hrun hr
      rw [hfiles] at hcopied
      exact hcopied

theorem execute_cases (input : String) (s : Session) :
    Keeps input top s (Program.copy.execute arguments input s).2 ∧
      ((Program.copy.execute arguments input s).1.status = .code 0 →
        ∀ r, Depends.Refers input r →
          Copied input top s.files (Program.copy.execute arguments input s).2.files r) := by
  unfold Program.execute
  rcases copy_cases hread hkeep input s with ⟨fault, s', hcopy, hkeeps, hfatal⟩ | ⟨s', hcopy, hkeeps, hcopied⟩
  · have hrun : Program.copy.run arguments (started s input) = .error fault s' := bind_of_error hcopy _
    unfold started at hrun
    cases fault with
    | exit status =>
      simp only [hrun]
      exact ⟨hkeeps, fun hstatus => absurd (congrArg Fault.exit hstatus) hfatal⟩
    | _ =>
      simp only [hrun]
      exact ⟨hkeeps, fun hstatus => by cases hstatus⟩
  · have hrun : Program.copy.run arguments (started s input) = .ok none s' := bind_of_ok hcopy _
    unfold started at hrun
    simp only [hrun]
    exact ⟨hkeeps, fun _ => hcopied⟩

end

/-- **Files are kept, and copies are faithful.** Without leave to overwrite, every file is after the run what it was
before, however the run ends, and if it ends well, every reference of the input has been copied as its source was
before. The one exception are targets that go astray, and every file that is lost is one to which such a target leads
that did not exist before. -/
theorem copies_keep_files {arguments : List String} {top : String} {settings : CopySettings}
    (hread : Options.read copyFlags arguments {} = .ok [top] settings) (hkeep : settings.overwrite = false)
    (input : String) (s : Session) :
    (∀ p e, s.files.root.get? p = some e → e.isPlain = true →
      (Program.copy.execute arguments input s).2.files.root.get? p = some e ∨
      ∃ t, Astray input top t ∧ s.files.exists? t = false ∧
        (Program.copy.execute arguments input s).2.files.place t = .ok p) ∧
    ((Program.copy.execute arguments input s).1.status = .code 0 →
      ∀ r root name, Depends.Refers input r → r.pair = .ok (.str root, .str name) →
        Delivered (Astray input top) s.files (Program.copy.execute arguments input s).2.files
          (Path.join root (copiedName s.files root name)) (Path.join top (copiedName s.files root name))) := by
  obtain ⟨hkeeps, hcopied⟩ := execute_cases hread hkeep input s
  exact ⟨fun p e hp he => hkeeps.plain hp he, fun hstatus r root name hr hpair => hcopied hstatus r hr root name hpair⟩

def detour : Session where
  files := {
    root := .dir [("work", .dir [
      ("f.py", .file (.plain "kept\n")),
      ("src", .dir [("f.py", .file (.plain "other\n")), ("sub", .emptyDir)])])]
    cwd := "/work" }

def detourInput : String :=
  Depends.page [.tuple [.tuple [.str "/work/src/sub", .str ".././f.py"], .tuple [.none, .none]]]

theorem detour_run : (Program.copy.execute ["out"] detourInput detour).1.status = .code 0 ∧
    (Program.copy.execute ["out"] detourInput detour).2.files.place "f.py" = .ok ["work", "f.py"] ∧
    ((Program.copy.execute ["out"] detourInput detour).2.files.read "f.py").toOption.map Source.text =
      some "other\n" :=
  ⟨by decide +kernel, eq_ok_of_toOption (by decide +kernel), by decide +kernel⟩

/-- The program ends well without leave to overwrite, and a file is lost. -/
theorem kept_file_overwritten : ∃ settings, Options.read copyFlags ["out"] {} = .ok ["out"] settings ∧
    settings.overwrite = false ∧ (Program.copy.execute ["out"] detourInput detour).1.status = .code 0 ∧
    (detour.files.read "f.py").toOption.map Source.text = some "kept\n" ∧
    ((Program.copy.execute ["out"] detourInput detour).2.files.read "f.py").toOption.map Source.text =
      some "other\n" :=
  ⟨{}, rfl, rfl, detour_run.1, by decide +kernel, detour_run.2.2⟩

theorem detour_strays :
    (∃ t, Astray detourInput "out" t ∧ detour.files.exists? t = false ∧
      (Program.copy.execute ["out"] detourInput detour).2.files.place t = .ok ["work", "f.py"]) ∧
    Delivered (Astray detourInput "out") detour.files (Program.copy.execute ["out"] detourInput detour).2.files
      (Path.join "/work/src/sub" (copiedName detour.files "/work/src/sub" ".././f.py"))
      (Path.join "out" (copiedName detour.files "/work/src/sub" ".././f.py")) := by
  obtain ⟨hframe, hfaithful⟩ := @copies_keep_files ["out"] "out" {} rfl rfl detourInput detour
  obtain ⟨hstatus, hplace, htext⟩ := detour_run
  constructor
  · rcases hframe ["work", "f.py"] (.file (.plain "kept\n")) rfl rfl with hkept | hstray
    · rw [FileSystem.read, locate_of_place hplace hkept] at htext
      exact absurd htext (by decide)
    · exact hstray
  · have hreads : Depends.Reads detourInput
        (.tuple [.tuple [.str "/work/src/sub", .str ".././f.py"], Depends.nothing]) :=
      (Depends.reads_page (by decide) _).2 List.mem_cons_self
    exact hfaithful hstatus _ _ _ ⟨_, _, hreads, rfl, List.mem_cons_self⟩ rfl

end Tools

end ImportAtlas
