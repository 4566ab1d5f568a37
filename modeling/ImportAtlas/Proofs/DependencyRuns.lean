import ImportAtlas.Proofs.AnalysisFaults
import ImportAtlas.Proofs.Climbs
import ImportAtlas.Proofs.FirstOccurrences
import ImportAtlas.Proofs.Following

/-!
# Runs that find dependencies

A run of the program that finds dependencies reads its options, puts the roots of the given paths before the search
path, searches, and prints what it found. All that it says besides goes to the messages. Where the top directory is no
package, a run that does not return has raised a fault.
-/

namespace ImportAtlas.Tools

open Session

/-! ## What only sends messages -/

theorem respects_message (level : Level) (text : String) : Respects Quiet (Run.message level text) :=
  Run.respects_of_quiet quiet_equivalence (fun _ _ h => h) (Run.message_quiet level text)

theorem respects_files : Respects Quiet Run.files :=
  Run.respects_files_of quiet_equivalence fun _ _ h => h.alike.files

theorem respects_misused {α : Type} (manual : Manual) (complaint : String) :
    Respects Quiet (Run.misused manual complaint : Run α) := by
  refine respects_bind quiet_equivalence ?_ fun _ => respects_throw quiet_equivalence _
  exact Run.respects_of_quiet quiet_equivalence (fun _ _ h => h) fun s => ⟨_, rfl, rfl, rfl⟩

theorem respects_checkPaths (paths : List String) : Respects Quiet (checkPaths paths) := by
  have hE := quiet_equivalence
  refine respects_bind hE (respects_message _ _) fun _ => respects_bind hE (respects_message _ _) fun _ => ?_
  refine respects_forM hE (fun path => ?_) paths
  refine respects_bind hE respects_files fun fs => respects_bind hE (respects_message _ _) fun _ => ?_
  split
  · exact respects_misused _ _
  · exact respects_pure hE ()

theorem respects_chooseLoudness (verbosity : Int) : Respects Quiet (Run.chooseLoudness verbosity) := by
  unfold Run.chooseLoudness
  split
  · exact Run.respects_of_quiet quiet_equivalence (fun _ _ h => h) fun s => ⟨_, rfl, rfl, rfl⟩
  · exact respects_throw quiet_equivalence _

theorem respects_rootsOf (ignores : Ignores) (paths : List String) : Respects Quiet (Run.rootsOf ignores paths) := by
  have hE := quiet_equivalence
  refine respects_bind hE respects_files fun fs => ?_
  refine respects_bind hE (respects_mapM hE (fun path => ?_) paths) fun _ => respects_pure hE _
  refine respects_bind hE (respects_lift hE _) fun roots => ?_
  split
  · exact respects_bind hE (respects_message _ _) fun _ => respects_pure hE _
  · exact respects_pure hE _

theorem respects_reportNames (level : Level) (title : String) (kind : ProblemKind) (problems : List Problem) :
    Respects Quiet (reportNames level title kind problems) := by
  have hE := quiet_equivalence
  unfold reportNames
  refine respects_bind hE (respects_mapM hE (fun v => respects_lift hE _) _) fun names => ?_
  split
  · refine respects_bind hE (respects_message _ _) fun _ => respects_bind hE (respects_message _ _) fun _ => ?_
    refine respects_forM hE (fun name => ?_) _
    exact respects_bind hE (respects_lift hE _) fun _ => respects_message _ _
  · exact respects_pure hE _

theorem respects_summarize (settings : DepsSettings) (found : Found) : Respects Quiet (summarize settings found) := by
  have hE := quiet_equivalence
  have hsay : ∀ {α : Type} (text : String) {x : Run α}, Respects Quiet x → Respects Quiet (info text >>= fun _ => x) :=
    fun text _ hx => respects_bind hE (respects_message .info text) fun _ => hx
  have hend : Respects Quiet (do
      info ""
      info "Found roots:"
      (rootsIn found.table).forM fun root => info ("  " ++ root)
      info "") := by
    refine hsay _ (hsay _ (respects_bind hE ?_ fun _ => respects_message _ _))
    exact respects_forM hE (fun root => respects_message _ _) _
  refine hsay _ (hsay _ (hsay _ ?_))
  refine respects_bind hE (respects_reportNames _ _ _ _) fun _ =>
    respects_bind hE (respects_reportNames _ _ _ _) fun _ => ?_
  split
  · exact respects_bind hE (respects_reportNames _ _ _ _) fun _ => hend
  · exact hend

/-! ## The steps of a run -/

/-- The settings as they are once loud and quiet have been weighed against each other. -/
def DepsSettings.weighed (settings : DepsSettings) : DepsSettings :=
  { settings with verbose := settings.verbose - settings.quiet }

def searchedPaths (paths : List String) : List String :=
  if paths.isEmpty then ["."] else paths

def greet (settings : DepsSettings) (paths : List String) : Run Unit := do
  let _ ← Run.chooseLoudness settings.weighed.verbose
  if paths.isEmpty then Run.message .warning "Searching for files from current directory."

def proceed (settings : DepsSettings) (paths : List String) : Run Unit := do
  if 0 < settings.internal && settings.external then
    Run.misused depsManual "Using --internal and --external at the same time does not make sense."
  if settings.printRoots then
    (← Run.rootsOf (.names settings.ignores) paths).forM Run.printLine
  else
    let found ← search settings paths
    Run.print (← Depends.written found.table)

def prepare (settings : DepsSettings) (paths : List String) : Run (List String) := do
  greet settings paths
  checkPaths (searchedPaths paths)
  prepareRoots settings.weighed (searchedPaths paths)

section

variable {arguments paths roots : List String} {settings : DepsSettings} {found : Found} {s s' t : Session}

theorem DepsSettings.Follows.weighed (hs : settings.Follows) : settings.weighed.Follows :=
  ⟨hs.follow, hs.internal, hs.external⟩

theorem respects_greet : Respects Quiet (greet settings paths) := by
  refine respects_bind quiet_equivalence (respects_chooseLoudness _) fun _ => ?_
  split
  · exact respects_message _ _
  · exact respects_pure quiet_equivalence ()

theorem deps_steps (hread : Options.read depsFlags arguments { ignores := s.ignores } = .ok paths settings) :
    deps arguments s = (greet settings paths >>= fun _ => proceed settings.weighed (searchedPaths paths))
      { s with ignores := settings.ignores } := by
  have hoptions : Run.options depsManual depsFlags { ignores := s.ignores }
      (fun settings s => { s with ignores := settings.ignores }) arguments s =
        .ok (settings, paths) { s with ignores := settings.ignores } := by
    unfold Run.options
    rw [hread]
    rfl
  unfold deps greet
  rw [bind_of_ok (Run.get_eq s)]
  dsimp only
  rw [bind_of_ok hoptions, bind_assoc]
  cases paths with
  | nil => rfl
  | cons path paths => rfl

theorem deps_inv (hread : Options.read depsFlags arguments { ignores := s.ignores } = .ok paths settings)
    (h : deps arguments s = .ok () s') :
    ∃ t, Quiet { s with ignores := settings.ignores } t ∧
      proceed settings.weighed (searchedPaths paths) t = .ok () s' := by
  rw [deps_steps hread] at h
  obtain ⟨_, t, _, q, h⟩ := respects_greet.bind_inv quiet_equivalence h
  exact ⟨t, q, h⟩

theorem proceed_inv (h : proceed settings paths s = .ok () s') :
    settings.printRoots = true ∧
        (Run.rootsOf (.names settings.ignores) paths >>= fun roots => roots.forM Run.printLine) s = .ok () s' ∨
      settings.printRoots = false ∧
        (search settings paths >>= fun found => liftM (Depends.written found.table) >>= Run.print) s = .ok () s' := by
  unfold proceed at h
  split at h
  · obtain ⟨_, _, hmisused, _⟩ := bind_inv h
    cases hmisused
  · split at h
    · rename_i hroots
      exact .inl ⟨hroots, h⟩
    · rename_i hroots
      exact .inr ⟨by simpa using hroots, h⟩

theorem prepareRoots_inv (h : prepareRoots settings paths s = .ok roots t) :
    (∃ s₁, Run.rootsOf (.names settings.ignores) paths s = .ok roots s₁) ∧
      Quiet { s with searchPath := roots.map .str ++ s.searchPath } t := by
  have hE := quiet_equivalence
  obtain ⟨roots', s₁, hroots, q₁, h⟩ := (respects_rootsOf _ paths).bind_inv hE h
  dsimp only at h
  split at h
  · obtain ⟨_, _, hmisused, _⟩ := bind_inv h
    cases hmisused
  obtain ⟨_, s₂, _, q₂, h⟩ := (respects_message .info "").bind_inv hE h
  obtain ⟨_, s₃, _, q₃, h⟩ := (respects_message .info _).bind_inv hE h
  obtain ⟨_, s₄, _, q₄, h⟩ :=
    (respects_forM hE (fun root => respects_message .info ("  " ++ root)) roots').bind_inv hE h
  obtain ⟨_, s₅, _, q₅, h⟩ := (respects_message .info "").bind_inv hE h
  obtain ⟨_, s₆, _, q₆, h⟩ := (respects_message .info _).bind_inv hE h
  have hquiet := hE.trans q₁ (hE.trans q₂ (hE.trans q₃ (hE.trans q₄ (hE.trans q₅ q₆))))
  rw [bind_of_ok (by rfl), bind_of_ok (by rfl)] at h
  obtain ⟨_, s₇, _, q₇, h⟩ := (respects_forM hE (fun dir : Value =>
    respects_bind hE (respects_lift hE dir.fillGap) fun text => respects_message .info ("  " ++ text)) _).bind_inv hE h
  obtain ⟨rfl, rfl⟩ := pure_inv h
  exact ⟨⟨s₁, hroots⟩, hE.trans (hquiet.searchingFirst _) q₇⟩

/-- The search is made in the same session with the roots before its search path. -/
theorem search_inv (h : search settings paths s = .ok found s') : ∃ roots start stop,
    (∃ s₁, Run.rootsOf (.names settings.ignores) paths s = .ok roots s₁) ∧
      Quiet { s with searchPath := roots.map .str ++ s.searchPath } start ∧
      findAll settings roots paths start = .ok found stop ∧ Quiet stop s' := by
  have hE := quiet_equivalence
  obtain ⟨_, s₁, _, q₁, h⟩ := (respects_checkPaths _).bind_inv hE h
  obtain ⟨roots, start, hprepare, h⟩ := bind_inv h
  obtain ⟨found', stop, hfind, h⟩ := bind_inv h
  obtain ⟨_, s₂, _, q₂, h⟩ := (respects_summarize _ found').bind_inv hE h
  obtain ⟨rfl, rfl⟩ := pure_inv h
  obtain ⟨⟨t, hroots⟩, q₃⟩ := prepareRoots_inv hprepare
  obtain ⟨t', hroots, _, _⟩ := (respects_rootsOf _ _).ok (hE.symm q₁) hroots
  exact ⟨roots, start, stop, ⟨t', hroots⟩, hE.trans (q₁.searchingFirst _) q₃, hfind, q₂⟩

end

/-! ## Where runs stop -/

section

variable {α β : Type} {arguments paths roots : List String} {settings : DepsSettings} {s t : Session} {fault : Fault}

theorem misused_raised (manual : Manual) (complaint : String) :
    FaultsIn Fault.Raised (Run.misused manual complaint : Run α) :=
  faultsIn_bind (faultsIn_modify _) fun _ => faultsIn_throw (by decide)

theorem options_raised {σ : Type} (manual : Manual) (flags : List (Flag σ)) (start : σ) (keep : σ → Session → Session)
    (arguments : List String) : FaultsIn Fault.Raised (Run.options manual flags start keep arguments) := by
  unfold Run.options
  split
  · exact faultsIn_bind (faultsIn_modify _) fun _ => faultsIn_pure _
  · refine faultsIn_bind (faultsIn_modify _) fun _ => ?_
    split
    · refine faultsIn_bind (faultsIn_modify _) fun _ => faultsIn_bind (faultsIn_throw (by decide)) fun _ => ?_
      exact misused_raised _ _
    · exact misused_raised _ _

theorem greet_raised : FaultsIn Fault.Raised (greet settings paths) := by
  refine faultsIn_bind ?_ fun _ => ?_
  · unfold Run.chooseLoudness
    split
    · exact faultsIn_bind (faultsIn_modify _) fun _ => faultsIn_pure _
    · exact faultsIn_throw (by decide)
  · split
    · exact Run.faultsIn_message _ _
    · exact faultsIn_pure _

theorem checkPaths_raised (paths : List String) : FaultsIn Fault.Raised (checkPaths paths) := by
  refine faultsIn_bind (Run.faultsIn_message _ _) fun _ => faultsIn_bind (Run.faultsIn_message _ _) fun _ => ?_
  refine faultsIn_forM fun path _ => ?_
  refine faultsIn_bind Run.faultsIn_files fun fs => faultsIn_bind (Run.faultsIn_message _ _) fun _ => ?_
  split
  · exact misused_raised _ _
  · exact faultsIn_pure _

def Shown (Q : Fault → Prop) (p : Problem) : Prop := Faults Q p.name.asKey ∧ Faults Q p.name.fillGap

theorem shown_plain (p : Problem) : Shown Fault.Plain p := ⟨p.name.asKey_faults, p.name.fillGap_faults⟩

theorem shown_of_named {Q : Fault → Prop} {p : Problem} (h : p.Named) : Shown Q p := by
  obtain ⟨name, hname⟩ := h
  rw [Shown, hname]
  exact ⟨faults_ok _, faults_ok _⟩

section

variable {Q : Fault → Prop} {found : Found} {problems : List Problem}

theorem reportNames_faults (h : ∀ p ∈ problems, Shown Q p) (level : Level) (title : String) (kind : ProblemKind) :
    FaultsIn Q (reportNames level title kind problems) := by
  have hnames : ∀ v ∈ (problems.filter (·.kind = kind)).map (·.name), Faults Q v.asKey ∧ Faults Q v.fillGap := by
    intro v hv
    obtain ⟨p, hp, rfl⟩ := List.mem_map.1 hv
    exact h p (List.mem_of_mem_filter hp)
  intro s fault t hrun
  rcases bind_error_inv hrun with hrun | ⟨keys, s₁, hkeys, hrun⟩
  · exact faultsIn_mapM (fun v hv => faultsIn_lift (hnames v hv).1) s fault t hrun
  · -- keys are the names themselves
    obtain rfl := eq_map_of_mapM (f := id) (fun _ _ => Value.eq_of_asKey)
      (mapM_inv (fun _ _ _ _ hkey => (lift_inv hkey).1) hkeys)
    refine (?_ : FaultsIn Q _) s₁ fault t hrun
    split
    · refine faultsIn_bind (Run.faultsIn_message _ _) fun _ => faultsIn_bind (Run.faultsIn_message _ _) fun _ => ?_
      refine faultsIn_forM fun name hname => ?_
      have hname := (Depends.sublist_distinct _).subset (List.mem_mergeSort.1 hname)
      rw [List.map_id] at hname
      exact faultsIn_bind (faultsIn_lift (hnames name hname).2) fun _ => Run.faultsIn_message _ _
    · exact faultsIn_pure _

theorem summarize_faults (settings : DepsSettings) (h : ∀ p ∈ found.problems, Shown Q p) :
    FaultsIn Q (summarize settings found) := by
  have hsay : ∀ {α : Type} (text : String) {x : Run α}, FaultsIn Q x → FaultsIn Q (info text >>= fun _ => x) :=
    fun text _ hx => faultsIn_bind (Run.faultsIn_message .info text) fun _ => hx
  have hend : FaultsIn Q (do
      info ""
      info "Found roots:"
      (rootsIn found.table).forM fun root => info ("  " ++ root)
      info "") := by
    refine hsay _ (hsay _ (faultsIn_bind ?_ fun _ => Run.faultsIn_message _ _))
    exact faultsIn_forM fun root _ => Run.faultsIn_message _ _
  refine hsay _ (hsay _ (hsay _ ?_))
  refine faultsIn_bind (reportNames_faults h _ _ _) fun _ => faultsIn_bind (reportNames_faults h _ _ _) fun _ => ?_
  split
  · exact faultsIn_bind (reportNames_faults h _ _ _) fun _ => hend
  · exact hend

end

theorem written_faults (table : Depends.Table) : Faults Fault.Plain (Depends.written table) := by
  refine faults_bind (faults_mapM (fun row => ?_) _) fun _ => faults_ok _
  refine faults_bind row.1.pair_faults fun source => faults_mapM (fun target => ?_) _
  exact faults_bind target.pair_faults fun _ => faults_ok _

theorem targets_faults (settings : DepsSettings) (s : Session) (file : String) :
    Faults Fault.Plain (targets settings s file) := by
  have hneeds : FaultsIn Fault.Plain (needsOf settings file) := by
    refine faultsIn_bind Run.faultsIn_files fun fs => ?_
    split
    · exact Run.dependenciesOf_faults _ _
    · exact faultsIn_pure _
  unfold targets
  split
  · exact faults_ok _
  · rename_i hrun
    exact faults_error (hneeds s _ _ hrun)

variable (htop : s.files.isPackageDir "/" = false)
include htop

theorem node_faults (settings : DepsSettings) (file : String) : Faults Fault.Plain (node settings s file) :=
  faults_map _ (FileSystem.relativeTo_faults htop _ _)

theorem prepareRoots_raised (h : prepareRoots settings paths s = .error fault t) : fault.Raised := by
  have hshow : ∀ dir : Value, FaultsIn Fault.Raised (do info ("  " ++ (← dir.fillGap)) : Run Unit) := fun dir =>
    faultsIn_bind (faultsIn_lift (dir.fillGap_faults.imp fun _ => Fault.Plain.raised)) fun _ => Run.faultsIn_message _ _
  rcases bind_error_inv h with h | ⟨roots, s₁, _, h⟩
  · exact (Run.rootsOf_faults htop _ _ h).raised
  · dsimp only at h
    split at h
    · rcases bind_error_inv h with h | ⟨_, _, hmisused, _⟩
      · exact misused_raised _ _ _ _ _ h
      · cases hmisused
    · refine (?_ : FaultsIn Fault.Raised _) s₁ fault t h
      refine faultsIn_bind (Run.faultsIn_message _ _) fun _ => faultsIn_bind (Run.faultsIn_message _ _) fun _ =>
        faultsIn_bind (faultsIn_forM fun root _ => Run.faultsIn_message _ _) fun _ =>
          faultsIn_bind (Run.faultsIn_message _ _) fun _ => faultsIn_bind (Run.faultsIn_message _ _) fun _ =>
            faultsIn_bind (faultsIn_modify _) fun _ => faultsIn_get_bind fun now => ?_
      exact faultsIn_bind (faultsIn_forM fun dir _ => hshow dir) fun _ => faultsIn_pure _

theorem findAll_faults (h : findAll settings roots paths s = .error fault t) : fault.Plain := by
  rcases findAll_cases settings roots paths s with ⟨_, _, hok⟩ | ⟨_, _, herror, _, path, _, _, _, hlike, hstop⟩
  · cases hok.symm.trans h
  · cases herror.symm.trans h
    rcases addSource_error hlike hstop with hstop | ⟨file, hstop⟩
    · exact targets_faults settings s path fault hstop
    · exact node_faults htop settings file fault hstop

theorem search_raised (h : search settings paths s = .error fault t) : fault.Raised := by
  rcases (respects_checkPaths _).bind_error_inv quiet_equivalence h with h | ⟨_, s₁, _, q₁, h⟩
  · exact checkPaths_raised _ _ _ _ h
  rw [q₁.alike.files] at htop
  rcases bind_error_inv h with h | ⟨roots, start, hprepare, h⟩
  · exact prepareRoots_raised htop h
  have hfiles : s₁.files = start.files := (prepareRoots_inv hprepare).2.alike.files
  rw [hfiles] at htop
  rcases bind_error_inv h with h | ⟨found, stop, _, h⟩
  · exact (findAll_faults htop h).raised
  · refine (?_ : FaultsIn Fault.Plain _) stop fault t h |>.raised
    exact faultsIn_bind (summarize_faults _ fun p _ => shown_plain p) fun _ => faultsIn_pure _

theorem proceed_raised (h : proceed settings paths s = .error fault t) : fault.Raised := by
  unfold proceed at h
  split at h
  · rcases bind_error_inv h with h | ⟨_, _, hmisused, _⟩
    · exact misused_raised _ _ _ _ _ h
    · cases hmisused
  · split at h
    · rcases bind_error_inv h with h | ⟨roots, s₁, _, h⟩
      · exact (Run.rootsOf_faults htop _ _ h).raised
      · exact faultsIn_forM (fun line _ => faultsIn_modify _) s₁ fault t h
    · rcases bind_error_inv h with h | ⟨found, s₁, _, h⟩
      · exact search_raised htop h
      · rcases lift_bind_error_inv h with h | ⟨text, _, h⟩
        · exact (written_faults _ fault h).raised
        · cases h

/-- **Every run ends.** Whatever the options, where the top directory is no package a run that does not return has
raised a fault: none of its loops goes on for ever. -/
theorem deps_raised (h : deps arguments s = .error fault t) : fault.Raised := by
  cases hread : Options.read depsFlags arguments { ignores := s.ignores } with
  | error misuse settings =>
    unfold deps at h
    rw [bind_of_ok (Run.get_eq s)] at h
    rcases bind_error_inv h with h | ⟨_, _, hoptions, _⟩
    · exact options_raised _ _ _ _ _ _ _ _ h
    · unfold Run.options at hoptions
      rw [hread] at hoptions
      obtain ⟨_, _, _, hoptions⟩ := bind_inv hoptions
      split at hoptions
      · cases hoptions
      · cases hoptions
  | ok paths settings =>
    rw [deps_steps hread] at h
    rcases respects_greet.bind_error_inv quiet_equivalence h with h | ⟨_, s₁, _, q, h⟩
    · exact greet_raised _ _ _ h
    · have hfiles : s.files = s₁.files := q.alike.files
      rw [hfiles] at htop
      exact proceed_raised htop h

end

/-! ## Two files that import each other -/

def plainImport (line : Int) (name : String) : Tree :=
  .node .importNames (.int line) [.list [.tuple [.plain (.str name), .plain .none]]]

def importsOnly (imports : List Tree) : Tree :=
  .node .program .none [.plain .none, .node .block .none [.list imports]]

def circle : Session where
  files := {
    root := .dir [("proj", .dir [
      ("a.py", .file { text := "import b\n", parse := .tree (importsOnly [plainImport 1 "b"]) }),
      ("b.py", .file { text := "import a\nimport sys\n",
                       parse := .tree (importsOnly [plainImport 1 "a", plainImport 2 "sys"]) })])]
    cwd := "/" }

def circleFiles : List String := ["/proj/a.py", "/proj/b.py", "/usr/lib/python2.7/sys"]

def followOnly : DepsSettings := { ignores := defaultIgnores, follow := true }

end ImportAtlas.Tools
