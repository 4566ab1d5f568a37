import ImportAtlas.Proofs.Listings

/-!
# Runs that follow targets

Where the top directory is no package, a run that follows all targets returns or raises a fault. If it returns, the
files that it has processed are the least set that holds the given ones and the targets of its own, and the lines that
it prints are the dependencies of these files. Where the top directory is a package, the climb from it never ends.
-/

namespace ImportAtlas.Tools

open Session

/-- **Followed dependencies.** A run returns, or a call in it raises a fault: it does not go on for ever. In a run that
returns the search has come to its end, the processed files are the least set that holds the given ones and is closed
under targets, each is processed once, and the printed lines are their dependencies, each once. -/
theorem deps_followed {arguments paths : List String} {settings : DepsSettings} {s : Session}
    (hread : Options.read depsFlags arguments { ignores := s.ignores } = .ok paths settings) (hs : settings.Follows)
    (hroots : settings.printRoots = false) (htop : s.files.isPackageDir "/" = false) :
    ((∃ s', deps arguments s = .ok () s') ∨ ∃ fault t, deps arguments s = .error fault t ∧ fault.Raised) ∧
    ∀ s', deps arguments s = .ok () s' → ∃ (roots : List String) (start : Session) (found : Found) (stop : Session)
        (ps : List Dependency),
      (∃ s₁, Run.rootsOf (.names settings.ignores) (searchedPaths paths) { s with ignores := settings.ignores } =
        .ok roots s₁) ∧
      start = { s with
        ignores := settings.ignores, searchPath := roots.map .str ++ s.searchPath, console := start.console } ∧
      findAll settings.weighed roots (searchedPaths paths) start = .ok found stop ∧
      found.fresh = [] ∧ found.processed.Nodup ∧
      IsLeast {files | asked (s.files.pythonFiles settings.ignores (searchedPaths paths)) ⊆ files ∧
        Closed settings.weighed start files} {f | f ∈ found.processed} ∧
      (∀ f ∈ found.processed, Answers settings.weighed start f) ∧
      s'.console.out = s.console.out ++ Depends.page (ps.map Dependency.value) ∧ ps.Nodup ∧
      ∀ p, p ∈ ps ↔ Drawn settings.weighed start found.processed p := by
  constructor
  · cases hrun : deps arguments s with
    | ok _ s' => exact .inl ⟨s', rfl⟩
    | error fault t => exact .inr ⟨fault, t, rfl, deps_raised htop hrun⟩
  · intro s' hrun
    obtain ⟨roots, start, found, stop, hinput, hstart, hfind, text, hwritten, hout⟩ :=
      Returns.searched ⟨arguments, hread, hrun⟩ hroots
    have hfiles : s.files = start.files := hstart.alike.files
    obtain ⟨h, hfresh⟩ := findAll_inv hs.weighed hfind
    obtain ⟨d, htable, hd⟩ := h.table
    rw [htable, d.written_table] at hwritten
    cases hwritten
    refine ⟨roots, start, found, stop, d.dependencies, hinput, hstart.eq.symm, hfind, hfresh, h.nodup, ?_,
      fun f hf => ?_, ?_, d.pairwise_dependencies.imp Dependency.Before.ne, fun p => ?_⟩
    · have hprocessed : {f | f ∈ found.processed} = {f | Reached settings.weighed start
          (asked (start.files.pythonFiles settings.weighed.ignores (searchedPaths paths))) f} :=
        Set.ext (h.mem_processed_iff hfresh)
      rw [hprocessed, hfiles]
      exact isLeast_reached
    · exact (findAll_ok_iff hs.weighed roots _ start).1 ⟨found, stop, hfind⟩ f ((h.mem_processed_iff hfresh f).1 hf)
    · rw [← h.alike.out, ← hstart.out] at hout
      exact hout
    · rw [d.mem_dependencies, hd]

theorem circle_followed : ∃ s', deps ["-f", "/proj/a.py"] circle = .ok () s' ∧
    ∃ (start : Session) (found : Found) (ps : List Dependency), found.fresh = [] ∧ found.processed.Nodup ∧
      "/proj/a.py" ∈ found.processed ∧
      IsLeast {files | asked (circle.files.pythonFiles defaultIgnores ["/proj/a.py"]) ⊆ files ∧
        Closed followOnly start files} {f | f ∈ found.processed} ∧
      s'.console.out = Depends.page (ps.map Dependency.value) ∧
      ∀ p, p ∈ ps ↔ Drawn followOnly start found.processed p := by
  have hread : Options.read depsFlags ["-f", "/proj/a.py"] { ignores := circle.ignores } =
      .ok ["/proj/a.py"] followOnly := rfl
  obtain ⟨s', _, hdeps, _⟩ := deps_ok ["/proj"] circleFiles hread (.inl rfl) rfl rfl (by decide +kernel)
    (by decide +kernel) (by decide +kernel)
  obtain ⟨_, hfollowed⟩ := deps_followed hread ⟨rfl, rfl, rfl⟩ rfl (by decide +kernel)
  obtain ⟨roots, start, found, stop, ps, _, _, _, hfresh, hnodup, hleast, _, hout, _, hps⟩ := hfollowed s' hdeps
  have hgiven : FileSystem.Found.file "/proj/a.py" ∈ circle.files.pythonFiles defaultIgnores ["/proj/a.py"] := by
    decide +kernel
  refine ⟨s', hdeps, start, found, ps, hfresh, hnodup, hleast.1.1 hgiven, hleast, ?_, hps⟩
  rw [hout]
  exact String.empty_append

def topPackage : Session where
  files := {
    root := .dir [("__init__.py", .file { text := "", parse := .tree (importsOnly []) }),
      ("a.py", .file { text := "", parse := .tree (importsOnly []) })]
    cwd := "/" }

/-- From a package at the top no number of steps is enough for the climb, and a run that is asked for roots prints
nothing else. -/
theorem endless_climb_and_roots_only : topPackage.files.isPackageDir "/" = true ∧
    (∀ fuel, topPackage.files.leavePackages fuel "/" = .error .endless) ∧
    (∃ t, deps ["-f", "/a.py"] topPackage = .error .endless t) ∧
    ∃ s', deps ["-f", "--print-roots", "/proj/a.py"] circle = .ok () s' ∧ s'.console.out = "/proj\n" := by
  have htop : topPackage.files.isPackageDir "/" = true := by decide +kernel
  refine ⟨htop, fun fuel => ?_, exists_of_faultOf (by decide +kernel), ?_⟩
  · have hall : ∀ front, front <+: [] → topPackage.files.isPackageDir (Path.ofParts front) = true := by
      intro front hfront
      rw [List.prefix_nil.1 hfront]
      exact htop
    exact FileSystem.leavePackages_endless (List.forall_mem_nil _) hall fuel
  · have hrun : ((do
        deps ["-f", "--print-roots", "/proj/a.py"]
        return (← get).console.out).run' circle).map id = some "/proj\n" := by decide +kernel
    obtain ⟨_, _, hrun, hout⟩ := exists_of_run' hrun
    obtain ⟨_, _, hdeps, hrun⟩ := bind_inv hrun
    cases hrun
    exact ⟨_, hdeps, hout⟩

end ImportAtlas.Tools
