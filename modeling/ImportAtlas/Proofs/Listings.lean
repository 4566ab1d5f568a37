import ImportAtlas.Proofs.DependencyRuns

/-!
# What a run lists

Whatever its settings, a run that returns prints the dependencies that it lists, each once and in order. Which these
are is said by the files, the search path and the settings alone.
-/

namespace ImportAtlas

def Depends.has (table : Depends.Table) (p : Dependency) : Bool :=
  table.any fun row => p.source.value.same row.1 && p.target.value.among row.2

/-! ## Targets among the sources -/

namespace Dictionary

/-- Targets stay if they are sources or say only that their source is there. -/
def amongSources (d : Dictionary) : Dictionary where
  rows := d.rows.map fun row => (row.1, row.2.filter fun t => t = Ref.nothing ∨ t ∈ d.rows.map (·.1))
  sources_nodup := by
    rw [List.map_map]
    exact d.sources_nodup
  targets_nodup := by
    intro row hrow
    obtain ⟨row', hrow', rfl⟩ := List.mem_map.1 hrow
    exact (d.targets_nodup row' hrow').filter _

theorem table_amongSources (d : Dictionary) : d.amongSources.table = Tools.amongSources d.table := by
  have hsources : d.table.map (·.1) = (d.rows.map (·.1)).map Ref.value := by
    simp [table]
  have hkeep : ∀ t : Ref, (t.value.same Depends.nothing || t.value.among (d.table.map (·.1))) =
      decide (t = Ref.nothing ∨ t ∈ d.rows.map (·.1)) := by
    intro t
    rw [hsources, Ref.among_values, Bool.decide_or]
    congr 1
    exact Ref.same_value t Ref.nothing
  have hrow : ∀ targets : List Ref, (targets.filter fun t => t = Ref.nothing ∨ t ∈ d.rows.map (·.1)).map Ref.value =
      (targets.map Ref.value).filter fun t => t.same Depends.nothing || t.among (d.table.map (·.1)) := by
    intro targets
    rw [List.filter_map]
    exact congrArg (List.map Ref.value) (List.filter_congr fun t _ => (hkeep t).symm)
  unfold Tools.amongSources
  rw [table, amongSources, List.map_map, table, List.map_map]
  exact List.map_congr_left fun row _ => congrArg (row.1.value, ·) (hrow row.2)

theorem mem_amongSources {d : Dictionary} {p : Dependency} : p ∈ d.amongSources ↔
    p ∈ d ∧ (p.target = Ref.nothing ∨ p.target ∈ d.rows.map (·.1)) := by
  constructor
  · rintro ⟨row, hrow, hsource, htarget⟩
    obtain ⟨row', hrow', rfl⟩ := List.mem_map.1 hrow
    obtain ⟨htarget, hkept⟩ := List.mem_filter.1 htarget
    exact ⟨⟨row', hrow', hsource, htarget⟩, by simpa using hkept⟩
  · rintro ⟨⟨row, hrow, hsource, htarget⟩, hkept⟩
    exact ⟨_, List.mem_map_of_mem hrow, hsource, List.mem_filter.2 ⟨htarget, by simpa using hkept⟩⟩

end Dictionary

theorem Dictionary.has_table (d : Dictionary) (p : Dependency) : Depends.has d.table p = true ↔ p ∈ d := by
  rw [Depends.has, table, List.any_map, List.any_eq_true]
  simp only [Function.comp_apply, Ref.same_value, Ref.among_values, Bool.and_eq_true, decide_eq_true_eq]
  rfl

theorem Holds.amongSources {table : Depends.Table} {P : Dependency → Prop} (h : Holds table P)
    (hfilled : Filled table) :
    Holds (Tools.amongSources table) fun p => P p ∧ (p.target = Ref.nothing ∨ ∃ q, P q ∧ q.source = p.target) := by
  obtain ⟨d, rfl, hd⟩ := h
  have hsource : ∀ r : Ref, r ∈ d.rows.map (·.1) ↔ ∃ q, P q ∧ q.source = r := by
    intro r
    constructor
    · intro hr
      obtain ⟨row, hrow, rfl⟩ := List.mem_map.1 hr
      -- a source of a filled table has a target, so it is the source of a dependency
      have hne : row.2.map Ref.value ≠ [] := hfilled _ (List.mem_map_of_mem hrow)
      obtain ⟨t, ht⟩ := List.exists_mem_of_ne_nil row.2 (by simpa using hne)
      exact ⟨⟨row.1, t⟩, (hd _).1 ⟨row, hrow, rfl, ht⟩, rfl⟩
    · rintro ⟨q, hq, rfl⟩
      obtain ⟨row, hrow, hsource, _⟩ := (hd q).2 hq
      rw [hsource]
      exact List.mem_map_of_mem hrow
  refine ⟨d.amongSources, d.table_amongSources.symm, fun p => ?_⟩
  rw [Dictionary.mem_amongSources, hd, hsource]

namespace Tools

open Session

/-! ## Dependencies that are listed -/

section

variable (settings : DepsSettings) (roots : List String) (s : Session) (given : Set String)

def Charted (p : Dependency) : Prop := ∃ f, Visited settings roots s given f ∧ Draws settings roots s f p

/-- If inner dependencies are asked for twice, only targets that are sources too are listed. -/
def Listed (p : Dependency) : Prop :=
  Charted settings roots s given p ∧
    (2 ≤ settings.internal → p.target = Ref.nothing ∨ ∃ q, Charted settings roots s given q ∧ q.source = p.target)

end

section

variable {settings settings' : DepsSettings} {roots roots' paths : List String} {s t start stop : Session}
  {given : Set String} {f : String} {p : Dependency} {found : Tools.Found}

theorem findAll_listed (hrun : findAll settings roots paths start = .ok found stop) : Alike start stop ∧
    (∀ f, Visited settings roots start (asked (start.files.pythonFiles settings.ignores paths)) f →
      Fit settings roots start f) ∧
    Holds found.table (Listed settings roots start (asked (start.files.pythonFiles settings.ignores paths))) := by
  obtain ⟨all, h, hfresh, rfl⟩ := findAll_progress hrun
  have hcharted : Holds all.table
      (Charted settings roots start (asked (start.files.pythonFiles settings.ignores paths))) := by
    refine h.table.congr fun p => ?_
    simp only [h.mem_processed_iff hfresh]
    rfl
  refine ⟨h.alike, fun f hf => h.fit f ((h.mem_processed_iff hfresh f).2 hf), ?_⟩
  split
  · rename_i htwice
    exact (hcharted.amongSources h.filled).congr fun p => by rw [Listed, imp_iff_right htwice]
  · rename_i hless
    exact hcharted.congr fun p => (and_iff_left fun htwice => absurd htwice hless).symm

/-- Files stay visited where what they bring is brought too. -/
theorem Visited.mono (h : Visited settings roots s given f) (hfollow : settings.follow = true → settings'.follow = true)
    (hbrings : ∀ f d, Brings settings roots s f d → Brings settings' roots' t f d) :
    Visited settings' roots' t given f := by
  induction h with
  | given hf => exact .given hf
  | target hf _ hd ih => exact .target (hfollow hf) ih (hbrings _ _ hd)

theorem visited_congr (hfollow : settings.follow = settings'.follow)
    (hbrings : ∀ f d, Brings settings roots s f d ↔ Brings settings' roots' t f d) :
    Visited settings roots s given f ↔ Visited settings' roots' t given f :=
  ⟨fun h => h.mono (hfollow ▸ ·) fun f d => (hbrings f d).1, fun h => h.mono (hfollow ▸ ·) fun f d => (hbrings f d).2⟩

theorem charted_congr (hfollow : settings.follow = settings'.follow)
    (hbrings : ∀ f d, Brings settings roots s f d ↔ Brings settings' roots' t f d)
    (hdraws : ∀ f p, Draws settings roots s f p ↔ Draws settings' roots' t f p) :
    Charted settings roots s given p ↔ Charted settings' roots' t given p :=
  exists_congr fun f => and_congr (visited_congr hfollow hbrings) (hdraws f p)

/-- Inner and outer dependencies exclude each other. -/
theorem Charted.external_eq (h : Charted settings roots s given p) (hinternal : 0 < settings.internal) :
    settings.external = false := by
  obtain ⟨_, _, _, _, ⟨hexternal, _⟩ | ⟨_, _, _, _, _, hinside, houtside⟩⟩ := h
  · exact hexternal
  · exact Bool.eq_false_iff.2 fun hexternal => houtside hexternal (hinside hinternal)

theorem Charted.target (h : Charted settings roots s given p) (hfollow : settings.follow = true)
    (hexternal : settings.external = false) (hsome : p.target ≠ Ref.nothing) :
    Charted settings roots s given ⟨p.target, Ref.nothing⟩ := by
  obtain ⟨f, hvisited, hsource, hshows, hdrawn⟩ := h
  obtain ⟨ds, hds, d, hd, htarget, haccepts⟩ := hdrawn.resolve_left fun h => hsome h.2
  -- the target's own file was visited after `f`, under the same reference
  have hbrings : Brings settings roots s f d := ⟨⟨_, hsource, hshows⟩, ds, hds, hd, _, htarget, haccepts⟩
  exact ⟨d, .target hfollow hvisited hbrings, htarget, haccepts.1, .inl ⟨hexternal, rfl⟩⟩

theorem brings_alike (h : Alike s t) : Brings settings roots t = Brings settings roots s := by
  funext f d
  rw [Brings, Brings, node_alike h, targets_alike h]

theorem visited_alike (h : Alike s t) : Visited settings roots t given f ↔ Visited settings roots s given f :=
  visited_congr rfl fun f d => by rw [brings_alike h]

theorem fit_alike (h : Alike s t) : Fit settings roots t f ↔ Fit settings roots s f := by
  rw [Fit, Fit, node_alike h, targets_alike h]

theorem listed_alike (h : Alike s t) : Listed settings roots t given p ↔ Listed settings roots s given p := by
  have hcharted : ∀ p, Charted settings roots t given p ↔ Charted settings roots s given p := by
    intro p
    refine charted_congr rfl (fun f d => by rw [brings_alike h]) fun f p => ?_
    rw [Draws, Draws, node_alike h, targets_alike h]
  simp only [Listed, hcharted]

end

/-! ## Runs that return -/

def plainly : DepsSettings := { ignores := defaultIgnores }

section

variable (settings : DepsSettings) (paths : List String) (s s' : Session)

def Returns : Prop :=
  ∃ arguments, Options.read depsFlags arguments { ignores := s.ignores } = .ok paths settings ∧
    deps arguments s = .ok () s'

def InputRoots (roots : List String) : Prop :=
  ∃ s', Run.rootsOf (.names settings.ignores) (searchedPaths paths) { s with ignores := settings.ignores } =
    .ok roots s'

def givenFiles : Set String := asked (s.files.pythonFiles settings.ignores (searchedPaths paths))

def rooted (roots : List String) : Session :=
  { s with ignores := settings.ignores, searchPath := roots.map .str ++ s.searchPath }

def Printed (ps : List Dependency) : Prop :=
  s'.console.out = s.console.out ++ Depends.page (ps.map Dependency.value)

structure Listing (roots : List String) (ps : List Dependency) : Prop where
  input : InputRoots settings paths s roots
  fit : ∀ f, Visited settings.weighed roots (rooted settings s roots) (givenFiles settings paths s) f →
    Fit settings.weighed roots (rooted settings s roots) f
  printed : Printed s s' ps
  sorted : ps.Pairwise Dependency.Before
  mem_iff : ∀ p, p ∈ ps ↔ Listed settings.weighed roots (rooted settings s roots) (givenFiles settings paths s) p

end

section

variable {settings : DepsSettings} {paths roots : List String} {s s' t : Session}

theorem forM_printLine (texts : List String) (s : Session) : ∃ t,
    texts.forM Run.printLine s = .ok () t ∧ t.console.out = s.console.out ++ String.join (texts.map (· ++ "\n")) := by
  induction texts generalizing s with
  | nil => exact ⟨s, rfl, by simp⟩
  | cons text texts ih =>
    obtain ⟨t, ht, hout⟩ := ih { s with console := s.console.print (text ++ "\n") }
    refine ⟨t, ht, hout.trans ?_⟩
    simp [Console.print, String.append_assoc]

theorem InputRoots.unique {roots' : List String} (h : InputRoots settings paths s roots)
    (h' : InputRoots settings paths s roots') : roots = roots' := by
  obtain ⟨_, h⟩ := h
  obtain ⟨_, h'⟩ := h'
  cases h.symm.trans h'
  rfl

theorem InputRoots.of_quiet (hquiet : Quiet { s with ignores := settings.ignores } t)
    (h : Run.rootsOf (.names settings.ignores) (searchedPaths paths) t = .ok roots s') :
    InputRoots settings paths s roots := by
  obtain ⟨t', h, _, _⟩ := (respects_rootsOf _ _).ok (quiet_equivalence.symm hquiet) h
  exact ⟨t', h⟩

theorem Returns.roots_printed (h : Returns settings paths s s') (hroots : settings.printRoots = true) :
    ∃ roots, InputRoots settings paths s roots ∧
      s'.console.out = s.console.out ++ String.join (roots.map (· ++ "\n")) := by
  obtain ⟨arguments, hread, hdeps⟩ := h
  obtain ⟨t, q, hproceed⟩ := deps_inv hread hdeps
  obtain ⟨_, hprint⟩ | ⟨hroots', _⟩ := proceed_inv hproceed
  · obtain ⟨roots, t₁, hrootsOf, q₁, hprint⟩ := (respects_rootsOf _ _).bind_inv quiet_equivalence hprint
    obtain ⟨t₂, hlines, hout⟩ := forM_printLine roots t₁
    cases hlines.symm.trans hprint
    refine ⟨roots, .of_quiet q hrootsOf, hout.trans ?_⟩
    rw [← q₁.out, ← q.out]
  · cases hroots.symm.trans hroots'

/-- Runs that print roots do not differ by what they would list. -/
theorem Returns.out_of_printRoots {settings' : DepsSettings} {s'' : Session} (h : Returns settings paths s s')
    (h' : Returns settings' paths s s'') (hignores : settings.ignores = settings'.ignores)
    (hroots : settings.printRoots = true) (hroots' : settings'.printRoots = true) :
    s'.console.out = s''.console.out := by
  obtain ⟨roots, hinput, hout⟩ := h.roots_printed hroots
  obtain ⟨roots', hinput', hout'⟩ := h'.roots_printed hroots'
  unfold InputRoots at hinput
  rw [hignores] at hinput
  rw [hout, hout', InputRoots.unique hinput hinput']

/-- A run that lists dependencies has made a search, in a session from which only messages part the one that it began
in, and has written what the search found. -/
theorem Returns.searched (h : Returns settings paths s s') (hroots : settings.printRoots = false) :
    ∃ roots start found stop, InputRoots settings paths s roots ∧ Quiet (rooted settings s roots) start ∧
      findAll settings.weighed roots (searchedPaths paths) start = .ok found stop ∧
      ∃ text, Depends.written found.table = .ok text ∧ s'.console.out = stop.console.out ++ text := by
  obtain ⟨arguments, hread, hdeps⟩ := h
  obtain ⟨t, q, hproceed⟩ := deps_inv hread hdeps
  obtain ⟨hroots', _⟩ | ⟨_, hprint⟩ := proceed_inv hproceed
  · cases hroots.symm.trans hroots'
  obtain ⟨found, t₁, hsearch, hprint⟩ := bind_inv hprint
  obtain ⟨roots, start, stop, ⟨_, hrootsOf⟩, q₁, hfind, q₂⟩ := search_inv hsearch
  obtain ⟨text, hwritten, hprint⟩ := lift_bind_inv hprint
  refine ⟨roots, start, found, stop, .of_quiet q hrootsOf, quiet_equivalence.trans (q.searchingFirst _) q₁, hfind,
    text, hwritten, ?_⟩
  cases hprint
  rw [q₂.out]
  rfl

theorem Returns.listing (h : Returns settings paths s s') (hroots : settings.printRoots = false) :
    ∃ roots ps, Listing settings paths s s' roots ps := by
  obtain ⟨roots, start, found, stop, hinput, q, hfind, text, hwritten, hout⟩ := h.searched hroots
  obtain ⟨hstop, hfit, d, htable, hd⟩ := findAll_listed hfind
  rw [htable, d.written_table] at hwritten
  cases hwritten
  have hstart := q.alike
  rw [← hstart.files] at hfit hd
  refine ⟨roots, d.dependencies, hinput, fun f hf => ?_, ?_, d.pairwise_dependencies, fun p => ?_⟩
  · exact (fit_alike hstart).1 (hfit f ((visited_alike hstart).2 hf))
  · rw [← hstop.out, ← hstart.out] at hout
    exact hout
  · rw [d.mem_dependencies, hd, listed_alike hstart]
    rfl

theorem Printed.unique {ps ps' : List Dependency} (h : Printed s s' ps) (h' : Printed s s' ps') : ps = ps' := by
  have hpage : Depends.page (ps.map Dependency.value) = Depends.page (ps'.map Dependency.value) :=
    (String.append_right_inj _).1 (h.symm.trans h')
  -- a page is read back as the values on it
  have hread := Depends.allValues_page (Dependency.isLiteral_values ps) s
  rw [hpage, Depends.allValues_page (Dependency.isLiteral_values ps') s] at hread
  injection hread with hvalues
  exact (Dependency.value_injective.list_map hvalues).symm

end

/-! ## What is enough for a run to return -/

section

variable {arguments paths roots : List String} {settings : DepsSettings} {s s' t t₁ : Session} {found : Tools.Found}
  {ps : List Dependency} (hread : Options.read depsFlags arguments { ignores := s.ignores } = .ok paths settings)
  (hone : settings.internal = 0 ∨ settings.external = false) (hroots : settings.printRoots = false)
include hread hone hroots

/-- What a search has found can always be written. -/
theorem deps_of_search (hgreet : greet settings paths { s with ignores := settings.ignores } = .ok () t₁)
    (hsearch : search settings.weighed (searchedPaths paths) t₁ = .ok found t) :
    ∃ s' ps, deps arguments s = .ok () s' ∧ Printed s s' ps ∧ ∀ p, p ∈ ps ↔ Depends.has found.table p = true := by
  obtain ⟨_, _, q₁, _⟩ := respects_greet.ok (quiet_equivalence.refl _) hgreet
  obtain ⟨_, start, stop, _, q₂, hfind, q₃⟩ := search_inv hsearch
  obtain ⟨hstop, _, d, htable, _⟩ := findAll_listed hfind
  have hkinds : ¬ (decide (0 < settings.weighed.internal) && settings.weighed.external) = true := by
    obtain h | h := hone <;> simp [DepsSettings.weighed, h]
  have hprint : ¬ settings.weighed.printRoots = true := by
    simp [DepsSettings.weighed, hroots]
  have hout : s.console.out = t.console.out := q₁.out.trans (q₂.out.trans (hstop.out.trans q₃.out))
  rw [deps_steps hread, bind_of_ok hgreet, proceed, if_neg hkinds, if_neg hprint]
  dsimp only
  rw [bind_of_ok hsearch, htable, lift_bind_of_ok d.written_table]
  refine ⟨_, d.dependencies, rfl, ?_, fun p => (d.mem_dependencies p).trans (d.has_table p).symm⟩
  rw [Printed, hout]
  rfl

/-- Which lines a run prints can be seen in the table that its search has found. -/
theorem deps_returns (lines : List Dependency) (present : List Bool)
    (h : ((greet settings paths >>= fun _ => search settings.weighed (searchedPaths paths)).run'
      { s with ignores := settings.ignores }).map (fun found => lines.map (Depends.has found.table)) = some present) :
    ∃ s' ps, deps arguments s = .ok () s' ∧ Printed s s' ps ∧ lines.map (fun p => decide (p ∈ ps)) = present := by
  obtain ⟨found, t, hrun, rfl⟩ := exists_of_run' h
  obtain ⟨_, t₁, hgreet, hsearch⟩ := bind_inv hrun
  obtain ⟨s', ps, hdeps, hprinted, hps⟩ := deps_of_search hread hone hroots hgreet hsearch
  refine ⟨s', ps, hdeps, hprinted, List.map_congr_left fun p _ => ?_⟩
  rw [Bool.eq_iff_iff, decide_eq_true_iff, hps]

end

def closedIn (settings : DepsSettings) (s : Session) (files : List String) (f : String) : Bool :=
  match targets settings s f, node settings s f with
  | .ok ds, .ok _ => ds.all (· ∈ files)
  | _, _ => false

section

variable {arguments paths roots files : List String} {settings : DepsSettings} {s s' t : Session} {f : String}
  {ps : List Dependency}

theorem closedIn_inv (h : closedIn settings s files f = true) : ∃ ds n, targets settings s f = .ok ds ∧
    node settings s f = .ok n ∧ ∀ d ∈ ds, d ∈ files := by
  unfold closedIn at h
  split at h
  · rename_i ds n hds hn
    exact ⟨ds, n, hds, hn, by simpa using h⟩
  · cases h

theorem Fit.of_closedIn (hclosed : files.all (closedIn settings s files) = true) (hf : f ∈ files) :
    Fit settings roots s f := by
  rw [List.all_eq_true] at hclosed
  obtain ⟨ds, n, hds, hn, hmem⟩ := closedIn_inv (hclosed f hf)
  refine ⟨ds, n, hds, hn, fun _ d hd => ?_⟩
  obtain ⟨_, r, _, hr, _⟩ := closedIn_inv (hclosed d (hmem d hd))
  exact ⟨r, hr⟩

theorem Visited.mem_of_closedIn {given : Set String} (h : Visited settings roots s given f)
    (hclosed : files.all (closedIn settings s files) = true) (hgiven : ∀ f ∈ given, f ∈ files) : f ∈ files := by
  rw [List.all_eq_true] at hclosed
  induction h with
  | given hf => exact hgiven _ hf
  | target _ _ hbrings ih =>
    obtain ⟨_, ds, hds, hd, _⟩ := hbrings
    obtain ⟨_, _, hds', _, hmem⟩ := closedIn_inv (hclosed _ ih)
    cases hds.symm.trans hds'
    exact hmem _ hd

theorem summarize_ok (hunused : settings.ignoreUnused = false) {start stop : Session} {found : Tools.Found}
    (hfind : findAll settings roots paths start = .ok found stop) : ∃ t, summarize settings found stop = .ok () t := by
  obtain ⟨all, h, _, rfl⟩ := findAll_progress hfind
  have hnamed : ∀ p ∈ (if 2 ≤ settings.internal then { all with table := amongSources all.table } else all).problems,
      Shown (fun _ => False) p := by
    intro p hp
    refine shown_of_named (h.named hunused p ?_)
    split at hp <;> exact hp
  obtain ⟨_, t, ht⟩ := (summarize_faults settings hnamed).ok stop
  exact ⟨t, ht⟩

/-- **Runs that return.** A run that has made its preparations returns if there are files, the given ones among them,
that have their references and only targets among themselves. No summary stops it, if imports are not left out. -/
theorem deps_ok (roots files : List String)
    (hread : Options.read depsFlags arguments { ignores := s.ignores } = .ok paths settings)
    (hone : settings.internal = 0 ∨ settings.external = false) (hroots : settings.printRoots = false)
    (hunused : settings.ignoreUnused = false)
    (hprepare : (prepare settings paths).run' { s with ignores := settings.ignores } = some roots)
    (hgiven : ∀ item ∈ s.files.pythonFiles settings.ignores (searchedPaths paths), item ∈ files.map .file)
    (hclosed : files.all (closedIn settings.weighed (rooted settings s roots) files) = true) :
    ∃ s' ps, deps arguments s = .ok () s' ∧ Listing settings paths s s' roots ps := by
  have hE := quiet_equivalence
  obtain ⟨roots', start, hrun, hsame⟩ := exists_of_run' (f := id) ((congrArg (Option.map id) hprepare).trans rfl)
  obtain rfl : roots = roots' := hsame.symm
  obtain ⟨_, t₁, hgreet, q₁, hrun⟩ := respects_greet.bind_inv hE hrun
  obtain ⟨_, t₂, hcheck, q₂, hrun⟩ := (respects_checkPaths _).bind_inv hE hrun
  obtain ⟨⟨_, hrootsOf⟩, q₃⟩ := prepareRoots_inv hrun
  have hstart : Alike (rooted settings s roots) start :=
    Quiet.alike (hE.trans ((hE.trans q₁ q₂).searchingFirst _) q₃)
  obtain ⟨found, stop, hfind⟩ : ∃ found stop, findAll settings.weighed roots (searchedPaths paths) start =
      .ok found stop := by
    refine findAll_ok fun f hf => (fit_alike hstart).2 (.of_closedIn hclosed ?_)
    rw [visited_alike hstart, ← hstart.files] at hf
    refine hf.mem_of_closedIn hclosed fun f hf => ?_
    obtain ⟨f', hf', hsame⟩ := List.mem_map.1 (hgiven _ hf)
    cases hsame
    exact hf'
  have hweighed : settings.weighed.ignoreUnused = false := hunused
  obtain ⟨t₃, hsummary⟩ := summarize_ok hweighed hfind
  have hsearch : search settings.weighed (searchedPaths paths) t₁ = .ok found t₃ := by
    unfold search
    rw [bind_of_ok hcheck, bind_of_ok hrun, bind_of_ok hfind, bind_of_ok hsummary]
    rfl
  obtain ⟨s', _, hdeps, _⟩ := deps_of_search hread hone hroots hgreet hsearch
  obtain ⟨_, ps, l⟩ := Returns.listing ⟨_, hread, hdeps⟩ hroots
  obtain rfl := l.input.unique (.of_quiet (hE.trans q₁ q₂) hrootsOf)
  exact ⟨s', ps, hdeps, l⟩

theorem Listing.mem_of_draws {p : Dependency} (l : Listing settings paths s s' roots ps) (honce : settings.internal < 2)
    (hf : f ∈ givenFiles settings paths s) (hp : Draws settings.weighed roots (rooted settings s roots) f p) : p ∈ ps :=
  (l.mem_iff p).2 ⟨⟨f, .given hf, hp⟩, fun htwice => absurd htwice (Nat.not_le.2 honce)⟩

end

end Tools

end ImportAtlas
