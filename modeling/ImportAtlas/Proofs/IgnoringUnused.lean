import ImportAtlas.Proofs.ImportFiles
import ImportAtlas.Proofs.Listings
import ImportAtlas.Proofs.UnusedImports

/-!
# Passing over unused imports

Without the unused imports of a source another import can be the first of its module and symbol. A file is gained in
this way only if the two start from different directories.
-/

namespace ImportAtlas

open Session

def FileSystem.Parses (fs : FileSystem) (path : String) (t : Tree) : Prop :=
  ∃ source, fs.read path = .ok source ∧ source.parse = .tree t

def SearchOptions.ignoring (options : SearchOptions) (ignoreUnused : Bool) : SearchOptions :=
  { options with ignoreUnused }

def SearchOptions.Views (options : SearchOptions) (t : Tree) (records imports : List ImportRecord) : Prop :=
  t.imports = .ok records ∧
    if options.ignoreUnused then
      ∃ names, Usage.usedNames t = .ok names ∧ imports = records.filter fun r => !Usage.isUnused names r
    else imports = records

/-- A used import means the file, and the first one with its module and symbol is unused and starts from another
directory. -/
def Masked (options : SearchOptions) (s : Session) (path file : String) : Prop :=
  ∃ t records names q r, s.files.Parses path t ∧ t.imports = .ok records ∧ Usage.usedNames t = .ok names ∧
    IsFirst (records.filter options.keeps) q ∧ Usage.isUnused names q = true ∧
    r ∈ records.filter options.keeps ∧ Usage.isUnused names r = false ∧ s.Means path r file ∧
    r.sign.same q.sign = true ∧
    Finder.startDir (some (Path.parent path)) r.level ≠ Finder.startDir (some (Path.parent path)) q.level

theorem Session.Means.congr {s : Session} {path file : String} {q r : ImportRecord} (h : s.Means path r file)
    (hrq : r.sign.same q.sign = true) (hstart : Finder.startDir (some (Path.parent path)) r.level =
      Finder.startDir (some (Path.parent path)) q.level) : s.Means path q file := by
  obtain ⟨found, problems, ⟨cache, hgives⟩, rfl⟩ := h
  obtain ⟨hm, hs⟩ := ImportRecord.same_of_sign hrq
  exact ⟨found, problems, ⟨cache, Finder.importedFile_congr hm hs hstart hgives⟩, rfl⟩

/-! ## Imports in view -/

namespace Usage

variable {names : List Value} {records : List ImportRecord} {usage usage' : Usage} {r : ImportRecord}

theorem step_inv (h : step names usage r.toValue = .ok usage') :
    usage'.used = usage.used ++ ([r].filter fun r => !isUnused names r).map ImportRecord.toValue := by
  unfold step at h
  obtain ⟨r', hr, h⟩ := except_bind_inv h
  cases r.ofValue_toValue.symm.trans hr
  split at h
  · rename_i hnone
    cases h
    simp [isUnused, hnone]
  · rename_i hnone
    obtain ⟨binding, hbinding, h⟩ := except_bind_inv h
    obtain rfl : binding = r.binding := Value.eq_of_asKey hbinding
    split at h
    · rename_i hamong
      cases h
      simp [isUnused, hamong]
    · rename_i hamong
      cases h
      simp [isUnused, hnone, hamong]

theorem foldlM_step_inv (h : (records.map ImportRecord.toValue).foldlM (step names) usage = .ok usage') :
    usage'.used = usage.used ++ (records.filter fun r => !isUnused names r).map ImportRecord.toValue := by
  induction records generalizing usage with
  | nil =>
    cases h
    simp
  | cons r records ih =>
    rw [List.map_cons, List.foldlM_cons] at h
    obtain ⟨next, hstep, h⟩ := except_bind_inv h
    rw [ih h, step_inv hstep, List.append_assoc, ← List.map_append, ← List.filter_append, List.singleton_append]

end Usage

section

variable {options : SearchOptions} {path : String} {t : Tree} {records : List ImportRecord} {values : List Value}
  {problems : List Problem} {needs needs' : Needs} {s s' s₁ s₂ : Session} {parsed : ParsedFile}

theorem consideredImports_inv (h : Run.consideredImports options t = .ok (values, problems)) :
    ∃ records imports, options.Views t records imports ∧ values = imports.map ImportRecord.toValue := by
  unfold Run.consideredImports at h
  obtain ⟨records, hrecords, h⟩ := except_bind_inv h
  split at h
  · rename_i hunused
    obtain ⟨usage, husage, h⟩ := except_bind_inv h
    obtain ⟨_, _, h⟩ := except_bind_inv h
    cases h
    obtain ⟨names, hnames, husage⟩ := except_bind_inv husage
    refine ⟨records, _, ⟨hrecords, ?_⟩, Usage.foldlM_step_inv husage⟩
    rw [if_pos hunused]
    exact ⟨names, hnames, rfl⟩
  · rename_i hunused
    cases h
    refine ⟨records, records, ⟨hrecords, ?_⟩, rfl⟩
    rw [if_neg hunused]

theorem readSource_inv (h : Run.readSource path s = .ok parsed s') :
    Alike s s' ∧ ∀ t, parsed.tree = some t ↔ s.files.Parses path t := by
  obtain ⟨_, _, hlike, _⟩ := (Run.respects_readSource path).ok (alike_equivalence.refl s) h
  refine ⟨hlike, fun t => ?_⟩
  unfold Run.readSource at h
  rw [bind_of_ok (Run.files_eq s)] at h
  unfold FileSystem.Parses
  cases hread : s.files.read path with
  | error e =>
    rw [hread] at h
    obtain ⟨_, _, _, h⟩ := bind_inv h
    obtain ⟨rfl, _⟩ := pure_inv h
    simp
  | ok source =>
    rw [hread] at h
    dsimp only at h
    simp only [Except.ok.injEq, exists_eq_left']
    cases hparse : source.parse with
    | tree t' =>
      rw [hparse] at h
      obtain ⟨rfl, _⟩ := pure_inv h
      simp
    | refused cause text =>
      have hnone : parsed.tree = none := by
        rw [hparse] at h
        cases cause with
        | malformed line | badIndentation line | badTabs line | notText =>
          obtain ⟨_, _, _, h⟩ := bind_inv h
          obtain ⟨rfl, _⟩ := pure_inv h
          rfl
        | _ => cases h
      simp [hnone]

theorem FileSystem.Parses.unique {fs : FileSystem} {t' : Tree} (h : fs.Parses path t) (h' : fs.Parses path t') :
    t = t' := by
  obtain ⟨source, hread, hparse⟩ := h
  obtain ⟨source', hread', hparse'⟩ := h'
  cases hread.symm.trans hread'
  cases hparse.symm.trans hparse'
  rfl

/-- The files of a source are those of the first imports in view. -/
theorem dependenciesOf_inv (h : Run.dependenciesOf options path s = .ok needs s') :
    (needs.files = [] ∧ ∀ t, ¬ s.files.Parses path t) ∨
      ∃ t records imports, s.files.Parses path t ∧ options.Views t records imports ∧
        ∀ f, f ∈ needs.files ↔ ∃ r, IsFirst (imports.filter options.keeps) r ∧ s.Means path r f := by
  unfold Run.dependenciesOf at h
  obtain ⟨parsed, s₁, hparsed, h⟩ := bind_inv h
  obtain ⟨hlike, htree⟩ := readSource_inv hparsed
  cases ht : parsed.tree with
  | none =>
    rw [ht] at h
    obtain ⟨rfl, _⟩ := pure_inv h
    exact .inl ⟨rfl, fun t hparses => by cases ht.symm.trans ((htree t).2 hparses)⟩
  | some t =>
    rw [ht] at h
    obtain ⟨⟨values, problems⟩, hconsidered, h⟩ := lift_bind_inv h
    obtain ⟨records, imports, hviews, rfl⟩ := consideredImports_inv hconsidered
    obtain ⟨⟨needs', seen⟩, s₂, hloop, h⟩ := bind_inv h
    obtain ⟨rfl, _⟩ := pure_inv h
    rw [List.foldlM_map] at hloop
    have hsearched := Searched.run (.start path problems hlike) hloop
    exact .inr ⟨t, records, imports, (htree t).1 ht, hviews, hsearched.files⟩

/-- A file that is found only without the unused imports is masked by one of them. -/
theorem dependenciesOf_ignoring (options : SearchOptions)
    (h : Run.dependenciesOf (options.ignoring false) path s = .ok needs s₁)
    (h' : Run.dependenciesOf (options.ignoring true) path s = .ok needs' s₂) {f : String} (hf : f ∈ needs'.files) :
    f ∈ needs.files ∨ Masked options s path f := by
  obtain ⟨hnil, _⟩ | ⟨t, records, _, hparses, ⟨hrecords, names, hnames, rfl⟩, hfiles'⟩ := dependenciesOf_inv h'
  · rw [hnil] at hf
    cases hf
  obtain ⟨_, hno⟩ | ⟨t', records', _, hparses', ⟨hrecords', rfl⟩, hfiles⟩ := dependenciesOf_inv h
  · exact absurd hparses (hno t)
  obtain rfl : t = t' := hparses.unique hparses'
  cases hrecords.symm.trans hrecords'
  obtain ⟨r, hfirst, hmeans⟩ := (hfiles' f).1 hf
  rw [List.filter_filter, List.filter_congr fun r _ => Bool.and_comm _ _, ← List.filter_filter] at hfirst
  obtain ⟨hr, hused⟩ := List.mem_filter.1 hfirst.mem
  -- if `r` is not first among all imports, then the first one like it was left out
  obtain hfirst | ⟨q, hq, hunused, hrq⟩ := hfirst.of_filter
  · exact .inl ((hfiles f).2 ⟨r, hfirst, hmeans⟩)
  · by_cases hstart : Finder.startDir (some (Path.parent path)) r.level =
        Finder.startDir (some (Path.parent path)) q.level
    · exact .inl ((hfiles f).2 ⟨q, hq, hmeans.congr hrq hstart⟩)
    · exact .inr ⟨t, records, names, q, r, hparses, hrecords, hnames, hq, by simpa using hunused, hr,
        by simpa using hused, hmeans, hrq, hstart⟩

end

/-! ## Runs that pass over unused imports -/

namespace Tools

def DepsSettings.ignoring (settings : DepsSettings) (ignoreUnused : Bool) : DepsSettings :=
  { settings with ignoreUnused }

section

variable {settings : DepsSettings} {roots paths ds ds' : List String} {s s₁ s₂ : Session} {given : Set String}
  {f d : String} {p : Dependency}

theorem targets_ignoring (h : targets (settings.ignoring false) s f = .ok ds)
    (h' : targets (settings.ignoring true) s f = .ok ds') (hd : d ∈ ds') :
    d ∈ ds ∨ Masked settings.searchOptions s f d := by
  obtain ⟨needs, s₁, hneeds, rfl⟩ := exists_needs h
  obtain ⟨needs', s₂, hneeds', rfl⟩ := exists_needs h'
  unfold needsOf at hneeds hneeds'
  rw [bind_of_ok (Run.files_eq s)] at hneeds hneeds'
  split at hneeds
  · rename_i hpython
    rw [if_pos hpython] at hneeds'
    exact dependenciesOf_ignoring settings.searchOptions hneeds hneeds' hd
  · rename_i hpython
    rw [if_neg hpython] at hneeds'
    obtain ⟨rfl, _⟩ := pure_inv hneeds'
    cases hd

/-- The source is visited with its unused imports and without them, and one of them masks the file. -/
structure Unmasks (settings : DepsSettings) (roots : List String) (s : Session) (given : Set String) (g d : String) :
    Prop where
  visited : Visited (settings.ignoring false) roots s given g
  ignoring : Visited (settings.ignoring true) roots s given g
  masked : Masked settings.searchOptions s g d

/-- The dependency is that of `g` on `d` or, if targets are followed, one of a file that is found from `d`. -/
def LeadsTo (settings : DepsSettings) (roots : List String) (s : Session) (g d : String) (p : Dependency) : Prop :=
  Draws settings roots s g p ∧ node settings s d = .ok p.target ∨
    settings.follow = true ∧ ∃ f, Visited settings roots s {d} f ∧ Draws settings roots s f p

theorem Brings.ignoring (hfit : Fit (settings.ignoring false) roots s f)
    (h : Brings (settings.ignoring true) roots s f d) :
    Brings (settings.ignoring false) roots s f d ∨ Masked settings.searchOptions s f d := by
  obtain ⟨hnode, ds', hds', hd, haccepted⟩ := h
  obtain ⟨ds, _, hds, _, _⟩ := hfit
  exact (targets_ignoring hds hds' hd).imp_left fun hd => ⟨hnode, ds, hds, hd, haccepted⟩

section

variable (hfit : ∀ f, Visited (settings.ignoring false) roots s given f → Fit (settings.ignoring false) roots s f)
include hfit

theorem Visited.ignoring (h : Visited (settings.ignoring true) roots s given f) :
    Visited (settings.ignoring false) roots s given f ∨
      settings.follow = true ∧ ∃ g d, Unmasks settings roots s given g d ∧
        Visited (settings.ignoring true) roots s {d} f := by
  induction h with
  | given hf => exact .inl (.given hf)
  | @target f d hfollow hignoring hbrings ih =>
    -- a way through the files is kept up to the first one with a masked file
    obtain hvisited | ⟨_, g, d₀, hunmasks, hfrom⟩ := ih
    · obtain hbrings | hmasked := Brings.ignoring (hfit f hvisited) hbrings
      · exact .inl (.target hfollow hvisited hbrings)
      · exact .inr ⟨hfollow, f, d, ⟨hvisited, hignoring, hmasked⟩, .given rfl⟩
    · exact .inr ⟨hfollow, g, d₀, hunmasks, .target hfollow hfrom hbrings⟩

theorem Charted.ignoring (h : Charted (settings.ignoring true) roots s given p) :
    Charted (settings.ignoring false) roots s given p ∨
      ∃ g d, Unmasks settings roots s given g d ∧ LeadsTo (settings.ignoring true) roots s g d p := by
  obtain ⟨f, hignoring, hdraws⟩ := h
  obtain hvisited | ⟨hfollow, g, d, hunmasks, hfrom⟩ := Visited.ignoring hfit hignoring
  · obtain ⟨hsource, hshows, hnothing | ⟨ds', hds', d, hd, htarget, haccepts⟩⟩ := id hdraws
    · exact .inl ⟨f, hvisited, hsource, hshows, .inl hnothing⟩
    · obtain ⟨ds, _, hds, _, _⟩ := hfit f hvisited
      obtain hd | hmasked := targets_ignoring hds hds' hd
      · exact .inl ⟨f, hvisited, hsource, hshows, .inr ⟨ds, hds, d, hd, htarget, haccepts⟩⟩
      · exact .inr ⟨f, d, ⟨hvisited, hignoring, hmasked⟩, .inl ⟨hdraws, htarget⟩⟩
  · exact .inr ⟨g, d, hunmasks, .inr ⟨hfollow, f, hfrom, hdraws⟩⟩

theorem Listed.ignoring (h : Listed (settings.ignoring true) roots s given p) :
    Listed (settings.ignoring false) roots s given p ∨
      ∃ g d, Unmasks settings roots s given g d ∧ LeadsTo (settings.ignoring true) roots s g d p := by
  obtain ⟨hcharted, hamong⟩ := h
  refine (Charted.ignoring hfit hcharted).imp_left fun hkept => ⟨hkept, fun htwice => ?_⟩
  have hexternal : settings.external = false := hkept.external_eq (Nat.lt_of_succ_lt htwice)
  refine or_iff_not_imp_left.2 fun hsome => ?_
  obtain ⟨q, ⟨f, hignoring, hsource, hshows, _⟩, hq⟩ := (hamong htwice).resolve_left hsome
  cases hfollow : settings.follow with
  | true => exact ⟨_, hkept.target hfollow hexternal hsome, rfl⟩
  | false =>
    -- the same files are visited, so that each source is one either way
    have hvisited := (Visited.ignoring hfit hignoring).resolve_right fun h => by simp [hfollow] at h
    exact ⟨⟨q.source, Ref.nothing⟩, ⟨f, hvisited, hsource, hshows, .inl ⟨hexternal, rfl⟩⟩, hq⟩

end

end

/-- **Without unused imports.** A source that is searched without its unused imports has only files that it has with
them, but for those that an unused import masks. A line that a run prints only if it passes over unused imports has
such a file as its target or, if targets are followed, belongs to a file that is found from there. -/
theorem fewer_without_unused (s : Session) :
    (∀ options path needs needs' s₁ s₂, Run.dependenciesOf (options.ignoring false) path s = .ok needs s₁ →
      Run.dependenciesOf (options.ignoring true) path s = .ok needs' s₂ →
      ∀ f ∈ needs'.files, f ∈ needs.files ∨ Masked options s path f) ∧
    ∀ settings paths s₁ s₂, Returns (settings.ignoring false) paths s s₁ →
      Returns (settings.ignoring true) paths s s₂ →
      (settings.printRoots = true → s₁.console.out = s₂.console.out) ∧
      (settings.printRoots = false → ∃ roots ps ps', InputRoots settings paths s roots ∧ Printed s s₁ ps ∧
        Printed s s₂ ps' ∧ ∀ p ∈ ps', p ∈ ps ∨
          ∃ g d, Unmasks settings.weighed roots (rooted settings s roots) (givenFiles settings paths s) g d ∧
            LeadsTo (settings.weighed.ignoring true) roots (rooted settings s roots) g d p) := by
  constructor
  · intro options path needs needs' s₁ s₂ h h' f hf
    exact dependenciesOf_ignoring options h h' hf
  · intro settings paths s₁ s₂ h h'
    refine ⟨fun hroots => h.out_of_printRoots h' rfl hroots hroots, fun hroots => ?_⟩
    obtain ⟨roots, ps, l⟩ := h.listing hroots
    obtain ⟨roots', ps', l'⟩ := h'.listing hroots
    obtain rfl : roots = roots' := l.input.unique l'.input
    refine ⟨roots, ps, ps', l.input, l.printed, l'.printed, fun p hp => ?_⟩
    have hfit : ∀ f, Visited (settings.weighed.ignoring false) roots (rooted settings s roots)
        (givenFiles settings paths s) f →
          Fit (settings.weighed.ignoring false) roots (rooted settings s roots) f := l.fit
    exact (Listed.ignoring hfit ((l'.mem_iff p).1 hp)).imp_left (l.mem_iff p).2

/-! ## A file that is gained -/

def usesOuter : Tree :=
  .node .program .none [.plain .none,
    .node .block .none [.list [relativeImport 1 1 .none, relativeImport 2 2 (.str "y"),
      .node .discard (.int 3) [.node .name (.int 3) [.plain (.str "y")]]]]]

def outerUsed : Session where
  files := {
    root := .dir [("proj", .dir [("pkg", .dir [
      ("__init__.py", .file (.plain "")),
      ("sub", .dir [
        ("__init__.py", .file (.plain "")),
        ("m.py", .file { text := "from . import x\nfrom .. import x as y\ny\n", parse := .tree usesOuter }),
        ("x.py", .file (.plain ""))]),
      ("x.py", .file (.plain ""))])])]
    cwd := "/" }

def importOfOuter : Dependency := ⟨⟨"/proj", "pkg/sub/m.py"⟩, ⟨"/proj", "pkg/x.py"⟩⟩

theorem outerUsed_files : ∃ needs needs' s₁ s₂,
    Run.dependenciesOf (allImports.ignoring false) "/proj/pkg/sub/m.py" outerUsed = .ok needs s₁ ∧
    Run.dependenciesOf (allImports.ignoring true) "/proj/pkg/sub/m.py" outerUsed = .ok needs' s₂ ∧
    "/proj/pkg/x.py" ∈ needs'.files ∧ "/proj/pkg/x.py" ∉ needs.files := by
  have hrun : ((Run.dependenciesOf (allImports.ignoring false) "/proj/pkg/sub/m.py").run' outerUsed).map Needs.files =
      some ["/proj/pkg/sub/x.py"] := by decide +kernel
  have hrun' : ((Run.dependenciesOf (allImports.ignoring true) "/proj/pkg/sub/m.py").run' outerUsed).map Needs.files =
      some ["/proj/pkg/x.py"] := by decide +kernel
  obtain ⟨needs, s₁, h, hfiles⟩ := exists_of_run' hrun
  obtain ⟨needs', s₂, h', hfiles'⟩ := exists_of_run' hrun'
  exact ⟨needs, needs', s₁, s₂, h, h', by simp [hfiles'], by simp [hfiles]⟩

theorem outerUsed_read : Options.read depsFlags ["/proj/pkg/sub/m.py"] { ignores := outerUsed.ignores } =
    .ok ["/proj/pkg/sub/m.py"] (plainly.ignoring false) := rfl

theorem outerUsed_read_ignoring :
    Options.read depsFlags ["-u", "/proj/pkg/sub/m.py"] { ignores := outerUsed.ignores } =
      .ok ["/proj/pkg/sub/m.py"] (plainly.ignoring true) := rfl

theorem outerUsed_lines : ∃ s₁ s₂ ps ps', deps ["/proj/pkg/sub/m.py"] outerUsed = .ok () s₁ ∧
    deps ["-u", "/proj/pkg/sub/m.py"] outerUsed = .ok () s₂ ∧ Printed outerUsed s₁ ps ∧ Printed outerUsed s₂ ps' ∧
    importOfOuter ∈ ps' ∧ importOfOuter ∉ ps := by
  obtain ⟨s₁, ps, h, hprinted, hlines⟩ := deps_returns outerUsed_read (.inl rfl) rfl [importOfOuter] [false]
    (by decide +kernel)
  obtain ⟨s₂, ps', h', hprinted', hlines'⟩ := deps_returns outerUsed_read_ignoring (.inl rfl) rfl [importOfOuter]
    [true] (by decide +kernel)
  exact ⟨s₁, s₂, ps, ps', h, h', hprinted, hprinted', by simpa using hlines', by simpa using hlines⟩

/-- A file, and a line of a run, are found only if unused imports are passed over. -/
theorem file_gained_without_unused : (∃ needs needs' s₁ s₂,
      Run.dependenciesOf (allImports.ignoring false) "/proj/pkg/sub/m.py" outerUsed = .ok needs s₁ ∧
      Run.dependenciesOf (allImports.ignoring true) "/proj/pkg/sub/m.py" outerUsed = .ok needs' s₂ ∧
      ¬ needs'.files ⊆ needs.files) ∧
    ∃ s₁ s₂ ps ps', deps ["/proj/pkg/sub/m.py"] outerUsed = .ok () s₁ ∧
      deps ["-u", "/proj/pkg/sub/m.py"] outerUsed = .ok () s₂ ∧ Printed outerUsed s₁ ps ∧
      Printed outerUsed s₂ ps' ∧ ¬ ps' ⊆ ps := by
  constructor
  · obtain ⟨needs, needs', s₁, s₂, h, h', hin, hout⟩ := outerUsed_files
    exact ⟨needs, needs', s₁, s₂, h, h', fun hsub => hout (hsub hin)⟩
  · obtain ⟨s₁, s₂, ps, ps', h, h', hprinted, hprinted', hin, hout⟩ := outerUsed_lines
    exact ⟨s₁, s₂, ps, ps', h, h', hprinted, hprinted', fun hsub => hout (hsub hin)⟩

theorem outerUsed_masked : Masked allImports outerUsed "/proj/pkg/sub/m.py" "/proj/pkg/x.py" ∧
    ∃ roots g d, InputRoots plainly ["/proj/pkg/sub/m.py"] outerUsed roots ∧
      Unmasks plainly roots (rooted plainly outerUsed roots) (givenFiles plainly ["/proj/pkg/sub/m.py"] outerUsed) g d ∧
      LeadsTo (plainly.ignoring true) roots (rooted plainly outerUsed roots) g d importOfOuter := by
  obtain ⟨hfiles, hlines⟩ := fewer_without_unused outerUsed
  constructor
  · obtain ⟨needs, needs', s₁, s₂, h, h', hin, hout⟩ := outerUsed_files
    exact (hfiles allImports _ needs needs' s₁ s₂ h h' _ hin).resolve_left hout
  · obtain ⟨s₁, s₂, ps, ps', h, h', hprinted, hprinted', hin, hout⟩ := outerUsed_lines
    have hreturns := hlines plainly _ s₁ s₂ ⟨_, outerUsed_read, h⟩ ⟨_, outerUsed_read_ignoring, h'⟩
    obtain ⟨roots, qs, qs', hinput, hqs, hqs', hfound⟩ := hreturns.2 rfl
    obtain rfl : ps = qs := hprinted.unique hqs
    obtain rfl : ps' = qs' := hprinted'.unique hqs'
    obtain ⟨g, d, hunmasks, hleads⟩ := (hfound _ hin).resolve_left hout
    exact ⟨roots, g, d, hinput, hunmasks, hleads⟩

end Tools

end ImportAtlas
