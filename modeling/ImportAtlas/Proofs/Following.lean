import ImportAtlas.Proofs.Searching
import Mathlib.Order.Bounds.Basic

/-!
# Following targets

If all targets are accepted and followed, what has been processed in the end is the least set of files that holds the
given ones and the targets of its own.
-/

namespace ImportAtlas.Tools

open Session

def Answers (settings : DepsSettings) (s : Session) (file : String) : Prop :=
  (∃ ds, targets settings s file = .ok ds) ∧ ∃ n, node settings s file = .ok n

def Closed (settings : DepsSettings) (s : Session) (files : Set String) : Prop :=
  ∀ f ∈ files, ∀ ds, targets settings s f = .ok ds → ∀ d ∈ ds, d ∈ files

inductive Reached (settings : DepsSettings) (s : Session) (given : Set String) : String → Prop
  | given {f : String} : f ∈ given → Reached settings s given f
  | target {f d : String} {ds : List String} : Reached settings s given f → targets settings s f = .ok ds → d ∈ ds →
      Reached settings s given d

theorem isLeast_reached {settings : DepsSettings} {s : Session} {given : Set String} :
    IsLeast {files | given ⊆ files ∧ Closed settings s files} {f | Reached settings s given f} := by
  constructor
  · exact ⟨fun f hf => .given hf, fun f hf ds hds d hd => .target hf hds hd⟩
  · rintro files ⟨hgiven, hclosed⟩ f hf
    induction hf with
    | given hf => exact hgiven hf
    | target _ hds hd ih => exact hclosed _ ih _ hds _ hd

/-! ## What has been found on the way -/

structure DepsSettings.Follows (settings : DepsSettings) : Prop where
  follow : settings.follow = true
  internal : settings.internal = 0
  external : settings.external = false

def Drawn (settings : DepsSettings) (s : Session) (files : List String) (p : Dependency) : Prop :=
  ∃ f ∈ files, node settings s f = .ok p.source ∧
    (p.target = Ref.nothing ∨ ∃ ds, targets settings s f = .ok ds ∧ ∃ d ∈ ds, node settings s d = .ok p.target)

/-- Files in `todo` are still to be processed in this round, and fresh targets in the next one. -/
structure Underway (settings : DepsSettings) (start : Session) (given todo : Set String) (found : Found) (t : Session) :
    Prop where
  alike : Alike start t
  nodup : found.processed.Nodup
  given_mem : ∀ f ∈ given, f ∈ found.processed ∨ f ∈ todo
  reached : ∀ f, f ∈ found.processed ∨ f ∈ todo → Reached settings start given f
  done : ∀ f ∈ found.processed, ∃ ds n, targets settings start f = .ok ds ∧ node settings start f = .ok n ∧
    ∀ d ∈ ds, d ∈ found.processed ∨ d ∈ found.fresh ∨ d ∈ todo
  fresh : ∀ d ∈ found.fresh, ∃ f ∈ found.processed, ∃ ds, targets settings start f = .ok ds ∧ d ∈ ds
  table : Holds found.table (Drawn settings start found.processed)

section

variable {settings : DepsSettings} {roots paths : List String} {start t stop : Session} {given todo : Set String}
  {found : Found} {f : String}

theorem Visited.reached (h : Visited settings roots start given f) : Reached settings start given f := by
  induction h with
  | given hf => exact .given hf
  | target _ _ hbrings ih =>
    obtain ⟨_, ds, hds, hd, _⟩ := hbrings
    exact .target ih hds hd

theorem Underway.mem_processed_iff (h : Underway settings start given ∅ found t) (hfresh : found.fresh = [])
    (f : String) : f ∈ found.processed ↔ Reached settings start given f := by
  refine ⟨fun hf => h.reached f (.inl hf), fun hf => ?_⟩
  induction hf with
  | given hf => exact (h.given_mem _ hf).resolve_right (Set.notMem_empty _)
  | target _ hds hd ih =>
    obtain ⟨ds', n, hds', _, hclosed⟩ := h.done _ ih
    obtain rfl := Except.ok.inj (hds.symm.trans hds')
    rcases hclosed _ hd with hd | hd | hd
    · exact hd
    · rw [hfresh] at hd
      cases hd
    · cases hd

variable (hs : settings.Follows)
include hs

theorem DepsSettings.Follows.shows (r : Ref) : settings.Shows roots r := by
  intro h
  rw [hs.internal] at h
  cases h

theorem DepsSettings.Follows.accepts (r : Ref) : settings.Accepts roots r := by
  refine ⟨hs.shows r, fun h => ?_⟩
  rw [hs.external] at h
  cases h

theorem DepsSettings.Follows.draws_iff (p : Dependency) : Draws settings roots start f p ↔
    node settings start f = .ok p.source ∧
      (p.target = Ref.nothing ∨
        ∃ ds, targets settings start f = .ok ds ∧ ∃ d ∈ ds, node settings start d = .ok p.target) := by
  have hshows : settings.Shows roots p.source := hs.shows p.source
  have haccepts : settings.Accepts roots p.target := hs.accepts p.target
  simp [Draws, hs.external, hshows, haccepts]

theorem Progress.underway (h : Progress settings roots start given todo found t) :
    Underway settings start given todo found t where
  alike := h.alike
  nodup := h.nodup
  given_mem := h.given_mem
  reached f hf := (h.visited f hf).reached
  done f hf := by
    obtain ⟨ds, n, hds, hn, hnodes⟩ := h.fit f hf
    refine ⟨ds, n, hds, hn, fun d hd => ?_⟩
    obtain ⟨r, hr⟩ := hnodes (hs.shows n) d hd
    exact h.done f hf d ⟨⟨n, hn, hs.shows n⟩, ds, hds, hd, r, hr, hs.accepts r⟩
  fresh d hd := by
    obtain ⟨f, hf, _, ds, hds, hd, _⟩ := h.fresh d hd
    exact ⟨f, hf, ds, hds, hd⟩
  table := by
    refine h.table.congr fun p => ?_
    simp only [hs.draws_iff]
    rfl

/-! ## The whole search -/

theorem findAll_inv (hrun : findAll settings roots paths start = .ok found stop) :
    Underway settings start (asked (start.files.pythonFiles settings.ignores paths)) ∅ found stop ∧
      found.fresh = [] := by
  obtain ⟨all, h, hfresh, rfl⟩ := findAll_progress hrun
  rw [if_neg (by rw [hs.internal]; decide)]
  exact ⟨h.underway hs, hfresh hs.follow⟩

/-- The search returns exactly if every file that it reaches has its targets and its reference. -/
theorem findAll_ok_iff (roots paths : List String) (start : Session) :
    (∃ found stop, findAll settings roots paths start = .ok found stop) ↔
      ∀ f, Reached settings start (asked (start.files.pythonFiles settings.ignores paths)) f →
        Answers settings start f := by
  constructor
  · rintro ⟨found, stop, hrun⟩ f hf
    obtain ⟨h, hfresh⟩ := findAll_inv hs hrun
    obtain ⟨ds, n, hds, hn, _⟩ := h.done f ((h.mem_processed_iff hfresh f).2 hf)
    exact ⟨⟨ds, hds⟩, n, hn⟩
  · intro hanswers
    refine findAll_ok fun f hf => ?_
    obtain ⟨⟨ds, hds⟩, n, hn⟩ := hanswers f hf.reached
    exact ⟨ds, n, hds, hn, fun _ d hd => (hanswers d (.target hf.reached hds hd)).2⟩

end

end ImportAtlas.Tools
