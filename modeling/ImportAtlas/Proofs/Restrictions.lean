import ImportAtlas.Proofs.Listings
import Mathlib.Data.List.Sort

/-!
# Inner and outer dependencies

A search can be restricted to the dependencies between the files below the input roots, or to those that lead out of
them. If targets are not followed, a restriction chooses among the lines of the unrestricted run, line by line. If they
are followed, every target that is printed is printed as a source too.
-/

namespace ImportAtlas.Tools

open Session

def DepsSettings.restricted (settings : DepsSettings) (internal : Nat) (external : Bool) : DepsSettings :=
  { settings with internal, external }

def DepsSettings.Wants (settings : DepsSettings) (roots : List String) (p : Dependency) : Prop :=
  settings.Shows roots p.source ∧
    (p.target = Ref.nothing ∧ settings.external = false ∨ p.target ≠ Ref.nothing ∧ settings.Accepts roots p.target)

/-- The file has the dependency, asked for or not. -/
def Cites (settings : DepsSettings) (s : Session) (f : String) (p : Dependency) : Prop :=
  node settings s f = .ok p.source ∧
    (p.target = Ref.nothing ∨ ∃ ds, targets settings s f = .ok ds ∧ ∃ d ∈ ds, node settings s d = .ok p.target)

section

variable {settings : DepsSettings} {internal : Nat} {external : Bool} {roots paths : List String}
  {s s' s₀ s₁ s₂ : Session} {given : Set String} {f : String} {p : Dependency} {r : Ref}

theorem node_ne_nothing (h : node settings s f = .ok r) : r ≠ Ref.nothing := by
  obtain ⟨root, name, rfl, _⟩ := node_inv h
  intro h
  cases h

theorem draws_iff : Draws settings roots s f p ↔ Cites settings s f p ∧ settings.Wants roots p := by
  constructor
  · rintro ⟨hsource, hshows, ⟨hinner, hnothing⟩ | ⟨ds, hds, d, hd, htarget, haccepts⟩⟩
    · exact ⟨⟨hsource, .inl hnothing⟩, hshows, .inl ⟨hnothing, hinner⟩⟩
    · exact ⟨⟨hsource, .inr ⟨ds, hds, d, hd, htarget⟩⟩, hshows, .inr ⟨node_ne_nothing htarget, haccepts⟩⟩
  · rintro ⟨⟨hsource, htarget⟩, hshows, ⟨hnothing, hinner⟩ | ⟨hsome, haccepts⟩⟩
    · exact ⟨hsource, hshows, .inl ⟨hinner, hnothing⟩⟩
    · obtain ⟨ds, hds, d, hd, htarget⟩ := htarget.resolve_left hsome
      exact ⟨hsource, hshows, .inr ⟨ds, hds, d, hd, htarget, haccepts⟩⟩

/-! ## Without following -/

theorem visited_unfollowed (hfollow : settings.follow = false) : Visited settings roots s given f ↔ f ∈ given := by
  constructor
  · intro h
    cases h with
    | given hf => exact hf
    | target hfollow' _ _ => cases hfollow.symm.trans hfollow'
  · exact .given

/-- A restriction chooses among the dependencies of the given files. -/
theorem listed_unfollowed (hfollow : settings.follow = false) (hinternal : settings.internal < 2) :
    Listed settings roots s given p ↔ (∃ f ∈ given, Cites settings s f p) ∧ settings.Wants roots p := by
  have honce : ¬ 2 ≤ settings.internal := by omega
  simp only [Listed, honce, false_imp_iff, and_true, Charted, visited_unfollowed hfollow, draws_iff, ← and_assoc,
    exists_and_right]

theorem Returns.listing_unfollowed (h : Returns (settings.restricted internal external) paths s s')
    (hroots : settings.printRoots = false) (hfollow : settings.follow = false) (hinternal : internal < 2) :
    ∃ roots ps, InputRoots settings paths s roots ∧ Printed s s' ps ∧
      ∀ p, p ∈ ps ↔ (∃ f ∈ givenFiles settings paths s, Cites settings.weighed (rooted settings s roots) f p) ∧
        (settings.restricted internal external).Wants roots p := by
  obtain ⟨roots, ps, l⟩ := h.listing hroots
  exact ⟨roots, ps, l.input, l.printed, fun p => (l.mem_iff p).trans (listed_unfollowed hfollow hinternal)⟩

theorem wants_all (settings : DepsSettings) (roots : List String) (p : Dependency) :
    (settings.restricted 0 false).Wants roots p := by
  refine ⟨nofun, ?_⟩
  by_cases hnothing : p.target = Ref.nothing
  · exact .inl ⟨hnothing, rfl⟩
  · exact .inr ⟨hnothing, nofun, nofun⟩

theorem wants_inner (hsome : p.target ≠ Ref.nothing) :
    (settings.restricted 1 false).Wants roots p ↔ Inside roots p.source ∧ Inside roots p.target := by
  constructor
  · rintro ⟨hshows, ⟨hnothing, _⟩ | ⟨_, haccepts⟩⟩
    · exact absurd hnothing hsome
    · exact ⟨hshows Nat.one_pos, haccepts.1 Nat.one_pos⟩
  · rintro ⟨hsource, htarget⟩
    exact ⟨fun _ => hsource, .inr ⟨hsome, fun _ => htarget, nofun⟩⟩

theorem wants_outer :
    (settings.restricted 0 true).Wants roots p ↔ p.target ≠ Ref.nothing ∧ ¬ Inside roots p.target := by
  constructor
  · rintro ⟨_, ⟨_, hinner⟩ | ⟨hsome, haccepts⟩⟩
    · cases hinner
    · exact ⟨hsome, haccepts.2 rfl⟩
  · rintro ⟨hsome, hout⟩
    exact ⟨nofun, .inr ⟨hsome, nofun, fun _ => hout⟩⟩

/-- **Inner and outer dependencies.** Of three runs that do not follow targets, one unrestricted, one for inner and one
for outer dependencies, every line of the first with a target and a source below the input roots is a line of exactly
one of the others. These have no other lines than the first, and the run for outer dependencies has no line without a
target or with one below the input roots. -/
theorem lines_inner_or_outer (hfollow : settings.follow = false)
    (h₀ : Returns (settings.restricted 0 false) paths s s₀) (h₁ : Returns (settings.restricted 1 false) paths s s₁)
    (h₂ : Returns (settings.restricted 0 true) paths s s₂) :
    (settings.printRoots = true → s₁.console.out = s₀.console.out ∧ s₂.console.out = s₀.console.out) ∧
    (settings.printRoots = false → ∃ roots ps₀ ps₁ ps₂, InputRoots settings paths s roots ∧ Printed s s₀ ps₀ ∧
      Printed s s₁ ps₁ ∧ Printed s s₂ ps₂ ∧
      (∀ p ∈ ps₀, p.target ≠ Ref.nothing → Inside roots p.source → Xor (p ∈ ps₁) (p ∈ ps₂)) ∧
      ps₁ ⊆ ps₀ ∧ ps₂ ⊆ ps₀ ∧ ∀ p ∈ ps₂, p.target ≠ Ref.nothing ∧ ¬ Inside roots p.target) := by
  refine ⟨fun hroots => ⟨h₁.out_of_printRoots h₀ rfl hroots hroots, h₂.out_of_printRoots h₀ rfl hroots hroots⟩,
    fun hroots => ?_⟩
  obtain ⟨roots, ps₀, hinput, hprinted₀, hmem₀⟩ := h₀.listing_unfollowed hroots hfollow (by decide)
  obtain ⟨roots₁, ps₁, hinput₁, hprinted₁, hmem₁⟩ := h₁.listing_unfollowed hroots hfollow (by decide)
  obtain ⟨roots₂, ps₂, hinput₂, hprinted₂, hmem₂⟩ := h₂.listing_unfollowed hroots hfollow (by decide)
  obtain rfl := hinput.unique hinput₁
  obtain rfl := hinput.unique hinput₂
  simp only [wants_all, and_true] at hmem₀
  simp only [wants_outer] at hmem₂
  refine ⟨roots, ps₀, ps₁, ps₂, hinput, hprinted₀, hprinted₁, hprinted₂, fun p hp hsome hsource => ?_, ?_, ?_, ?_⟩
  · have hcited := (hmem₀ p).1 hp
    rw [hmem₁, hmem₂, wants_inner hsome]
    by_cases htarget : Inside roots p.target
    · exact .inl ⟨⟨hcited, hsource, htarget⟩, fun hp => hp.2.2 htarget⟩
    · exact .inr ⟨⟨hcited, hsome, htarget⟩, fun hp => htarget hp.2.2⟩
  · exact fun p hp => (hmem₀ p).2 ((hmem₁ p).1 hp).1
  · exact fun p hp => (hmem₀ p).2 ((hmem₂ p).1 hp).1
  · exact fun p hp => ((hmem₂ p).1 hp).2

def importOfA : Dependency := ⟨⟨"/proj", "b.py"⟩, ⟨"/proj", "a.py"⟩⟩

def importOfSys : Dependency := ⟨⟨"/proj", "b.py"⟩, ⟨"/usr/lib/python2.7", "sys"⟩⟩

theorem circle_inner_or_outer : ∃ s₀ s₁ s₂ ps₀ ps₁ ps₂, deps ["/proj/b.py"] circle = .ok () s₀ ∧
    deps ["-i", "/proj/b.py"] circle = .ok () s₁ ∧ deps ["-e", "/proj/b.py"] circle = .ok () s₂ ∧
    Printed circle s₀ ps₀ ∧ Printed circle s₁ ps₁ ∧ Printed circle s₂ ps₂ ∧
    (importOfA ∈ ps₀ ∧ Xor (importOfA ∈ ps₁) (importOfA ∈ ps₂)) ∧
    (importOfSys ∈ ps₀ ∧ Xor (importOfSys ∈ ps₁) (importOfSys ∈ ps₂)) ∧ ps₁ ⊆ ps₀ ∧ ps₂ ⊆ ps₀ := by
  have hread₀ : Options.read depsFlags ["/proj/b.py"] { ignores := circle.ignores } =
      .ok ["/proj/b.py"] (plainly.restricted 0 false) := rfl
  have hread₁ : Options.read depsFlags ["-i", "/proj/b.py"] { ignores := circle.ignores } =
      .ok ["/proj/b.py"] (plainly.restricted 1 false) := rfl
  have hread₂ : Options.read depsFlags ["-e", "/proj/b.py"] { ignores := circle.ignores } =
      .ok ["/proj/b.py"] (plainly.restricted 0 true) := rfl
  obtain ⟨s₀, ps, h₀, l⟩ := deps_ok ["/proj"] circleFiles hread₀ (.inl rfl) rfl rfl (by decide +kernel)
    (by decide +kernel) (by decide +kernel)
  obtain ⟨s₁, _, h₁, _⟩ := deps_ok ["/proj"] circleFiles hread₁ (.inr rfl) rfl rfl (by decide +kernel)
    (by decide +kernel) (by decide +kernel)
  obtain ⟨s₂, _, h₂, _⟩ := deps_ok ["/proj"] circleFiles hread₂ (.inl rfl) rfl rfl (by decide +kernel)
    (by decide +kernel) (by decide +kernel)
  obtain ⟨roots, ps₀, ps₁, ps₂, hinput, hprinted₀, hprinted₁, hprinted₂, hsplit, hsub₁, hsub₂, _⟩ :=
    (lines_inner_or_outer rfl ⟨_, hread₀, h₀⟩ ⟨_, hread₁, h₁⟩ ⟨_, hread₂, h₂⟩).2 rfl
  obtain rfl : ["/proj"] = roots := l.input.unique hinput
  obtain rfl : ps = ps₀ := l.printed.unique hprinted₀
  have hgiven : FileSystem.Found.file "/proj/b.py" ∈ circle.files.pythonFiles defaultIgnores ["/proj/b.py"] := by
    decide +kernel
  have hmem : importOfA ∈ ps ∧ importOfSys ∈ ps :=
    ⟨l.mem_of_draws (by decide) hgiven (by decide +kernel), l.mem_of_draws (by decide) hgiven (by decide +kernel)⟩
  exact ⟨s₀, s₁, s₂, ps, ps₁, ps₂, h₀, h₁, h₂, hprinted₀, hprinted₁, hprinted₂,
    ⟨hmem.1, hsplit _ hmem.1 (by decide) (by decide)⟩, ⟨hmem.2, hsplit _ hmem.2 (by decide) (by decide)⟩, hsub₁, hsub₂⟩

/-! ## Inner dependencies asked for twice -/

theorem charted_internal {m n : Nat} (hm : 0 < m) (hn : 0 < n) :
    Charted (settings.restricted m external) roots s given p ↔
      Charted (settings.restricted n external) roots s given p := by
  have hshows : (settings.restricted m external).Shows roots = (settings.restricted n external).Shows roots := by
    funext r
    exact propext (imp_congr_left (iff_of_true hm hn))
  have haccepts : (settings.restricted m external).Accepts roots = (settings.restricted n external).Accepts roots := by
    funext r
    exact propext (and_congr_left' (imp_congr_left (iff_of_true hm hn)))
  refine charted_congr rfl (fun f d => ?_) fun f p => ?_
  · rw [Brings, Brings, hshows, haccepts]
    rfl
  · rw [Draws, Draws, hshows, haccepts]
    rfl

theorem listed_internal (settings : DepsSettings) {n : Nat} (hn : 2 ≤ n) :
    Listed (settings.restricted n external) roots s given p ↔
    Listed (settings.restricted 1 external) roots s given p ∧ (p.target = Ref.nothing ∨
      ∃ q, Listed (settings.restricted 1 external) roots s given q ∧ q.source = p.target) := by
  have honce : ∀ p, Listed (settings.restricted 1 external) roots s given p ↔
      Charted (settings.restricted 1 external) roots s given p :=
    fun p => and_iff_left fun htwice : 2 ≤ 1 => absurd htwice (by decide)
  have hcharted : ∀ p, Charted (settings.restricted n external) roots s given p ↔
      Charted (settings.restricted 1 external) roots s given p :=
    fun p => charted_internal (by omega) Nat.one_pos
  simp only [honce, ← hcharted]
  exact and_congr_right fun _ => imp_iff_right hn

theorem Listing.target_mem {ps : List Dependency} (l : Listing settings paths s s' roots ps)
    (hfollow : settings.follow = true) (hexternal : settings.external = false) (hp : p ∈ ps)
    (hsome : p.target ≠ Ref.nothing) : ⟨p.target, Ref.nothing⟩ ∈ ps :=
  (l.mem_iff _).2 ⟨((l.mem_iff p).1 hp).1.target hfollow hexternal hsome, fun _ => .inl rfl⟩

theorem Listing.mem_internal {n : Nat} (hn : 2 ≤ n) {roots' : List String} {ps₁ ps₂ : List Dependency}
    (l₁ : Listing (settings.restricted 1 external) paths s s₁ roots ps₁)
    (l₂ : Listing (settings.restricted n external) paths s s₂ roots' ps₂) (p : Dependency) :
    p ∈ ps₂ ↔ p ∈ ps₁ ∧ (p.target = Ref.nothing ∨ ∃ q ∈ ps₁, q.source = p.target) := by
  obtain rfl : roots = roots' := l₁.input.unique l₂.input
  simp only [l₁.mem_iff]
  exact (l₂.mem_iff p).trans (listed_internal settings.weighed hn)

/-- **Inner dependencies asked for twice.** A run that is asked twice for inner dependencies prints the lines of the run
that is asked once whose target is none or a source among these lines. If targets are followed, in a run for inner
dependencies or for all, every target that is printed is printed as a source, and so both runs print the same. -/
theorem lines_inner_twice {n : Nat} (hn : 2 ≤ n) :
    (∀ s₁ s₂, Returns (settings.restricted 1 false) paths s s₁ → Returns (settings.restricted n false) paths s s₂ →
      (settings.printRoots = false → ∃ ps₁ ps₂, Printed s s₁ ps₁ ∧ Printed s s₂ ps₂ ∧
        ∀ p, p ∈ ps₂ ↔ p ∈ ps₁ ∧ (p.target = Ref.nothing ∨ ∃ q ∈ ps₁, q.source = p.target)) ∧
      (settings.follow = true ∨ settings.printRoots = true → s₁.console.out = s₂.console.out)) ∧
    ∀ times s', Returns (settings.restricted times false) paths s s' → settings.follow = true →
      settings.printRoots = false → ∃ ps, Printed s s' ps ∧
        ∀ p ∈ ps, p.target ≠ Ref.nothing → ⟨p.target, Ref.nothing⟩ ∈ ps := by
  constructor
  · intro s₁ s₂ h₁ h₂
    cases hroots : settings.printRoots with
    | true => exact ⟨nofun, fun _ => h₁.out_of_printRoots h₂ rfl hroots hroots⟩
    | false =>
      obtain ⟨roots, ps₁, l₁⟩ := h₁.listing hroots
      obtain ⟨roots', ps₂, l₂⟩ := h₂.listing hroots
      have hmem := l₁.mem_internal hn l₂
      refine ⟨fun _ => ⟨ps₁, ps₂, l₁.printed, l₂.printed, hmem⟩, fun hfollow => ?_⟩
      replace hfollow : settings.follow = true := hfollow.resolve_right nofun
      -- a target that was followed is a source, so that asking again leaves nothing out
      have hkept : ∀ p ∈ ps₁, p.target = Ref.nothing ∨ ∃ q ∈ ps₁, q.source = p.target := fun p hp =>
        or_iff_not_imp_left.2 fun hsome => ⟨_, l₁.target_mem hfollow rfl hp hsome, rfl⟩
      have hps : ps₁ = ps₂ := l₁.sorted.eq_of_mem_iff l₂.sorted fun p =>
        ⟨fun hp => (hmem p).2 ⟨hp, hkept p hp⟩, fun hp => ((hmem p).1 hp).1⟩
      exact l₁.printed.trans (hps ▸ l₂.printed.symm)
  · intro times s' h hfollow hroots
    obtain ⟨roots, ps, l⟩ := h.listing hroots
    exact ⟨ps, l.printed, fun p hp hsome => l.target_mem hfollow rfl hp hsome⟩

theorem circle_inner_twice : ∃ s₁ s₂ ps₁ ps₂, deps ["-f", "-i", "/proj/b.py"] circle = .ok () s₁ ∧
    deps ["-f", "-i", "-i", "/proj/b.py"] circle = .ok () s₂ ∧ Printed circle s₁ ps₁ ∧ Printed circle s₂ ps₂ ∧
    (∀ p, p ∈ ps₂ ↔ p ∈ ps₁ ∧ (p.target = Ref.nothing ∨ ∃ q ∈ ps₁, q.source = p.target)) ∧
    s₁.console.out = s₂.console.out ∧ importOfA ∈ ps₁ ∧ ⟨importOfA.target, Ref.nothing⟩ ∈ ps₁ := by
  have hread₁ : Options.read depsFlags ["-f", "-i", "/proj/b.py"] { ignores := circle.ignores } =
      .ok ["/proj/b.py"] (followOnly.restricted 1 false) := rfl
  have hread₂ : Options.read depsFlags ["-f", "-i", "-i", "/proj/b.py"] { ignores := circle.ignores } =
      .ok ["/proj/b.py"] (followOnly.restricted 2 false) := rfl
  obtain ⟨s₁, ps, h₁, hprinted, hlines⟩ := deps_returns hread₁ (.inr rfl) rfl [importOfA] [true] (by decide +kernel)
  obtain ⟨s₂, _, h₂, _⟩ := deps_returns hread₂ (.inr rfl) rfl [] [] (by decide +kernel)
  obtain ⟨htwice, hclosed⟩ := lines_inner_twice (s := circle) (Nat.le_refl 2)
  obtain ⟨hlisted, hsame⟩ := htwice s₁ s₂ ⟨_, hread₁, h₁⟩ ⟨_, hread₂, h₂⟩
  obtain ⟨ps₁, ps₂, hprinted₁, hprinted₂, hmem⟩ := hlisted rfl
  obtain ⟨ps', hprinted', htarget⟩ := hclosed 1 s₁ ⟨_, hread₁, h₁⟩ rfl rfl
  obtain rfl : ps = ps₁ := hprinted.unique hprinted₁
  obtain rfl : ps = ps' := hprinted.unique hprinted'
  have hA : importOfA ∈ ps := by simpa using hlines
  exact ⟨s₁, s₂, ps, ps₂, h₁, h₂, hprinted₁, hprinted₂, hmem, hsame (.inl rfl), hA, htarget _ hA (by decide)⟩

end

end ImportAtlas.Tools
