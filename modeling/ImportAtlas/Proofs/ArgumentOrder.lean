import ImportAtlas.Proofs.Listings
import Mathlib.Data.List.Sort

/-!
# The order of the arguments

The roots of the given paths are sorted, a search visits a set of files, and the lines are sorted: what a run prints is
a function of the set of its paths.
-/

namespace ImportAtlas

/-! ## Sorted texts -/

namespace Text

theorem sort_sorted {texts : List String} (h : texts.Nodup) : (sort texts).Pairwise (· < ·) := by
  have htrans : ∀ a b c : String, ordered a b = true → ordered b c = true → ordered a c = true := by
    simp only [ordered, decide_eq_true_eq, not_lt]
    exact fun a b c hab hbc => hab.trans hbc
  have htotal : ∀ a b : String, (ordered a b || ordered b a) = true := by
    simp only [ordered, Bool.or_eq_true, decide_eq_true_eq, not_lt]
    exact le_total
  have hle := List.pairwise_mergeSort htrans htotal texts
  have hne : (sort texts).Pairwise (· ≠ ·) := (List.mergeSort_perm texts ordered).nodup_iff.2 h
  refine (hle.and hne).imp fun hab => ?_
  exact lt_of_le_of_ne (not_lt.1 (of_decide_eq_true hab.1)) hab.2

theorem nodup_distinct (texts : List String) : (distinct texts).Nodup := by
  match texts with
  | [] => exact List.nodup_nil
  | text :: texts =>
    have hrest := nodup_distinct (texts.filter fun t => !t == text)
    rw [distinct, List.eraseDups_cons]
    exact List.nodup_cons.2 ⟨by simp, hrest⟩
termination_by texts.length
decreasing_by exact Nat.lt_succ_of_le (List.length_filter_le _ _)

theorem sort_distinct_congr {texts texts' : List String} (h : ∀ t, t ∈ texts ↔ t ∈ texts') :
    sort (distinct texts) = sort (distinct texts') := by
  have hsorted : ∀ texts, (sort (distinct texts)).Pairwise (· < ·) := fun texts =>
    sort_sorted (nodup_distinct texts)
  exact (hsorted texts).eq_of_mem_iff (hsorted texts') (by simpa using h)

end Text

namespace Tools

open Session

/-! ## Roots and given files -/

section

variable {ignores : Ignores} {paths paths' roots roots' : List String} {s s' t t' : Session}

/-- A path gives its roots whatever has been said before. -/
theorem rootsOf_inv (h : Run.rootsOf ignores paths s = .ok roots s') : ∃ all,
    paths.mapM (fun path => s.files.rootsFor ignores (s.files.realPath path)) = .ok all ∧
      roots = Text.sort (Text.distinct all.flatten) := by
  unfold Run.rootsOf at h
  rw [bind_of_ok (by rfl)] at h
  obtain ⟨all, s₁, hall, h⟩ := bind_inv h
  obtain ⟨rfl, rfl⟩ := pure_inv h
  refine ⟨all, mapM_inv (fun path s rs s' hpath => ?_) hall, rfl⟩
  obtain ⟨rs', hrs, hpath⟩ := lift_bind_inv hpath
  rw [hrs]
  split at hpath
  · obtain ⟨_, _, _, hpath⟩ := bind_inv hpath
    rw [(pure_inv hpath).1]
  · rw [(pure_inv hpath).1]

theorem rootsOf_congr (hsame : ∀ path, path ∈ paths ↔ path ∈ paths') (h : Run.rootsOf ignores paths s = .ok roots t)
    (h' : Run.rootsOf ignores paths' s = .ok roots' t') : roots = roots' := by
  obtain ⟨all, hall, rfl⟩ := rootsOf_inv h
  obtain ⟨all', hall', rfl⟩ := rootsOf_inv h'
  refine Text.sort_distinct_congr fun root => ?_
  simp only [List.mem_flatten, mem_of_mapM hall, mem_of_mapM hall', hsame]

theorem mem_searchedPaths_congr (hsame : ∀ path, path ∈ paths ↔ path ∈ paths') (path : String) :
    path ∈ searchedPaths paths ↔ path ∈ searchedPaths paths' := by
  have hempty : paths.isEmpty = paths'.isEmpty := by
    rw [Bool.eq_iff_iff, List.isEmpty_iff, List.isEmpty_iff, List.eq_nil_iff_forall_not_mem,
      List.eq_nil_iff_forall_not_mem]
    simp only [hsame]
  unfold searchedPaths
  rw [hempty]
  split
  · exact Iff.rfl
  · exact hsame path

end

section

variable {settings : DepsSettings} {paths paths' roots roots' : List String} {s s₁ s₂ : Session}

theorem InputRoots.congr (hsame : ∀ path, path ∈ paths ↔ path ∈ paths') (h : InputRoots settings paths s roots)
    (h' : InputRoots settings paths' s roots') : roots = roots' := by
  obtain ⟨_, h⟩ := h
  obtain ⟨_, h'⟩ := h'
  exact rootsOf_congr (mem_searchedPaths_congr hsame) h h'

theorem givenFiles_congr (hsame : ∀ path, path ∈ paths ↔ path ∈ paths') :
    givenFiles settings paths s = givenFiles settings paths' s := by
  ext f
  simp only [givenFiles, asked, FileSystem.pythonFiles, Set.mem_ofPred_eq, List.mem_flatMap,
    mem_searchedPaths_congr hsame]

/-! ## Runs with the same paths -/

/-- **The order of the arguments.** Two runs in one session with the same settings print the same if they are given the
same paths, in whatever order and however often. -/
theorem out_of_same_paths (hsame : ∀ path, path ∈ paths ↔ path ∈ paths') (h : Returns settings paths s s₁)
    (h' : Returns settings paths' s s₂) : s₁.console.out = s₂.console.out := by
  cases hroots : settings.printRoots with
  | true =>
    obtain ⟨roots, hinput, hout⟩ := h.roots_printed hroots
    obtain ⟨roots', hinput', hout'⟩ := h'.roots_printed hroots
    rw [hout, hout', hinput.congr hsame hinput']
  | false =>
    obtain ⟨roots, ps, l⟩ := h.listing hroots
    obtain ⟨roots', ps', l'⟩ := h'.listing hroots
    obtain rfl := l.input.congr hsame l'.input
    have hps : ps = ps' := l.sorted.eq_of_mem_iff l'.sorted fun p => by
      rw [l.mem_iff, l'.mem_iff, givenFiles_congr hsame]
    exact l.printed.trans (hps ▸ l'.printed.symm)

theorem circle_in_either_order : ∃ s₁ s₂, deps ["-f", "/proj/a.py", "/proj/b.py"] circle = .ok () s₁ ∧
    deps ["-f", "/proj/b.py", "/proj/a.py", "/proj/b.py"] circle = .ok () s₂ ∧ s₁.console.out = s₂.console.out ∧
    ∃ ps, Printed circle s₁ ps ∧ ⟨⟨"/proj", "a.py"⟩, ⟨"/proj", "b.py"⟩⟩ ∈ ps := by
  have hread : Options.read depsFlags ["-f", "/proj/a.py", "/proj/b.py"] { ignores := circle.ignores } =
      .ok ["/proj/a.py", "/proj/b.py"] followOnly := rfl
  have hread' : Options.read depsFlags ["-f", "/proj/b.py", "/proj/a.py", "/proj/b.py"] { ignores := circle.ignores } =
      .ok ["/proj/b.py", "/proj/a.py", "/proj/b.py"] followOnly := rfl
  obtain ⟨s₁, ps, h, l⟩ := deps_ok ["/proj"] circleFiles hread (.inl rfl) rfl rfl (by decide +kernel)
    (by decide +kernel) (by decide +kernel)
  obtain ⟨s₂, _, h', _⟩ := deps_ok ["/proj"] circleFiles hread' (.inl rfl) rfl rfl (by decide +kernel)
    (by decide +kernel) (by decide +kernel)
  have hgiven : FileSystem.Found.file "/proj/a.py" ∈
      circle.files.pythonFiles defaultIgnores ["/proj/a.py", "/proj/b.py"] := by decide +kernel
  exact ⟨s₁, s₂, h, h', out_of_same_paths (by simp [or_comm]) ⟨_, hread, h⟩ ⟨_, hread', h'⟩, ps, l.printed,
    l.mem_of_draws (by decide) hgiven (by decide +kernel)⟩

end

end Tools

end ImportAtlas
