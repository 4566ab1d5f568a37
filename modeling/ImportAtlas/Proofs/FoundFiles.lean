import ImportAtlas.Proofs.ImportFiles
import ImportAtlas.Proofs.Links

/-!
# Files that imports can mean

Looking up a module gives the path of a file that is there. So the files that imports can mean in a session are
among finitely many: the places of its tree, the built-in modules, and what its cache holds.
-/

namespace ImportAtlas

namespace Finder

def HasFile (fs : FileSystem) (m : Loader) : Prop :=
  m.type = .package ∨ m.type = .builtin ∨ ∃ file, m.file = some file ∧ fs.isFile file = true

variable {fs : FileSystem} {finder : Finder} {m : Loader} {dir : Option String} {name file : String}

theorem inDir_hasFile {dir : String} (h : inDir fs dir name = some m) : HasFile fs m := by
  unfold inDir at h
  dsimp only at h
  split at h
  · cases h
    exact .inl rfl
  · obtain ⟨⟨suffix, type⟩, _, h⟩ := List.exists_of_findSome?_eq_some h
    dsimp only at h
    split at h
    · rename_i hfile
      cases h
      exact .inr (.inr ⟨_, rfl, hfile⟩)
    · cases h

theorem opened_hasFile {m' : Loader} (h : opened fs m = .ok m') (hm : HasFile fs m) : HasFile fs m' := by
  unfold opened at h
  split at h
  · obtain ⟨source, _, h⟩ := except_bind_inv h
    obtain ⟨encoding, _, h⟩ := except_bind_inv h
    cases h
    exact hm
  · cases h
    exact hm

theorem inDirs_hasFile {dirs : List Value} (h : inDirs fs name dirs = .ok (some m)) : HasFile fs m := by
  induction dirs with
  | nil => cases h
  | cons dir rest ih =>
    obtain ⟨path, _, h⟩ := except_bind_inv h
    cases hd : inDir fs path name with
    | none => rw [hd] at h; exact ih h
    | some found =>
      rw [hd] at h
      change some <$> opened fs found = _ at h
      cases ho : opened fs found with
      | error fault => rw [ho] at h; cases h
      | ok m' =>
        rw [ho] at h
        cases h
        exact opened_hasFile ho (inDir_hasFile hd)

theorem hasFile_of_renamed {x : Except Fault (Option Loader)}
    (h : (x >>= fun found => pure (found.map fun l : Loader => { l with name })) = .ok (some m))
    (hx : ∀ m', x = .ok (some m') → HasFile fs m') : HasFile fs m := by
  obtain ⟨found, rfl, h⟩ := except_bind_inv h
  cases found with
  | none => cases h
  | some m' =>
    cases h
    exact hx m' rfl

theorem find_hasFile (h : finder.find dir name = .ok (some m)) : HasFile finder.files m := by
  unfold find at h
  cases dir with
  | some dir => exact hasFile_of_renamed h fun _ => inDirs_hasFile
  | none =>
    dsimp only at h
    split at h
    · cases h
    · split at h
      · cases h
        exact .inr (.inl rfl)
      · exact hasFile_of_renamed h fun _ => inDirs_hasFile

theorem fileOf_isFile {fuel : Nat} (hm : HasFile finder.files m) (h : finder.fileOf fuel m = .ok (some file)) :
    finder.files.isFile file = true := by
  induction fuel generalizing m with
  | zero => cases h
  | succ fuel ih =>
    rw [fileOf] at h
    split at h
    · -- the file of a package is that of a module in it
      obtain ⟨init, hinit, h⟩ := except_bind_inv h
      refine ih ?_ h
      obtain ⟨found, hfound, hinit⟩ := except_bind_inv hinit
      cases found with
      | none => cases hinit
      | some found =>
        cases hinit
        exact find_hasFile hfound
    · cases h
    · rename_i hp hb
      rcases hm with hm | hm | ⟨own, hown, hfile⟩
      · exact absurd hm hp
      · exact absurd hm hb
      · rw [hown] at h
        cases h
        exact hfile

theorem dotted_isFile {names : List Value} (h : finder.dotted names dir = .ok (some file)) :
    finder.files.isFile file = true := by
  have run : ∀ (names : List Value) (before dir : Option String),
      (∀ own, before = some own → finder.files.isFile own = true) →
      finder.dottedFrom before dir names = .ok (some file) → finder.files.isFile file = true := by
    intro names
    induction names with
    | nil =>
      intro before dir hbefore h
      exact hbefore file (Except.ok.inj h)
    | cons name rest ih =>
      intro before dir _ h
      obtain ⟨text, _, h⟩ := except_bind_inv h
      obtain ⟨found, hfound, h⟩ := except_bind_inv h
      cases found with
      | none => cases h
      | some m =>
        obtain ⟨own, hown, h⟩ := except_bind_inv h
        cases own with
        | none => cases h
        | some own =>
          refine ih (some own) _ ?_ h
          rintro _ ⟨⟩
          exact fileOf_isFile (find_hasFile hfound) hown
  exact run names none dir nofun h

end Finder

/-! ## Candidates -/

theorem FileSystem.realPath_mem_places {fs : FileSystem} {path : String} (h : fs.isFile path = true) :
    fs.realPath path ∈ (fs.root.placesOf fun _ => true).map Path.ofParts := by
  unfold isFile at h
  cases hl : fs.locate path with
  | error fault => rw [hl] at h; cases h
  | ok e =>
    obtain ⟨parts, hplace, hl⟩ := except_bind_inv hl
    cases hg : fs.root.get? parts with
    | none => rw [hg] at hl; cases hl
    | some e' =>
      rw [realPath_eq hplace]
      exact List.mem_map_of_mem (Entry.mem_placesOf hg rfl)

open Session

namespace Session

def candidates (s : Session) : List String :=
  (s.files.root.placesOf fun _ => true).map Path.ofParts ++
    s.installation.builtinNames.map (fun name => s.files.realPath (Path.join s.installation.libraryDir name)) ++
    s.cache.filterMap fun known => known.2.map s.files.realPath

theorem length_candidates_le (s : Session) :
    s.candidates.length ≤ s.files.root.size + s.installation.builtinNames.length + s.cache.length := by
  have hcache := List.length_filterMap_le (fun known : String × Option String => known.2.map s.files.realPath) s.cache
  rw [candidates, List.length_append, List.length_append, List.length_map, List.length_map,
    Entry.length_placesOf_true]
  omega

inductive Findable (s : Session) : String → Prop
  | file {path : String} : s.files.isFile path = true → Findable s (s.files.realPath path)
  | builtin {name : String} : name ∈ s.installation.builtinNames →
    Findable s (s.files.realPath (Path.join s.installation.libraryDir name))
  | remembered {name own : String} : (name, some own) ∈ s.cache → Findable s (s.files.realPath own)

theorem Findable.mem_candidates {s : Session} {f : String} (h : s.Findable f) : f ∈ s.candidates := by
  cases h with
  | file h => exact List.mem_append_left _ (List.mem_append_left _ (FileSystem.realPath_mem_places h))
  | builtin h => exact List.mem_append_left _ (List.mem_append_right _ (List.mem_map.2 ⟨_, h, rfl⟩))
  | remembered h => exact List.mem_append_right _ (List.mem_filterMap.2 ⟨_, h, rfl⟩)

theorem findable_of_ownFile {s : Session} {name own : String} {dir : Option String} {level : Value}
    {cache : ModuleCache} (h : s.lookups.ownFile name dir level s.cache = .ok (some own) cache) :
    s.Findable (s.files.realPath own) := by
  obtain ⟨start, _, ⟨_, hown⟩ | ⟨_, hown⟩⟩ := Finder.ownFile_inv h
  · exact .file (Finder.dotted_isFile hown)
  · unfold Finder.answer at hown
    cases hl : s.cache.lookup name with
    | none =>
      rw [hl] at hown
      exact .file (Finder.dotted_isFile hown)
    | some known =>
      rw [hl] at hown
      cases hown
      obtain ⟨before, after, hcache, _⟩ := List.lookup_eq_some_iff.1 hl
      have hmem : (name, some own) ∈ s.cache := by rw [hcache]; simp
      exact .remembered hmem

theorem Means.findable {s : Session} {path f : String} {r : ImportRecord} (h : s.Means path r f) : s.Findable f := by
  obtain ⟨found, problems, ⟨cache, hgives⟩, rfl⟩ := h
  obtain ⟨name, _, ⟨hb, hresult, _⟩ | ⟨_, own, hown, hmeant⟩⟩ := Finder.importedFile_inv hgives
  · cases hresult
    exact .builtin hb
  · cases own with
    | none => cases hmeant
    | some own =>
      have hown := findable_of_ownFile hown
      rw [Finder.meant] at hmeant
      split at hmeant
      · cases hmeant
        exact hown
      · obtain ⟨sub, hsub, hmeant⟩ := except_bind_inv hmeant
        cases sub with
        | some sub =>
          cases hmeant
          exact .file (Finder.dotted_isFile hsub)
        | none =>
          obtain ⟨symbol, _, hmeant⟩ := except_bind_inv hmeant
          cases hmeant
          exact hown

end Session

/-! ## Problems with imports -/

def Problem.Named (p : Problem) : Prop := ∃ name, p.name = .str name

theorem Finder.meant_named {finder : Finder} {module : String} {symbol : Value} {own file : Option String}
    {problems : Option (List Problem)} (h : finder.meant module symbol own = .ok (file, problems)) :
    ∀ p ∈ problems.getD [], p.Named := by
  cases own with
  | none =>
    cases h
    exact List.forall_mem_singleton.2 ⟨_, rfl⟩
  | some own =>
    rw [meant] at h
    split at h
    · cases h
      exact List.forall_mem_nil _
    · obtain ⟨sub, _, h⟩ := except_bind_inv h
      cases sub with
      | some sub =>
        cases h
        exact List.forall_mem_nil _
      | none =>
        obtain ⟨symbol, _, h⟩ := except_bind_inv h
        cases h
        exact List.forall_mem_singleton.2 ⟨_, rfl⟩

theorem Session.Gives.named {s : Session} {path : String} {r : ImportRecord} {file : Option String}
    {problems : Option (List Problem)} (h : s.Gives path r (file, problems)) : ∀ p ∈ problems.getD [], p.Named := by
  obtain ⟨cache, h⟩ := h
  obtain ⟨name, _, ⟨_, hresult, _⟩ | ⟨_, own, _, hmeant⟩⟩ := Finder.importedFile_inv h
  · cases hresult
    exact List.forall_mem_nil _
  · exact Finder.meant_named hmeant

/-! ## What a file needs -/

section

variable {options : SearchOptions} {path : String} {s s' : Session} {needs : Needs}

/-- Imports that were left out may have any name. -/
theorem needs_of_dependenciesOf (h : Run.dependenciesOf options path s = .ok needs s') :
    (∀ f ∈ needs.files, s.Findable f) ∧ (options.ignoreUnused = false → ∀ p ∈ needs.problems, p.Named) := by
  unfold Run.dependenciesOf at h
  obtain ⟨source, s₁, hsource, h⟩ := bind_inv h
  obtain ⟨_, _, hlike, _⟩ := (Run.respects_readSource path).ok (alike_equivalence.refl s) hsource
  cases ht : source.tree with
  | none =>
    rw [ht] at h
    obtain ⟨rfl, _⟩ := pure_inv h
    exact ⟨List.forall_mem_nil _, fun _ => List.forall_mem_nil _⟩
  | some t =>
    rw [ht] at h
    obtain ⟨⟨imports, problems⟩, hconsidered, h⟩ := lift_bind_inv h
    obtain ⟨⟨needs', seen⟩, s₂, hloop, h⟩ := bind_inv h
    obtain ⟨rfl, _⟩ := pure_inv h
    have hproblems : options.ignoreUnused = false → ∀ p ∈ problems, p.Named := by
      intro hunused
      obtain ⟨records, _, hconsidered⟩ := except_bind_inv hconsidered
      rw [if_neg (by simp [hunused])] at hconsidered
      cases hconsidered
      exact List.forall_mem_nil _
    suffices hinv : Alike s s₂ ∧ (∀ f ∈ needs'.files, s.Findable f) ∧
        (options.ignoreUnused = false → ∀ p ∈ needs'.problems, p.Named) from hinv.2
    refine foldlM_run (fun _ state t => Alike s t ∧ (∀ f ∈ state.1.files, s.Findable f) ∧
      (options.ignoreUnused = false → ∀ p ∈ state.1.problems, p.Named)) ?_
        ⟨hlike, List.forall_mem_nil _, hproblems⟩ hloop
    rintro done record rest state t state' t' _ ⟨hst, hfiles, hnamed⟩ hstep
    obtain ⟨_, _, htt, _⟩ := (Run.respects_needsOf _ _ _ _ _).ok (alike_equivalence.refl t) hstep
    refine ⟨alike_equivalence.trans hst htt, ?_⟩
    obtain ⟨r, hr, _⟩ := lift_bind_inv hstep
    rcases needsOf_inv hr hstep with ⟨rfl, _⟩ | ⟨_, _, _, file, problems, hgives, hfound, hmet⟩
    · exact ⟨hfiles, hnamed⟩
    · have hgives := (alike_equivalence.symm hst).gives hgives
      rw [hfound, hmet, ← hst.files]
      refine ⟨List.forall_mem_append.2 ⟨hfiles, fun f hf => (hgives.means_iff.2 hf).findable⟩, fun hunused => ?_⟩
      exact List.forall_mem_append.2 ⟨hnamed hunused, hgives.named⟩

end

end ImportAtlas
