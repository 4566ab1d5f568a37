import ImportAtlas.Modules.Dotted
import ImportAtlas.Proofs.Runs

/-!
# The module cache

What the search path gave for a name is remembered. Caches agree if they lead to the same answers; looking up
imports keeps to caches that agree, and with any two of them an import means the same.
-/

namespace ImportAtlas.Finder

/-- What the search path gives for a name, from memory if it was asked before. -/
def answer (finder : Finder) (cache : ModuleCache) (name : String) : Except Fault (Option String) :=
  match cache.lookup name with
  | some file => .ok file
  | none => finder.dotted (partsOf name) none

def Agree (finder : Finder) (c d : ModuleCache) : Prop :=
  ∀ name, finder.answer c name = finder.answer d name

variable (finder : Finder)

theorem agree_equivalence : Equivalence finder.Agree where
  refl _ _ := rfl
  symm h name := (h name).symm
  trans h k name := (h name).trans (k name)

theorem agree_append {cache : ModuleCache} {name : String} {file : Option String}
    (hnew : cache.lookup name = none) (hfile : finder.dotted (partsOf name) none = .ok file) :
    finder.Agree cache (cache ++ [(name, file)]) := by
  intro other
  unfold answer
  rw [List.lookup_append]
  cases hc : cache.lookup other with
  | some known => rfl
  | none =>
    by_cases ho : other = name
    · subst ho
      simp [hfile]
    · have hne : (other == name) = false := by simpa using ho
      simp [List.lookup_cons, hne]

theorem remembered_eq (cache : ModuleCache) (name : String) :
    ∃ cache', finder.Agree cache cache' ∧ finder.remembered name cache =
      (liftM (finder.answer cache name) : EStateM Fault ModuleCache (Option String)) cache' := by
  unfold remembered answer
  rw [bind_of_ok (rfl : (get : EStateM Fault ModuleCache ModuleCache) cache = .ok cache cache)]
  cases hl : cache.lookup name with
  | some file => exact ⟨cache, finder.agree_equivalence.refl cache, rfl⟩
  | none =>
    cases hd : finder.dotted (partsOf name) none with
    | error fault => exact ⟨cache, finder.agree_equivalence.refl cache, rfl⟩
    | ok file => exact ⟨cache ++ [(name, file)], finder.agree_append hl hd, rfl⟩

theorem respects_remembered (name : String) :
    Respects finder.Agree (finder.remembered name) := by
  intro c d hcd
  obtain ⟨c', hc, hcr⟩ := finder.remembered_eq c name
  obtain ⟨d', hd, hdr⟩ := finder.remembered_eq d name
  have hE := finder.agree_equivalence
  have hcd' := hE.trans (hE.symm hc) (hE.trans hcd hd)
  rw [hcr, hdr, hcd name]
  cases finder.answer d name with
  | ok file => exact .ok file hc hcd'
  | error fault => exact .error fault hc hcd'

theorem respects_ownFile (name : String) (dir : Option String) (level : Value) :
    Respects finder.Agree (finder.ownFile name dir level) := by
  have hE := finder.agree_equivalence
  refine respects_bind hE (respects_lift hE _) fun start => ?_
  refine respects_bind hE (respects_lift hE _) fun found => ?_
  cases found with
  | some file => exact respects_pure hE _
  | none => exact finder.respects_remembered name

theorem respects_importedFile (module symbol : Value) (dir : Option String) (level : Value) :
    Respects finder.Agree (finder.importedFile module symbol dir level) := by
  have hE := finder.agree_equivalence
  refine respects_bind hE (respects_lift hE _) fun name => ?_
  split
  · exact respects_pure hE _
  · exact respects_bind hE (finder.respects_ownFile name dir level) fun _ => respects_lift hE _

/-! ## What an import means -/

variable {finder} {cache cache' : ModuleCache} {name : String} {dir : Option String} {level : Value}

theorem remembered_inv {own : Option String} (h : finder.remembered name cache = .ok own cache') :
    finder.answer cache name = .ok own := by
  obtain ⟨c, _, hc⟩ := finder.remembered_eq cache name
  exact (lift_inv (hc.symm.trans h)).1

theorem ownFile_inv {own : Option String} (h : finder.ownFile name dir level cache = .ok own cache') :
    ∃ start, startDir dir level = .ok start ∧
      (own ≠ none ∧ finder.dotted (partsOf name) start = .ok own ∨
        finder.dotted (partsOf name) start = .ok none ∧ finder.answer cache name = .ok own) := by
  obtain ⟨start, hstart, h⟩ := lift_bind_inv h
  obtain ⟨found, hfound, h⟩ := lift_bind_inv h
  refine ⟨start, hstart, ?_⟩
  cases found with
  | some file =>
    obtain ⟨rfl, _⟩ := pure_inv h
    exact .inl ⟨nofun, hfound⟩
  | none => exact .inr ⟨hfound, remembered_inv h⟩

theorem importedFile_inv {module symbol : Value} {result : Option String × Option (List Problem)}
    (h : finder.importedFile module symbol dir level cache = .ok result cache') :
    ∃ name, module = .str name ∧
      (name ∈ finder.installation.builtinNames ∧
          result = (some (Path.join finder.installation.libraryDir name), none) ∧ cache = cache' ∨
        name ∉ finder.installation.builtinNames ∧ ∃ own, finder.ownFile name dir level cache = .ok own cache' ∧
          finder.meant name symbol own = .ok result) := by
  obtain ⟨name, hname, h⟩ := lift_bind_inv h
  have hmodule : module = .str name := by
    cases module with
    | str _ => cases hname; rfl
    | _ => cases hname
  refine ⟨name, hmodule, ?_⟩
  split at h
  · rename_i hb
    obtain ⟨rfl, rfl⟩ := pure_inv h
    exact .inl ⟨hb, rfl, rfl⟩
  · rename_i hb
    obtain ⟨own, c, hown, h⟩ := bind_inv h
    obtain ⟨hmeant, rfl⟩ := lift_inv h
    exact .inr ⟨hb, own, hown, hmeant⟩

end ImportAtlas.Finder
