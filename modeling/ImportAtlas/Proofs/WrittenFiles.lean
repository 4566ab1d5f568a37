import ImportAtlas.Proofs.MadeDirectories

/-!
# Files that are written

A file is written over the one that is there, or into its directory. If its path led nowhere and its directory was
missing, it is new as well, unless the path to the directory goes around.
-/

namespace ImportAtlas

namespace FileSystem

variable {T : String → Prop} {fs fs' fs₁ : FileSystem} {path : String} {p : List String}

/-! ## Where a file is written -/

theorem not_isLink_of_place (h : fs.place path = .ok p) : ∃ e, fs.root.get? p = some e ∧ e.isLink = false :=
  (place_entry h).2

theorem writeSite_inv (h : fs.writeSite path = .ok p) :
    fs.site path = .ok p ∧ ∀ items, fs.root.get? p ≠ some (.dir items) := by
  unfold writeSite at h
  split at h
  · cases h
  · obtain ⟨parts, hsite, h⟩ := except_bind_inv h
    split at h
    · cases h
    · rename_i hnot
      cases h
      exact ⟨hsite, hnot⟩

/-- A file is written where nothing is, or over a file that is there. -/
theorem writeSite_cases (h : fs.writeSite path = .ok p) :
    Vacant fs.root p ∨ ∃ old, fs.place path = .ok p ∧ fs.root.get? p = some old ∧ old.isPlain = true := by
  obtain ⟨hsite, hnot⟩ := writeSite_inv h
  rcases site_cases hsite with hplace | ⟨_, hvacant⟩
  · obtain ⟨old, hold, hlink⟩ := not_isLink_of_place hplace
    refine .inr ⟨old, hplace, hold, ?_⟩
    cases old with
    | dir items => exact absurd hold (hnot items)
    | link target => cases hlink
    | _ => rfl
  · exact .inl hvacant

/-- In a directory without entries no file is written over another. -/
theorem vacant_of_leadsToEmpty (hempty : fs.LeadsToEmpty (Path.parent path)) (h : fs.writeSite path = .ok p) :
    Vacant fs.root p := by
  obtain ⟨hsite, hnot⟩ := writeSite_inv h
  obtain ⟨parts, hparent, hdir⟩ := hempty
  obtain ⟨hne, habove⟩ := place_above hparent
  obtain ⟨xs, hsegments, hfollow⟩ := follow_above hne habove hdir
  rw [site, if_neg hne, hsegments] at hsite
  have hlast : ∀ r, (∀ limit, follow fs.root true limit parts [Path.base path] = r) → r = .ok p :=
    fun r hr => (follow_append_of hfollow hr).symm.trans hsite
  by_cases hstay : Path.base path = "" ∨ Path.base path = "."
  · cases hlast (.ok parts) (follow_stay_dir hdir hstay true)
    exact absurd hdir (hnot [])
  · by_cases hup : Path.base path = ".."
    · have hdropped : (.ok parts.dropLast : Except Fault (List String)) = .ok p := by
        refine hlast _ fun limit => ?_
        obtain ⟨jump, hjump⟩ := follow_eq fs.root true limit
        rw [hjump, hup, followTo_up hdir]
        rfl
      cases hdropped
      rcases Entry.get?_dropLast hdir with rfl | ⟨items, hitems⟩
      · exact absurd hdir (hnot [])
      · exact absurd hitems (hnot items)
    · have hname : IsName (Path.base path) := ⟨fun he => hstay (.inl he), fun he => hstay (.inr he), hup⟩
      have hnone : fs.root.get? (parts ++ [Path.base path]) = none := by
        rw [Entry.get?_append_singleton, hdir]
        rfl
      have hnew : (.ok (parts ++ [Path.base path]) : Except Fault (List String)) = .ok p := by
        refine hlast _ fun limit => ?_
        obtain ⟨jump, hjump⟩ := follow_eq fs.root true limit
        rw [hjump, followTo_new hdir hname hnone]
        rfl
      cases hnew
      exact ⟨hnone, parts, _, [], rfl, hdir⟩

/-! ## What is written -/

theorem place_put (h : fs.writeSite path = .ok p) {e : Entry} (he : e.isPlain = true) :
    (fs.put p e).place path = .ok p := by
  have hgrows : fs.root.Grows (Entry.put e p fs.root) := by
    rcases writeSite_cases h with hvacant | ⟨old, _, hold, hplain⟩
    · exact (grows_put_vacant hvacant).1
    · exact (grows_put_plain hold hplain he).1
  exact @place_of_site fs (fs.put p e) rfl hgrows _ _ (writeSite_inv h).1 _ (Entry.get?_put_self _ _ _)
    (Entry.isLink_of_isPlain he)

theorem locate_put (h : fs.writeSite path = .ok p) {e : Entry} (he : e.isPlain = true) :
    (fs.put p e).locate path = .ok e :=
  locate_of_place (place_put h he) (Entry.get?_put_self _ _ _)

/-- A path that led nowhere is written to after its directory may have been made. -/
theorem extends_put_written (hfirst : Extends T fs fs₁) (hnone : fs.exists? path = false)
    (hdir : fs₁ = fs ∨ fs₁.LeadsToEmpty (Path.parent path) ∨ Change.Roundabout (Path.parent path))
    (hT : Change.Roundabout (Path.parent path) → T path) (h : fs₁.writeSite path = .ok p) {e : Entry}
    (he : e.isPlain = true) : Extends T fs (fs₁.put p e) := by
  rcases writeSite_cases h with hvacant | ⟨old, hplace, hold, hplain⟩
  · exact hfirst.trans (extends_put_vacant hvacant e)
  · -- there is a file already, so the directory is neither as it was nor new
    rcases hdir with rfl | hempty | hround
    · rw [exists?_iff.2 ⟨p, hplace⟩] at hnone
      cases hnone
    · have hvacant := vacant_of_leadsToEmpty hempty h
      cases hvacant.none.symm.trans hold
    · exact extends_put_plain hfirst (hT hround) hnone hplace hold hplain he

theorem content_inv {source : String} {e : Entry} (h : fs.content source = .ok e) :
    fs.locate source = .ok e ∧ e.isPlain = true := by
  obtain ⟨e', hlocate, h⟩ := except_bind_inv h
  have hlink : e'.isLink = false := by
    obtain ⟨parts, hplace, hget⟩ := place_of_locate hlocate
    obtain ⟨e'', he'', hlink⟩ := not_isLink_of_place hplace
    cases hget.symm.trans he''
    exact hlink
  cases e' with
  | dir items => cases h
  | link target => cases hlink
  | _ => cases h; exact ⟨hlocate, rfl⟩

end FileSystem

open FileSystem

namespace Change

/-- A copy is made, or nothing is changed. -/
theorem copy_cases (source target : String) (fs : FileSystem) :
    (∃ fault, fault.Fatal ∧ copy source target fs = .error fault fs) ∨
      ∃ e p, fs.content source = .ok e ∧ fs.writeSite target = .ok p ∧ copy source target fs = .ok () (fs.put p e) := by
  have hget : ∀ fs, (get : Change FileSystem) fs = .ok fs fs := fun _ => rfl
  unfold copy
  rw [bind_of_ok (hget fs)]
  split
  · exact .inl ⟨.sameFile, nofun, rfl⟩
  · dsimp only
    rw [bind_of_ok (hget fs)]
    cases hcontent : fs.content source with
    | error fault => exact .inl ⟨fault, (fs.content_faults source fault hcontent).fatal, rfl⟩
    | ok e =>
      rw [lift_bind_of_ok rfl, bind_of_ok (hget fs)]
      cases hsite : fs.writeSite target with
      | ok p => exact .inr ⟨e, p, rfl, rfl, rfl⟩
      | error fault =>
        have hfatal := (fs.writeSite_faults target fault hsite).fatal
        cases fault with
        | isDirectory =>
          refine .inl ⟨if fs.exists? target then .isDirectory else .noSuchFile, ?_, rfl⟩
          split <;> exact nofun
        | _ => exact .inl ⟨_, hfatal, rfl⟩

theorem write_cases (path : String) (source : Source) (fs : FileSystem) :
    (∃ fault, fault.Fatal ∧ write path source fs = .error fault fs) ∨
      ∃ p, fs.writeSite path = .ok p ∧ write path source fs = .ok () (fs.put p (.file source)) := by
  unfold write
  rw [bind_of_ok (rfl : (get : Change FileSystem) fs = .ok fs fs)]
  cases hsite : fs.writeSite path with
  | error fault => exact .inl ⟨fault, (fs.writeSite_faults path fault hsite).fatal, rfl⟩
  | ok p => exact .inr ⟨p, rfl, rfl⟩

end Change

end ImportAtlas
