import ImportAtlas.Proofs.Faults
import ImportAtlas.Proofs.Growth

/-!
# Directories that are made

A directory is made after those above it that are missing. What is made is empty, and the path leads there. There is one
way around this: that a directory above is found to be there is no fault, and after that a last part that stays where
it is asks for nothing more. So a path that goes up and ends in such a part may lead to a directory that is not new.
-/

namespace ImportAtlas

namespace Path

/-- A path has no slash, or it is cut at the last one. -/
theorem cut_cases (path : String) : parent path = "" ∧ base path = path ∧ '/' ∉ path.toList ∨
    ∃ front, path = front ++ "/" ++ base path ∧ parent path = trimmed (front ++ "/") ∧ '/' ∉ (base path).toList := by
  by_cases hslash : '/' ∈ path.toList
  · obtain ⟨name, front, hcut, hname⟩ := List.eq_append_cons_of_mem (List.mem_reverse.2 hslash)
    have hchars : path.toList = front.reverse ++ '/' :: name.reverse := by
      rw [← List.reverse_reverse path.toList, hcut]
      simp
    have hname' : '/' ∉ name.reverse := by simpa using hname
    have hbase : base path = String.ofList name.reverse := by rw [base, hchars, lastChars_append hname']
    refine .inr ⟨String.ofList front.reverse, ?_, ?_, ?_⟩
    · rw [hbase, ← String.toList_inj, hchars]
      simp
    · rw [parent, hchars, upToSlash_append hname', trimmed]
      simp
    · rwa [hbase, String.toList_ofList]
  · refine .inl ⟨?_, ?_, hslash⟩
    · rw [parent, upToSlash_of_not_mem hslash]
      rfl
    · rw [base, lastChars_of_not_mem hslash, String.ofList_toList]

theorem withoutSlashes_withoutSlashes (path : List Char) :
    withoutSlashes (withoutSlashes path) = withoutSlashes path := by
  induction path using List.reverseRecOn with
  | nil => rfl
  | append_singleton front c ih =>
    rcases withoutSlashes_concat front c with hsame | ⟨_, _, hshorter⟩
    · rw [hsame, hsame]
    · rw [hshorter, ih]

theorem trimmed_parent (path : String) : trimmed (parent path) = parent path := by
  rw [trimmed, parent, String.toList_ofList, withoutSlashes_withoutSlashes]

theorem parent_of_base_empty {path : String} (htrim : trimmed path = path) (hbase : base path = "") :
    parent path = path := by
  rcases cut_cases path with ⟨hparent, hpath, _⟩ | ⟨front, hpath, hparent, _⟩
  · rw [hparent, ← hpath, hbase]
  · rw [hbase, String.append_empty] at hpath
    rw [hparent, ← hpath, htrim]

theorem mem_segments_trimmed {path part : String} (h : part ∈ segments (trimmed path)) : part ∈ segments path := by
  have run : ∀ chars : List Char, part ∈ segments (String.ofList (withoutSlashes chars)) →
      part ∈ segments (String.ofList chars) := by
    intro chars
    induction chars using List.reverseRecOn with
    | nil => exact id
    | append_singleton front c ih =>
      intro hpart
      rcases withoutSlashes_concat front c with hsame | ⟨rfl, _, hshorter⟩
      · rwa [hsame] at hpart
      · rw [hshorter] at hpart
        rw [String.ofList_append]
        change part ∈ segments (String.ofList front ++ "/")
        rw [segments_slash]
        exact List.mem_append_left _ (ih hpart)
  have hrun := run path.toList
  rw [String.ofList_toList] at hrun
  exact hrun h

theorem segments_of_not_mem {name : String} (h : '/' ∉ name.toList) : segments name = [name] := by
  rcases eq_or_ne name "" with rfl | hne
  · exact segments_empty
  · exact segments_of_isPart ⟨hne, h⟩

theorem base_mem_segments (path : String) : base path ∈ segments path := by
  rcases cut_cases path with ⟨_, hbase, hslash⟩ | ⟨front, hpath, _, hname⟩
  · rw [hbase, segments_of_not_mem hslash]
    exact List.mem_singleton_self path
  · have hsegments : segments path = segments front ++ [base path] := by
      conv_lhs => rw [hpath]
      rw [segments_append, segments_of_not_mem hname]
    simp [hsegments]

theorem mem_segments_parent {path part : String} (h : part ∈ segments (parent path)) :
    part = "" ∨ part ∈ segments path := by
  rcases cut_cases path with ⟨hparent, _, _⟩ | ⟨front, hpath, hparent, _⟩
  · rw [hparent, segments_empty] at h
    exact .inl (List.mem_singleton.1 h)
  · rw [hparent] at h
    have hfront := mem_segments_trimmed h
    rw [segments_slash] at hfront
    rw [hpath, segments_append]
    rcases List.mem_append.1 hfront with hmem | hmem
    · exact .inr (List.mem_append_left _ hmem)
    · exact .inl (List.mem_singleton.1 hmem)

end Path

namespace FileSystem

variable {fs fs' : FileSystem} {path : String} {parts p : List String} {items : List (String × Entry)}

/-! ## The directory of a path -/

theorem follow_eq (root : Entry) (create : Bool) (limit : Nat) :
    ∃ jump, ∀ here todo, follow root create limit here todo = followTo root create jump here todo := by
  cases limit with
  | zero => exact ⟨_, fun _ _ => rfl⟩
  | succ limit => exact ⟨_, fun _ _ => rfl⟩

theorem follow_stay_dir {root : Entry} (hdir : root.get? parts = some (.dir items)) {part : String}
    (hpart : part = "" ∨ part = ".") (create : Bool) (limit : Nat) :
    follow root create limit parts [part] = .ok parts := by
  obtain ⟨jump, hjump⟩ := follow_eq root create limit
  rw [hjump, followTo_stay hdir hpart]
  rfl

/-- Slashes can be put after a path to a directory. -/
theorem place_of_trimmed (h : fs.place (Path.trimmed path) = .ok parts)
    (hdir : fs.root.get? parts = some (.dir items)) : fs.place path = .ok parts := by
  have slash : ∀ front : String, front ≠ "" → fs.place front = .ok parts → fs.place (front ++ "/") = .ok parts := by
    intro front hne hplace
    rw [place, if_neg hne] at hplace
    rw [place, if_neg fun h => hne (String.append_eq_empty_iff.1 h).1, start, Path.isAbsolute_append hne, ← start,
      Path.segments_slash]
    exact follow_append_of hplace (follow_stay_dir hdir (.inl rfl) false)
  have run : ∀ chars : List Char, fs.place (String.ofList (Path.withoutSlashes chars)) = .ok parts →
      fs.place (String.ofList chars) = .ok parts := by
    intro chars
    induction chars using List.reverseRecOn with
    | nil => exact id
    | append_singleton front c ih =>
      intro hplace
      rcases Path.withoutSlashes_concat front c with hsame | ⟨rfl, hfront, hshorter⟩
      · rwa [hsame] at hplace
      · rw [hshorter] at hplace
        rw [String.ofList_append]
        exact slash _ (by simpa using hfront) (ih hplace)
  have hrun := run path.toList
  rw [String.ofList_toList] at hrun
  exact hrun h

def above (path : String) : String := if Path.parent path = "" then "." else Path.parent path

theorem place_above (h : fs.place (Path.parent path) = .ok parts) : path ≠ "" ∧ fs.place (above path) = .ok parts := by
  have hparent : Path.parent path ≠ "" := ne_empty_of_place h
  refine ⟨?_, ?_⟩
  · rintro rfl
    exact hparent rfl
  · rw [above, if_neg hparent]
    exact h

/-- The parts before the last one lead to the directory of the path. -/
theorem follow_above (hne : path ≠ "") (h : fs.place (above path) = .ok parts)
    (hdir : fs.root.get? parts = some (.dir items)) :
    ∃ xs, Path.segments path = xs ++ [Path.base path] ∧
      follow fs.root false linkLimit (fs.start path) xs = .ok parts := by
  rcases Path.cut_cases path with ⟨hparent, hbase, hslash⟩ | ⟨front, hpath, hparent, hname⟩
  · have hpart : Path.IsPart path := ⟨hne, hslash⟩
    refine ⟨[], by rw [hbase, Path.segments_of_isPart hpart]; rfl, ?_⟩
    have hdot : fs.start "." = fs.start path := by
      unfold start
      rw [hpart.not_absolute]
      rfl
    have hsegments : Path.segments "." = ["."] := Path.segments_of_isPart ⟨by decide, by decide⟩
    rw [above, if_pos hparent, place, if_neg (by decide), hdot, hsegments] at h
    obtain ⟨jump, hjump⟩ := follow_eq fs.root false linkLimit
    rw [hjump] at h ⊢
    obtain ⟨⟨items', hhere⟩, _⟩ := followTo_inv h
    rwa [followTo_stay hhere (.inr rfl)] at h
  · have hcut : front ++ "/" ≠ "" := fun h => absurd (String.append_eq_empty_iff.1 h).2 (by decide)
    have hslash : fs.place (front ++ "/") = .ok parts := by
      rw [above, if_neg (by rw [hparent]; exact Path.trimmed_ne_empty hcut), hparent] at h
      exact place_of_trimmed h hdir
    have hstart : fs.start path = fs.start (front ++ "/") := by
      unfold start
      rw [hpath, Path.isAbsolute_append hcut]
    have hsegments : Path.segments path = Path.segments front ++ [Path.base path] := by
      conv_lhs => rw [hpath]
      rw [Path.segments_append, Path.segments_of_not_mem hname]
    refine ⟨_, hsegments, ?_⟩
    rw [hstart]
    rw [place, if_neg hcut, Path.segments_slash] at hslash
    obtain ⟨mid, hmid, hslash'⟩ := follow_slash hslash
    rw [hmid, ← hslash', hslash]

/-! ## One directory -/

def LeadsToEmpty (fs : FileSystem) (path : String) : Prop :=
  ∃ p, fs.place path = .ok p ∧ fs.root.get? p = some .emptyDir

def siteIn (root : Entry) (name : String) (parts : List String) : Except Fault (List String) :=
  match root.get? parts with
  | some (.dir items) =>
    if name = "" || name = "." || name = ".." || (items.lookup name).isSome then .error .fileExists
    else .ok (parts ++ [name])
  | _ => .error .notDirectory

theorem dirSite_eq (htrim : Path.trimmed path = path) (hne : path ≠ "") :
    fs.dirSite path = fs.place (above path) >>= siteIn fs.root (Path.base path) := by
  unfold Path.trimmed at htrim
  unfold dirSite
  rw [if_neg hne]
  simp only [htrim]
  rfl

theorem siteIn_eq_ok_iff {root : Entry} {name : String} : siteIn root name parts = .ok p ↔
    (∃ items, root.get? parts = some (.dir items)) ∧ IsName name ∧ root.get? (parts ++ [name]) = none ∧
      p = parts ++ [name] := by
  unfold siteIn
  rw [Entry.get?_append_singleton]
  cases hparts : root.get? parts with
  | none => simp
  | some e =>
    cases e with
    | dir items =>
      simp only [Option.bind_some, Entry.child?, Bool.or_eq_true, decide_eq_true_eq, Option.isSome_iff_ne_none]
      split
      · rename_i hbad
        refine ⟨fun h => (by cases h), fun h => ?_⟩
        obtain ⟨_, ⟨hempty, hdot, hup⟩, hnone, _⟩ := h
        exact absurd hnone (by tauto)
      · rename_i hgood
        simp only [not_or, not_not] at hgood
        obtain ⟨⟨⟨hempty, hdot⟩, hup⟩, hnone⟩ := hgood
        simp [IsName, hempty, hdot, hup, hnone, eq_comm]
    | _ => simp

section

variable (htrim : Path.trimmed path = path)
include htrim

theorem dirSite_inv (h : fs.dirSite path = .ok p) : path ≠ "" ∧ IsName (Path.base path) ∧
    ∃ parts items, fs.place (above path) = .ok parts ∧ fs.root.get? parts = some (.dir items) ∧
      fs.root.get? p = none ∧ p = parts ++ [Path.base path] := by
  have hne : path ≠ "" := by
    rintro rfl
    cases h
  rw [dirSite_eq htrim hne] at h
  obtain ⟨parts, hplace, h⟩ := except_bind_inv h
  obtain ⟨⟨items, hdir⟩, hname, hnone, rfl⟩ := siteIn_eq_ok_iff.1 h
  exact ⟨hne, hname, parts, items, hplace, hdir, hnone, rfl⟩

theorem vacant_of_dirSite (h : fs.dirSite path = .ok p) : Vacant fs.root p := by
  obtain ⟨_, _, parts, items, _, hdir, hnone, rfl⟩ := dirSite_inv htrim h
  exact ⟨hnone, parts, _, items, rfl, hdir⟩

theorem leadsToEmpty_of_dirSite (h : fs.dirSite path = .ok p) : (fs.put p .emptyDir).LeadsToEmpty path := by
  have hvacant := vacant_of_dirSite htrim h
  have hmade : (fs.put p .emptyDir).root.get? p = some .emptyDir := Entry.get?_put_self _ _ _
  refine ⟨p, ?_, hmade⟩
  obtain ⟨hne, hname, parts, items, hplace, hdir, hnone, rfl⟩ := dirSite_inv htrim h
  obtain ⟨xs, hsegments, hfollow⟩ := follow_above hne hplace hdir
  refine @place_of_site fs (fs.put _ .emptyDir) rfl (grows_put_vacant hvacant).1 _ _ ?_ _ hmade rfl
  rw [site, if_neg hne, hsegments]
  refine follow_append_of hfollow fun limit => ?_
  obtain ⟨jump, hjump⟩ := follow_eq fs.root true limit
  rw [hjump, followTo_new hdir hname hnone]
  rfl

theorem dirSite_of_leadsToEmpty (h : fs.LeadsToEmpty (Path.parent path)) (hname : IsName (Path.base path)) :
    ∃ p, fs.dirSite path = .ok p := by
  obtain ⟨parts, hplace, hempty⟩ := h
  obtain ⟨hne, habove⟩ := place_above hplace
  refine ⟨parts ++ [Path.base path], ?_⟩
  rw [dirSite_eq htrim hne, habove]
  refine siteIn_eq_ok_iff.2 ⟨⟨[], hempty⟩, hname, ?_, rfl⟩
  rw [Entry.get?_append_singleton, hempty]
  rfl

end

theorem leadsToEmpty_of_stay (h : fs.LeadsToEmpty (Path.parent path)) (hbase : Path.base path = ".") :
    fs.LeadsToEmpty path := by
  obtain ⟨parts, hplace, hempty⟩ := h
  obtain ⟨hne, habove⟩ := place_above hplace
  obtain ⟨xs, hsegments, hfollow⟩ := follow_above hne habove hempty
  refine ⟨parts, ?_, hempty⟩
  rw [place, if_neg hne, hsegments, hbase]
  exact follow_append_of hfollow (follow_stay_dir hempty (.inr rfl) false)

end FileSystem

open FileSystem

namespace Change

variable {T : String → Prop} {fs fs' : FileSystem} {path : String} (htrim : Path.trimmed path = path)

theorem makeDir_cases (path : String) (fs : FileSystem) :
    (∃ fault, fs.dirSite path = .error fault ∧ makeDir path fs = .error fault fs) ∨
      ∃ p, fs.dirSite path = .ok p ∧ makeDir path fs = .ok () (fs.put p .emptyDir) := by
  unfold makeDir
  rw [bind_of_ok (rfl : (get : Change FileSystem) fs = .ok fs fs)]
  cases h : fs.dirSite path with
  | error fault => exact .inl ⟨fault, rfl, rfl⟩
  | ok p => exact .inr ⟨p, rfl, rfl⟩

include htrim

theorem leaves_makeDir : Leaves (Extends T) Fault.Fatal (makeDir path) := by
  intro fs
  rcases makeDir_cases path fs with ⟨fault, hsite, hrun⟩ | ⟨p, hp, hrun⟩
  · rw [hrun]
    exact .error (.refl T fs) (fs.dirSite_faults path fault hsite).fatal
  · rw [hrun]
    exact .ok () (extends_put_vacant (vacant_of_dirSite htrim hp) _)

theorem makeDir_ok (h : makeDir path fs = .ok () fs') : fs'.LeadsToEmpty path := by
  rcases makeDir_cases path fs with ⟨fault, _, hrun⟩ | ⟨p, hp, hrun⟩
  · cases hrun.symm.trans h
  · cases hrun.symm.trans h
    exact leadsToEmpty_of_dirSite htrim hp

omit htrim in
theorem makeDir_error {fault : Fault} (h : makeDir path fs = .error fault fs') : fs' = fs := by
  rcases makeDir_cases path fs with ⟨fault', _, hrun⟩ | ⟨p, _, hrun⟩
  · cases hrun.symm.trans h
    rfl
  · cases hrun.symm.trans h

/-! ## Directories above -/

/-- A path is made at once, or after the one above it. That one may have been found to be there. -/
theorem makeDirs_cases (fuel : Nat) (fs : FileSystem) :
    makeDirs path (fuel + 1) fs = makeDir path fs ∨
    (∃ fault fs₁, fault ≠ .fileExists ∧ makeDirs (Path.parent path) fuel fs = .error fault fs₁ ∧
      makeDirs path (fuel + 1) fs = .error fault fs₁) ∨
    ∃ fs₁, Path.base path ≠ "" ∧ (makeDirs (Path.parent path) fuel fs = .ok () fs₁ ∨
        makeDirs (Path.parent path) fuel fs = .error .fileExists fs₁) ∧
      makeDirs path (fuel + 1) fs = if Path.base path = "." then .ok () fs₁ else makeDir path fs₁ := by
  have hshort : (if Path.base path = "" then Path.parent path else path) = path := by
    split
    · rename_i hbase
      exact Path.parent_of_base_empty htrim hbase
    · rfl
  have hrun : makeDirs path (fuel + 1) fs =
      (if Path.parent path ≠ "" && Path.base path ≠ "" && !fs.exists? (Path.parent path) then do
        tryCatch (makeDirs (Path.parent path) fuel) fun fault => if fault ≠ .fileExists then throw fault else pure ()
        if Path.base path ≠ "." then makeDir path else pure ()
      else makeDir path : Change Unit) fs := by
    rw [makeDirs]
    simp only [hshort]
    rw [bind_of_ok (rfl : (get : Change FileSystem) fs = .ok fs fs)]
  rw [hrun]
  split
  · rename_i hmissing
    have hbase : Path.base path ≠ "" := by
      simp only [Bool.and_eq_true, decide_eq_true_eq] at hmissing
      exact hmissing.1.2
    right
    have hlast : ∀ fs₁, (if Path.base path ≠ "." then makeDir path else pure () : Change Unit) fs₁ =
        if Path.base path = "." then .ok () fs₁ else makeDir path fs₁ := by
      intro fs₁
      by_cases hbase : Path.base path = "."
      · rw [if_neg (not_not.2 hbase), if_pos hbase]
        rfl
      · rw [if_pos hbase, if_neg hbase]
    cases hhead : makeDirs (Path.parent path) fuel fs with
    | ok _ fs₁ =>
      rw [bind_of_ok (tryCatch_of_ok hhead _), hlast]
      exact .inr ⟨fs₁, hbase, .inl rfl, rfl⟩
    | error fault fs₁ =>
      by_cases hfault : fault = .fileExists
      · subst hfault
        rw [bind_of_ok ((tryCatch_of_error hhead _).trans rfl), hlast]
        exact .inr ⟨fs₁, hbase, .inr rfl, rfl⟩
      · refine .inl ⟨fault, fs₁, hfault, rfl, bind_of_error ((tryCatch_of_error hhead _).trans ?_) _⟩
        rw [if_pos hfault]
        rfl
  · exact .inl rfl

omit htrim in
/-- However it ends, making directories adds to the tree and changes no file. -/
theorem leaves_makeDirs (fuel : Nat) (htrim : Path.trimmed path = path) :
    Leaves (Extends T) Fault.Fatal (makeDirs path fuel) := by
  induction fuel generalizing path with
  | zero => exact leaves_makeDir htrim
  | succ fuel ih =>
    intro fs
    have hhead := ih (Path.trimmed_parent path)
    rcases makeDirs_cases htrim fuel fs with hrun | ⟨fault, fs₁, _, habove, hrun⟩ | ⟨fs₁, _, habove, hrun⟩
    · rw [hrun]
      exact leaves_makeDir htrim fs
    · rw [hrun]
      exact .error (hhead.error habove).1 (hhead.error habove).2
    · have hfirst : Extends T fs fs₁ := habove.elim hhead.ok fun habove => (hhead.error habove).1
      rw [hrun]
      split
      · exact .ok () hfirst
      · exact (leaves_makeDir htrim fs₁).after (fun _ _ _ => .trans) hfirst

theorem leadsToEmpty_of_makeDirs {fuel : Nat} (hbase : Path.base path ≠ ".")
    (h : makeDirs path fuel fs = .ok () fs') : fs'.LeadsToEmpty path := by
  cases fuel with
  | zero => exact makeDir_ok htrim h
  | succ fuel =>
    rcases makeDirs_cases htrim fuel fs with hrun | ⟨fault, fs₁, _, _, hrun⟩ | ⟨fs₁, _, _, hrun⟩
    · exact makeDir_ok htrim (hrun.symm.trans h)
    · cases hrun.symm.trans h
    · rw [if_neg hbase] at hrun
      exact makeDir_ok htrim (hrun.symm.trans h)

omit htrim in
/-- On a path that never goes up, only what exists stands in the way. -/
theorem makeDirs_straight {fuel : Nat} (htrim : Path.trimmed path = path) (hup : ".." ∉ Path.segments path) :
    (∀ fs', makeDirs path fuel fs = .ok () fs' → fs' = fs ∨ fs'.LeadsToEmpty path) ∧
      ∀ fs', makeDirs path fuel fs = .error .fileExists fs' → fs' = fs := by
  have hmake : ∀ fs fs', makeDir path fs = .ok () fs' → fs'.LeadsToEmpty path :=
    fun fs fs' h => makeDir_ok htrim h
  induction fuel generalizing path with
  | zero => exact ⟨fun fs' h => .inr (hmake fs fs' h), fun fs' h => makeDir_error h⟩
  | succ fuel ih =>
    rcases makeDirs_cases htrim fuel fs with hrun | ⟨fault, fs₁, hfault, _, hrun⟩ | ⟨fs₁, hne, habove, hrun⟩
    · rw [hrun]
      exact ⟨fun fs' h => .inr (hmake fs fs' h), fun fs' h => makeDir_error h⟩
    · rw [hrun]
      refine ⟨nofun, fun fs' h => ?_⟩
      cases h
      exact absurd rfl hfault
    · have hparent : ".." ∉ Path.segments (Path.parent path) := by
        intro hmem
        rcases Path.mem_segments_parent hmem with hempty | hmem
        · exact absurd hempty (by decide)
        · exact hup hmem
      obtain ⟨hok, herror⟩ := ih (Path.trimmed_parent path) hparent
        (fun fs fs' h => makeDir_ok (Path.trimmed_parent path) h)
      have hfirst : fs₁ = fs ∨ fs₁.LeadsToEmpty (Path.parent path) := by
        rcases habove with habove | habove
        · exact hok fs₁ habove
        · exact .inl (herror fs₁ habove)
      rw [hrun]
      split
      · rename_i hbase
        refine ⟨fun fs' h => ?_, nofun⟩
        cases h
        exact hfirst.imp_right fun hempty => leadsToEmpty_of_stay hempty hbase
      · rename_i hbase
        refine ⟨fun fs' h => .inr (hmake fs₁ fs' h), fun fs' h => ?_⟩
        obtain rfl := makeDir_error h
        -- in a directory that is new, nothing stands in the way
        refine hfirst.resolve_right fun hempty => ?_
        have hname : IsName (Path.base path) := ⟨hne, hbase, fun he => hup (he ▸ Path.base_mem_segments path)⟩
        obtain ⟨p, hp⟩ := dirSite_of_leadsToEmpty htrim hempty hname
        rcases makeDir_cases path fs' with ⟨fault, hfault, _⟩ | ⟨_, _, hmade⟩
        · cases hp.symm.trans hfault
        · cases hmade.symm.trans h

/-- A path goes up, and asks for nothing in the end. -/
def Roundabout (path : String) : Prop := Path.base path = "." ∧ ".." ∈ Path.segments path

/-- Where directories have been made, nothing was changed, or the path leads to a new directory, or it goes around. -/
theorem makeDirs_ok {fuel : Nat} (h : makeDirs path fuel fs = .ok () fs') :
    fs' = fs ∨ fs'.LeadsToEmpty path ∨ Roundabout path := by
  by_cases hbase : Path.base path = "."
  · by_cases hup : ".." ∈ Path.segments path
    · exact .inr (.inr ⟨hbase, hup⟩)
    · exact ((makeDirs_straight htrim hup).1 fs' h).imp_right .inl
  · exact .inr (.inl (leadsToEmpty_of_makeDirs htrim hbase h))

end Change

end ImportAtlas
