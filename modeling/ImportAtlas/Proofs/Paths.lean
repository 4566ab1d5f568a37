import ImportAtlas.Path
import Mathlib.Data.List.Induction
import Mathlib.Data.List.TakeWhile

/-!
# Names below directories

A name without slashes that is joined to a path is the base of what comes out, and the path, its last slashes taken
off, is the parent. The text of a place in a file tree is made by joining its parts one after another, so both go
back one part, and the parts are found again between the slashes.
-/

namespace ImportAtlas

theorem Text.not_mem_of_mem_pieces {text piece : String} {c : Char} (h : piece ∈ Text.pieces text c) :
    c ∉ piece.toList := by
  have run : ∀ (chars : List Char), ∀ part ∈ chars.splitOn c, c ∉ part := by
    intro chars
    induction chars with
    | nil => simp
    | cons x chars ih =>
      intro part hpart
      rw [List.splitOn_cons_eq_if_modifyHead] at hpart
      split at hpart
      · rcases List.mem_cons.1 hpart with rfl | hpart
        · exact List.not_mem_nil
        · exact ih part hpart
      · rename_i hx
        obtain ⟨first, rest, hsplit⟩ := List.exists_cons_of_ne_nil (List.splitOn_ne_nil c chars)
        rw [hsplit, List.modifyHead_cons] at hpart
        rw [hsplit] at ih
        rcases List.mem_cons.1 hpart with rfl | hpart
        · have hfirst := ih first List.mem_cons_self
          simp only [beq_iff_eq] at hx
          rw [List.mem_cons, not_or]
          exact ⟨fun he => hx he.symm, hfirst⟩
        · exact ih part (List.mem_cons_of_mem _ hpart)
  obtain ⟨chars, hchars, rfl⟩ := List.mem_map.1 h
  rw [String.toList_ofList]
  exact run _ _ hchars

namespace Path

def IsPart (name : String) : Prop := name ≠ "" ∧ '/' ∉ name.toList

def trimmed (path : String) : String := String.ofList (withoutSlashes path.toList)

theorem eq_of_endsIn {path : String} (h : Text.endsIn path "/" = true) : ∃ front, path = front ++ "/" := by
  obtain ⟨front, hfront⟩ := Text.endsIn_iff.1 h
  refine ⟨String.ofList front, ?_⟩
  rw [← String.toList_inj]
  simpa using hfront.symm

theorem join_of_absolute {name : String} (h : isAbsolute name = true) (path : String) : join path name = name := by
  unfold join
  exact if_pos h

/-- A relative name is appended after exactly one slash more than there is. -/
theorem join_cases {name : String} (h : isAbsolute name = false) (path : String) :
    path = "" ∧ join path name = name ∨
      (∃ front, path = front ++ "/" ∧ join path name = front ++ "/" ++ name) ∨
      path ≠ "" ∧ Text.endsIn path "/" = false ∧ join path name = path ++ "/" ++ name := by
  have hjoin : join path name =
      if path = "" || Text.endsIn path "/" then path ++ name else path ++ "/" ++ name := by
    unfold join
    exact if_neg (by unfold isAbsolute at h; simp [h])
  rw [hjoin]
  by_cases hempty : path = ""
  · subst hempty
    exact .inl ⟨rfl, by simp⟩
  · cases hends : Text.endsIn path "/" with
    | true =>
      obtain ⟨front, rfl⟩ := eq_of_endsIn hends
      exact .inr (.inl ⟨front, rfl, by simp⟩)
    | false => exact .inr (.inr ⟨hempty, rfl, by simp [hempty]⟩)

theorem join_of_not_endsIn {path name : String} (hname : isAbsolute name = false) (hne : path ≠ "")
    (hends : Text.endsIn path "/" = false) : join path name = path ++ "/" ++ name := by
  rcases join_cases hname path with ⟨hempty, _⟩ | ⟨front, rfl, _⟩ | ⟨_, _, hj⟩
  · exact absurd hempty hne
  · rw [← Bool.not_eq_true] at hends
    exact absurd (Text.endsIn_iff.2 ⟨front.toList, by simp⟩) hends
  · exact hj

theorem join_join_empty {path name : String} (hne : path ≠ "") (hname : isAbsolute name = false) :
    join (join path "") name = join path name := by
  rcases join_cases (by decide : isAbsolute "" = false) path with ⟨hempty, _⟩ | ⟨front, rfl, hj⟩ | ⟨_, hends, hj⟩
  · exact absurd hempty hne
  · rw [hj, String.append_empty]
  · rw [hj, String.append_empty, join_of_not_endsIn hname hne hends]
    unfold isAbsolute at hname
    have hslash : Text.endsIn (path ++ "/") "/" = true := Text.endsIn_iff.2 ⟨path.toList, by simp⟩
    simp [join, hname, hslash]

theorem IsPart.not_absolute {name : String} (h : IsPart name) : isAbsolute name = false := by
  rw [← Bool.not_eq_true]
  intro habs
  exact h.2 ((Text.beginsWith_iff.1 habs).subset (by simp))

theorem isAbsolute_append {path : String} (hne : path ≠ "") (more : String) :
    isAbsolute (path ++ more) = isAbsolute path := by
  obtain ⟨c, rest, hchars⟩ := List.exists_cons_of_ne_nil (show path.toList ≠ [] by simpa using hne)
  simp [isAbsolute, Text.beginsWith, hchars, List.isPrefixOf]

/-! ## Parents -/

theorem forall_ne_slash {name : List Char} (h : '/' ∉ name) : ∀ c ∈ name.reverse, decide (c ≠ '/') = true := by
  intro c hc
  rw [decide_eq_true_eq]
  rintro rfl
  exact h (List.mem_reverse.1 hc)

theorem upToSlash_append {front name : List Char} (h : '/' ∉ name) :
    upToSlash (front ++ '/' :: name) = front ++ ['/'] := by
  rw [upToSlash, List.reverse_append, List.reverse_cons, List.append_assoc,
    List.dropWhile_append_of_pos (forall_ne_slash h)]
  simp

theorem lastChars_append {front name : List Char} (h : '/' ∉ name) : lastChars (front ++ '/' :: name) = name := by
  rw [lastChars, List.reverse_append, List.reverse_cons, List.append_assoc,
    List.takeWhile_append_of_pos (forall_ne_slash h)]
  simp

theorem upToSlash_of_not_mem {name : List Char} (h : '/' ∉ name) : upToSlash name = [] := by
  rw [upToSlash, List.dropWhile_eq_nil_iff.2 (forall_ne_slash h), List.reverse_nil]

theorem lastChars_of_not_mem {name : List Char} (h : '/' ∉ name) : lastChars name = name := by
  rw [lastChars, List.takeWhile_eq_self_iff.2 (forall_ne_slash h), List.reverse_reverse]

theorem withoutSlashes_of_last {path : List Char} {c : Char} (hc : c ≠ '/') :
    withoutSlashes (path ++ [c]) = path ++ [c] := by
  simp [withoutSlashes, hc]

theorem withoutSlashes_append_slash {path : List Char} {c : Char} (hc : c ≠ '/') :
    withoutSlashes (path ++ [c] ++ ['/']) = path ++ [c] := by
  simp [withoutSlashes, hc]

/-- A slash at the end is taken off unless there is nothing else. -/
theorem withoutSlashes_concat (front : List Char) (c : Char) : withoutSlashes (front ++ [c]) = front ++ [c] ∨
    c = '/' ∧ front ≠ [] ∧ withoutSlashes (front ++ [c]) = withoutSlashes front := by
  by_cases hc : c = '/'
  · subst hc
    by_cases hall : ∀ c ∈ front, c = '/'
    · left
      simpa [withoutSlashes] using fun c hc hne => absurd (hall c hc) hne
    · right
      refine ⟨rfl, ?_, ?_⟩
      · rintro rfl
        exact hall (List.forall_mem_nil _)
      · simp [withoutSlashes, hall]
  · exact .inl (withoutSlashes_of_last hc)

theorem exists_last_of_not_endsIn {path : String} (hne : path ≠ "") (h : Text.endsIn path "/" = false) :
    ∃ front c, path.toList = front ++ [c] ∧ c ≠ '/' := by
  obtain ⟨front, c, hpath⟩ := List.eq_nil_or_concat path.toList |>.resolve_left (by simpa using hne)
  rw [List.concat_eq_append] at hpath
  refine ⟨front, c, hpath, ?_⟩
  rintro rfl
  rw [← Bool.not_eq_true] at h
  exact h (Text.endsIn_iff.2 ⟨front, hpath.symm⟩)

theorem trimmed_ne_empty {path : String} (h : path ≠ "") : trimmed path ≠ "" := by
  unfold trimmed withoutSlashes
  intro hempty
  simp only [String.ofList_eq_empty_iff] at hempty
  split at hempty
  · exact h (by simpa using hempty)
  · rename_i hne
    exact hne (by simp [hempty])

theorem trimmed_of_not_endsIn {path : String} (h : Text.endsIn path "/" = false) : trimmed path = path := by
  by_cases hne : path = ""
  · subst hne
    rfl
  · obtain ⟨front, c, hpath, hc⟩ := exists_last_of_not_endsIn hne h
    rw [trimmed, hpath, withoutSlashes_of_last hc, ← hpath, String.ofList_toList]

variable {name : String}

theorem parent_join (h : IsPart name) (path : String) : parent (join path name) = trimmed path := by
  have hslash := h.2
  rcases join_cases h.not_absolute path with ⟨rfl, hj⟩ | ⟨front, rfl, hj⟩ | ⟨hne, hends, hj⟩
  · rw [hj, parent, upToSlash_of_not_mem hslash]
    rfl
  · have htext : (front ++ "/" ++ name).toList = front.toList ++ '/' :: name.toList := by simp
    rw [hj, parent, htext, upToSlash_append hslash, trimmed]
    simp
  · have htext : (path ++ "/" ++ name).toList = path.toList ++ '/' :: name.toList := by simp
    obtain ⟨front, c, hpath, hc⟩ := exists_last_of_not_endsIn hne hends
    rw [hj, parent, htext, upToSlash_append hslash, hpath, withoutSlashes_append_slash hc, ← hpath,
      trimmed_of_not_endsIn hends, String.ofList_toList]

theorem base_join (h : IsPart name) (path : String) : base (join path name) = name := by
  have hslash := h.2
  rcases join_cases h.not_absolute path with ⟨rfl, hj⟩ | ⟨front, rfl, hj⟩ | ⟨_, _, hj⟩
  · rw [hj, base, lastChars_of_not_mem hslash, String.ofList_toList]
  · have htext : (front ++ "/" ++ name).toList = front.toList ++ '/' :: name.toList := by simp
    rw [hj, base, htext, lastChars_append hslash, String.ofList_toList]
  · have htext : (path ++ "/" ++ name).toList = path.toList ++ '/' :: name.toList := by simp
    rw [hj, base, htext, lastChars_append hslash, String.ofList_toList]

theorem endsIn_append (h : IsPart name) (front : String) : Text.endsIn (front ++ name) "/" = false := by
  obtain ⟨most, c, hlast⟩ := List.eq_nil_or_concat name.toList |>.resolve_left (by simpa using h.1)
  rw [List.concat_eq_append] at hlast
  rw [← Bool.not_eq_true]
  intro hends
  obtain ⟨start, hstart⟩ := Text.endsIn_iff.1 hends
  rw [String.toList_append, hlast, ← List.append_assoc] at hstart
  have hc : '/' = c := by simpa using congrArg List.getLast? hstart
  exact h.2 (by rw [hlast, hc]; simp)

theorem endsIn_join (h : IsPart name) (path : String) : Text.endsIn (join path name) "/" = false := by
  rcases join_cases h.not_absolute path with ⟨_, hj⟩ | ⟨front, _, hj⟩ | ⟨_, _, hj⟩
  · rw [hj, ← String.empty_append (s := name)]
    exact endsIn_append h ""
  · rw [hj]
    exact endsIn_append h _
  · rw [hj]
    exact endsIn_append h _

theorem trimmed_join (h : IsPart name) (path : String) : trimmed (join path name) = join path name :=
  trimmed_of_not_endsIn (endsIn_join h path)

/-! ## Segments -/

theorem segments_append (a b : String) : segments (a ++ "/" ++ b) = segments a ++ segments b := by
  have htext : (a ++ "/" ++ b).toList = a.toList ++ '/' :: b.toList := by simp
  unfold segments Text.pieces
  rw [htext, List.splitOn_append_cons_self, List.map_append]

theorem segments_of_isPart (h : IsPart name) : segments name = [name] := by
  unfold segments Text.pieces
  rw [List.splitOn_eq_singleton h.2, List.map_singleton, String.ofList_toList]

theorem segments_ne_nil (path : String) : segments path ≠ [] := by
  simp [segments, Text.pieces]

theorem isPart_of_mem_segments {path part : String} (h : part ∈ segments path) (hne : part ≠ "") : IsPart part :=
  ⟨hne, Text.not_mem_of_mem_pieces h⟩

theorem segments_empty : segments "" = [""] := by
  simp [segments, Text.pieces]

theorem segments_slash (path : String) : segments (path ++ "/") = segments path ++ [""] := by
  have happ := segments_append path ""
  rwa [String.append_empty, segments_empty] at happ

/-! ## Places -/

theorem ofParts_nil : ofParts [] = "/" := by
  simp [ofParts]

theorem ofParts_append {parts more : List String} (hne : parts ≠ []) (hmore : more ≠ []) :
    ofParts (parts ++ more) = ofParts parts ++ "/" ++ "/".intercalate more := by
  unfold ofParts
  rw [String.intercalate_append_of_ne_nil hne hmore]
  simp [String.append_assoc]

theorem ofParts_concat {parts : List String} (hne : parts ≠ []) (name : String) :
    ofParts (parts ++ [name]) = ofParts parts ++ "/" ++ name := by
  rw [ofParts_append hne (List.cons_ne_nil name []), String.intercalate_singleton]

theorem ofParts_singleton (name : String) : ofParts [name] = "/" ++ name := by
  simp [ofParts]

theorem endsIn_ofParts {parts : List String} (h : ∀ p ∈ parts, IsPart p) (hne : parts ≠ []) :
    Text.endsIn (ofParts parts) "/" = false := by
  obtain ⟨front, last, rfl⟩ := List.eq_nil_or_concat parts |>.resolve_left hne
  rw [List.concat_eq_append] at h ⊢
  have hlast := h last (by simp)
  cases front with
  | nil => exact ofParts_singleton last ▸ endsIn_append hlast "/"
  | cons part front =>
    rw [ofParts_concat (List.cons_ne_nil part front)]
    exact endsIn_append hlast _

theorem isAbsolute_ofParts (parts : List String) : isAbsolute (ofParts parts) = true :=
  Text.beginsWith_iff.2 ⟨_, by rw [ofParts, String.toList_append]⟩

theorem ofParts_ne_empty (parts : List String) : ofParts parts ≠ "" := by
  simp [ofParts]

theorem join_ofParts {parts : List String} (h : ∀ p ∈ parts, IsPart p) (hname : IsPart name) :
    join (ofParts parts) name = ofParts (parts ++ [name]) := by
  cases parts with
  | nil =>
    rw [ofParts_nil, List.nil_append, ofParts_singleton]
    rcases join_cases hname.not_absolute "/" with ⟨hne, _⟩ | ⟨front, hfront, hj⟩ | ⟨_, hends, _⟩
    · exact absurd hne (by decide)
    · rw [hj, ← hfront]
    · exact absurd hends (by decide)
  | cons part parts =>
    rw [ofParts_concat (by simp)]
    exact join_of_not_endsIn hname.not_absolute (ofParts_ne_empty _) (endsIn_ofParts h (by simp))

theorem trimmed_ofParts {parts : List String} (h : ∀ p ∈ parts, IsPart p) :
    trimmed (ofParts parts) = ofParts parts := by
  cases parts with
  | nil =>
    rw [ofParts_nil]
    rfl
  | cons part parts => exact trimmed_of_not_endsIn (endsIn_ofParts h (by simp))

theorem segments_ofParts {parts : List String} (h : ∀ p ∈ parts, IsPart p) (hne : parts ≠ []) :
    segments (ofParts parts) = "" :: parts := by
  induction parts using List.reverseRecOn with
  | nil => exact absurd rfl hne
  | append_singleton front last ih =>
    have hlast := h last (by simp)
    cases front with
    | nil =>
      have htext : "/" ++ last = "" ++ "/" ++ last := by simp
      rw [List.nil_append, ofParts_singleton, htext, segments_append, segments_empty, segments_of_isPart hlast]
      rfl
    | cons part front =>
      rw [ofParts_concat (by simp), segments_append, ih (fun p hp => h p (List.mem_append_left _ hp)) (by simp),
        segments_of_isPart hlast]
      rfl

theorem ofParts_inj {parts parts' : List String} (h : ∀ p ∈ parts, IsPart p) (h' : ∀ p ∈ parts', IsPart p)
    (hsame : ofParts parts = ofParts parts') : parts = parts' := by
  have hparts : ∀ parts : List String, (∀ p ∈ parts, IsPart p) →
      (segments (ofParts parts)).filter (· ≠ "") = parts := by
    intro parts h
    by_cases hne : parts = []
    · rw [hne, ofParts_nil]
      decide +kernel
    · rw [segments_ofParts h hne, List.filter_cons_of_neg (by simp), List.filter_eq_self]
      intro p hp
      simpa using (h p hp).1
  rw [← hparts parts h, hsame, hparts parts' h']

section

variable {parts : List String} (h : ∀ p ∈ parts, IsPart p)
include h

theorem parent_ofParts : parent (ofParts parts) = ofParts parts.dropLast := by
  rcases List.eq_nil_or_concat parts with rfl | ⟨front, last, rfl⟩
  · rw [List.dropLast_nil, ofParts_nil]
    rfl
  · rw [List.concat_eq_append] at h ⊢
    obtain ⟨hfront, hlast⟩ := List.forall_mem_append.1 h
    rw [List.dropLast_concat, ← join_ofParts hfront (hlast last (by simp)), parent_join (hlast last (by simp)),
      trimmed_ofParts hfront]

theorem join_parent_base : join (parent (ofParts parts)) (base (ofParts parts)) = ofParts parts := by
  rw [parent_ofParts h]
  rcases List.eq_nil_or_concat parts with rfl | ⟨front, last, rfl⟩
  · rw [List.dropLast_nil, ofParts_nil]
    rfl
  · rw [List.concat_eq_append] at h ⊢
    obtain ⟨hfront, hlast⟩ := List.forall_mem_append.1 h
    have hjoin := join_ofParts hfront (hlast last (by simp))
    rw [List.dropLast_concat, ← hjoin, base_join (hlast last (by simp))]

/-- Slashes stand alone, since no part is empty. -/
theorem ofParts_ne_of_slashes (a b : String) : ofParts parts ≠ a ++ "/" ++ ("/" ++ b) := by
  intro htext
  by_cases hne : parts = []
  · rw [hne, ofParts_nil] at htext
    have hlength := congrArg String.length htext
    simp only [String.length_append] at hlength
    have hslash : "/".length = 1 := rfl
    omega
  · have hsegments : "" :: parts = segments a ++ "" :: segments b := by
      have hb : "/" ++ b = "" ++ "/" ++ b := by simp
      rw [← segments_ofParts h hne, htext, segments_append, hb, segments_append, segments_empty]
      rfl
    obtain ⟨first, rest, hfirst⟩ := List.exists_cons_of_ne_nil (segments_ne_nil a)
    rw [hfirst, List.cons_append, List.cons.injEq] at hsegments
    exact (h "" (by rw [hsegments.2]; simp)).1 rfl

/-- A path that begins with a root and a slash is the root and what remains of the path. -/
theorem join_dropFirst {root : String} (hroot : Text.beginsWith (ofParts parts) (root ++ "/") = true)
    (hne : root ≠ "") : join root (Text.dropFirst (ofParts parts) (root.length + 1)) = ofParts parts := by
  obtain ⟨rest, hrest⟩ := Text.beginsWith_iff.1 hroot
  have htext : ofParts parts = root ++ "/" ++ String.ofList rest := by
    rw [← String.toList_inj]
    simpa using hrest.symm
  have hdrop : Text.dropFirst (ofParts parts) (root.length + 1) = String.ofList rest := by
    rw [Text.dropFirst, ← hrest, List.drop_left' (by simp [String.length_toList])]
  have hname : isAbsolute (String.ofList rest) = false := by
    rw [← Bool.not_eq_true]
    intro habs
    obtain ⟨more, hmore⟩ := Text.beginsWith_iff.1 habs
    refine ofParts_ne_of_slashes h root (String.ofList more) ?_
    rw [htext, ← String.toList_inj]
    simpa using hmore.symm
  have hends : Text.endsIn root "/" = false := by
    rw [← Bool.not_eq_true]
    intro hends
    obtain ⟨front, rfl⟩ := eq_of_endsIn hends
    refine ofParts_ne_of_slashes h front (String.ofList rest) ?_
    rw [htext]
    simp only [String.append_assoc]
  rw [hdrop, join_of_not_endsIn hname hne hends, htext]

end

theorem beginsWith_ofParts {front parts : List String} (hne : front ≠ []) (h : front <+: parts)
    (hproper : front ≠ parts) : Text.beginsWith (ofParts parts) (ofParts front ++ "/") = true := by
  obtain ⟨rest, rfl⟩ := h
  have hrest : rest ≠ [] := by
    rintro rfl
    exact hproper (List.append_nil front).symm
  rw [Text.beginsWith_iff, ofParts_append hne hrest]
  exact ⟨_, String.toList_append.symm⟩

end Path

end ImportAtlas
