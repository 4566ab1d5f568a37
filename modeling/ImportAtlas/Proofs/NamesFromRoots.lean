import ImportAtlas.Proofs.ImportOrigins
import ImportAtlas.Proofs.MadeDirectories
import ImportAtlas.Proofs.NamedFiles
import ImportAtlas.Proofs.RelativeImports

/-!
# Names from the root

A module that lies beside the importing file is named from the package root, by the directories on the way down. If all
of these are packages whose names have no dots, the name is looked up from the root package by package, and leads back
to the directory of the file. A file that lies in the root itself has no directory on its way, and yet one part of the
name stands for it: the empty one.
-/

namespace ImportAtlas

namespace Path

theorem withoutSlashes_cases (chars : List Char) :
    withoutSlashes chars = chars ∨ withoutSlashes chars ++ ['/'] <+: chars := by
  induction chars using List.reverseRecOn with
  | nil => exact .inl rfl
  | append_singleton front c ih =>
    rcases withoutSlashes_concat front c with hsame | ⟨rfl, _, hshorter⟩
    · exact .inl hsame
    · rw [hshorter]
      rcases ih with hfront | hfront
      · rw [hfront]
        exact .inr (List.prefix_refl _)
      · exact .inr (hfront.trans (List.prefix_append front ['/']))

theorem base_of_endsIn {path : String} (h : Text.endsIn path "/" = true) : base path = "" := by
  obtain ⟨front, rfl⟩ := eq_of_endsIn h
  have htext : (front ++ "/").toList = front.toList ++ '/' :: [] := by simp
  rw [base, htext, lastChars_append (by simp)]

/-- Below its parent a path goes on after a slash, unless the parent is nothing or ends in one. -/
theorem beginsWith_parent {path : String} (hne : parent path ≠ "") (hends : Text.endsIn (parent path) "/" = false) :
    Text.beginsWith path (parent path ++ "/") = true := by
  rcases cut_cases path with ⟨hempty, _⟩ | ⟨front, hpath, hparent, _⟩
  · exact absurd hempty hne
  · have hslashes : parent path = String.ofList (withoutSlashes (front ++ "/").toList) := hparent
    rcases withoutSlashes_cases (front ++ "/").toList with hsame | hshorter
    · rw [hslashes, hsame, String.ofList_toList, ← Bool.not_eq_true, Text.endsIn_iff] at hends
      exact absurd ⟨front.toList, by simp⟩ hends
    · rw [Text.beginsWith_iff, hslashes, hpath]
      refine List.IsPrefix.trans ?_ (hshorter.trans ⟨(base path).toList, by simp⟩)
      simp

theorem segments_intercalate (path : String) : "/".intercalate (segments path) = path := by
  rw [← String.toList_inj, String.toList_intercalate]
  unfold segments Text.pieces
  have hsame : String.toList ∘ String.ofList = id := funext fun _ => String.toList_ofList
  rw [List.map_map, hsame, List.map_id]
  exact List.intercalate_splitOn '/'

theorem mem_intercalate {parts : List String} {part : String} {c : Char} (hpart : part ∈ parts)
    (hc : c ∈ part.toList) : c ∈ ("/".intercalate parts).toList := by
  induction parts with
  | nil => cases hpart
  | cons first rest ih =>
    cases rest with
    | nil =>
      rw [List.mem_singleton] at hpart
      rw [String.intercalate_singleton, ← hpart]
      exact hc
    | cons next rest =>
      rw [String.intercalate_cons_cons, String.toList_append, String.toList_append]
      rcases List.mem_cons.1 hpart with rfl | hpart
      · exact List.mem_append_left _ (List.mem_append_left _ hc)
      · exact List.mem_append_right _ (ih hpart)

end Path

namespace Text

theorem dropFirst_self (text : String) : dropFirst text (text.length + 1) = "" := by
  rw [dropFirst, List.drop_eq_nil_of_le (by simp [String.length_toList])]

theorem append_dropFirst {text start : String} (h : beginsWith text (start ++ "/") = true) :
    start ++ "/" ++ dropFirst text (start.length + 1) = text := by
  obtain ⟨rest, hrest⟩ := beginsWith_iff.1 h
  rw [← String.toList_inj, dropFirst, ← hrest]
  simp [← String.length_toList]

/-- Characters without dots are cut at the slashes where they are cut at the dots that have taken their place. -/
theorem splitOn_swap (n : Nat) {chars : List Char} (hlength : chars.length ≤ n) (hdot : '.' ∉ chars) :
    (chars.map fun c => if c = '/' then '.' else c).splitOn '.' = chars.splitOn '/' := by
  induction n generalizing chars with
  | zero =>
    rw [List.eq_nil_of_length_eq_zero (Nat.le_zero.1 hlength)]
    rfl
  | succ n ih =>
    by_cases hslash : '/' ∈ chars
    · obtain ⟨front, back, rfl, hfront⟩ := List.eq_append_cons_of_mem hslash
      simp only [List.length_append, List.length_cons] at hlength
      simp only [List.mem_append, List.mem_cons, not_or] at hdot
      rw [List.map_append, List.map_cons, if_pos rfl, List.splitOn_append_cons_self, List.splitOn_append_cons_self,
        ih (by omega) hdot.1, ih (by omega) hdot.2.2]
    · have hself : (chars.map fun c => if c = '/' then '.' else c) = chars :=
        (List.map_congr_left fun c hc => if_neg (ne_of_mem_of_not_mem hc hslash)).trans (List.map_id' chars)
      rw [hself, List.splitOn_eq_singleton hdot, List.splitOn_eq_singleton hslash]

theorem pieces_swap {text : String} (h : '.' ∉ text.toList) : pieces (swap text '/' '.') '.' = Path.segments text := by
  unfold pieces swap Path.segments pieces
  rw [String.toList_ofList, splitOn_swap _ (Nat.le_refl _) h]

theorem pieces_dot (a b : String) : pieces (a ++ "." ++ b) '.' = pieces a '.' ++ pieces b '.' := by
  have htext : (a ++ "." ++ b).toList = a.toList ++ '.' :: b.toList := by simp
  unfold pieces
  rw [htext, List.splitOn_append_cons_self, List.map_append]

end Text

namespace FileSystem

variable {fs : FileSystem}

/-- Going up from a path that is all slashes ends there. -/
theorem leavePackages_slash {fuel : Nat} {dir root : String} (htrim : Path.trimmed dir = dir)
    (hends : Text.endsIn dir "/" = true) (h : fs.leavePackages fuel dir = .ok root) : root = dir := by
  induction fuel with
  | zero => cases h
  | succ fuel ih =>
    rw [leavePackages] at h
    split at h
    · exact (Except.ok.inj h).symm
    · split at h
      · cases h
      · rw [Path.parent_of_base_empty htrim (Path.base_of_endsIn hends)] at h
        exact ih h

/-- A directory goes on after the root to which it is climbed. -/
theorem leavePackages_text {fuel : Nat} {dir root : String} (htrim : Path.trimmed dir = dir) (hne : root ≠ "")
    (hends : Text.endsIn root "/" = false) (h : fs.leavePackages fuel dir = .ok root) :
    dir = root ∨ Text.beginsWith dir (root ++ "/") = true := by
  induction fuel generalizing dir with
  | zero => cases h
  | succ fuel ih =>
    rw [leavePackages] at h
    split at h
    · exact .inl (Except.ok.inj h)
    · split at h
      · cases h
      · right
        have hparent : Text.endsIn (Path.parent dir) "/" = false := by
          rw [← Bool.not_eq_true]
          intro hslash
          rw [← leavePackages_slash (Path.trimmed_parent dir) hslash h, hends] at hslash
          cases hslash
        rcases ih (Path.trimmed_parent dir) h with hself | hbegins
        · exact hself ▸ Path.beginsWith_parent (hself ▸ hne) hparent
        · have hfront := Text.beginsWith_iff.1 hbegins
          have hparentNe : Path.parent dir ≠ "" := by
            intro hempty
            rw [hempty] at hfront
            simp at hfront
          have hback := Text.beginsWith_iff.1 (Path.beginsWith_parent hparentNe hparent)
          rw [String.toList_append] at hback
          exact Text.beginsWith_iff.2 (hfront.trans ((List.prefix_append _ _).trans hback))

theorem not_isDir_of_read {path : String} {source : Source} (h : fs.read path = .ok source) :
    fs.isDir path = false := by
  obtain ⟨entry, hentry, h⟩ := except_bind_inv h
  unfold isDir
  rw [hentry]
  cases entry with
  | dir _ => cases h
  | _ => rfl

theorem packageRoot_text {ignores : Ignores} {path root : String} (hfile : fs.isDir path = false)
    (h : fs.packageRoot ignores path = .ok (some root)) : root ≠ "" ∧ (Text.endsIn root "/" = false →
      Path.parent path = root ∨ Text.beginsWith (Path.parent path) (root ++ "/") = true) := by
  obtain ⟨⟨fuel, hup⟩, hisRoot⟩ := packageRoot_inv h
  obtain ⟨⟨parts, hparts⟩, _⟩ := isPackageRoot_inv hisRoot
  have hne := ne_empty_of_place hparts
  rw [hfile, if_neg Bool.false_ne_true] at hup
  exact ⟨hne, fun hends => leavePackages_text (Path.trimmed_parent path) hne hends hup⟩

theorem place_slash (hno : NoLinks fs.root) {path name : String} (hne : path ≠ "")
    (hname : Path.isAbsolute name = false) : fs.place (path ++ "/" ++ name) = fs.place (Path.join path name) := by
  have hne' : path ++ ("/" ++ name) ≠ "" := fun h => hne (String.append_eq_empty_iff.1 h).1
  rw [place_join hno hne hname, String.append_assoc, place, if_neg hne', start, Path.isAbsolute_append hne, ← start,
    ← String.append_assoc, Path.segments_append, follow_append hno, place, if_neg hne]

end FileSystem

namespace Finder

open FileSystem

variable {finder : Finder} {name : String}

/-! ## Looking up part by part -/

theorem inDirs_str (fs : FileSystem) (dir part : String) : inDirs fs part [.str dir] =
    match inDir fs dir part with
    | some m => some <$> opened fs m
    | none => .ok none := by
  change (match inDir fs dir part with
    | some m => some <$> opened fs m
    | none => inDirs fs part []) = _
  rfl

/-- In a directory a module is looked up where the directory leads. -/
theorem find_some (dir name : String) : finder.find (some dir) name =
    match inDir finder.files (finder.files.realPath dir) (lastPart name) with
    | some m => (fun m => some { m with name }) <$> opened finder.files m
    | none => .ok none := by
  unfold find lastPart
  dsimp only
  rw [inDirs_str]
  cases inDir finder.files (finder.files.realPath dir) (((Text.pieces name '.').getLast?).getD "") with
  | none => rfl
  | some m =>
    dsimp only
    cases opened finder.files m with
    | error fault => rfl
    | ok m => rfl

theorem find_congr {a b : String} (h : finder.files.realPath a = finder.files.realPath b) (name : String) :
    finder.find (some a) name = finder.find (some b) name := by
  rw [find_some, find_some, h]

theorem find_of_inDir {dir : String} {m : Loader}
    (h : inDir finder.files (finder.files.realPath dir) (lastPart name) = some m) (hm : m.type = .package) :
    finder.find (some dir) name = .ok (some { m with name }) := by
  have hopened : opened finder.files m = .ok m := by
    unfold opened
    rw [hm]
    rfl
  rw [find_some, h]
  dsimp only
  rw [hopened]
  rfl

theorem dottedFrom_of_finds {dir : Option String} {m : Loader} {own : String} (h : finder.Finds dir name m own)
    (before : Option String) (rest : List Value) :
    finder.dottedFrom before dir (.str name :: rest) = finder.dottedFrom (some own) (some (Path.parent own)) rest := by
  change (finder.find dir name >>= _) = _
  rw [h.1]
  change (finder.fileOf finder.depth m >>= _) = _
  rw [h.2]
  rfl

/-- What follows a dotted name is looked up from where the name leads. -/
theorem dottedFrom_append {names : List String} (hne : names ≠ []) {before dir : Option String} {own : String}
    (h : finder.dottedFrom before dir (names.map .str) = .ok (some own)) (rest : List Value) :
    finder.dottedFrom before dir (names.map .str ++ rest) =
      finder.dottedFrom (some own) (some (Path.parent own)) rest := by
  induction names generalizing before dir with
  | nil => exact absurd rfl hne
  | cons name names ih =>
    obtain ⟨m, first, hfirst, h⟩ := dottedFrom_str.1 h
    rw [List.map_cons, List.cons_append, dottedFrom_of_finds hfirst]
    cases names with
    | nil =>
      cases h
      rfl
    | cons next names => exact ih (List.cons_ne_nil next names) h

/-- Neither the file before nor the spelling of the directory matters for a name. -/
theorem dottedFrom_congr {a b : String} (h : finder.files.realPath a = finder.files.realPath b)
    {names : List Value} (hne : names ≠ []) (before before' : Option String) :
    finder.dottedFrom before (some a) names = finder.dottedFrom before' (some b) names := by
  cases names with
  | nil => exact absurd rfl hne
  | cons name rest =>
    unfold dottedFrom
    simp only [find_congr h]

/-! ## Packages on the way -/

def Opens (finder : Finder) (dir : String) : Prop :=
  (finder.files.isFile (Path.join dir "__init__.py") || finder.files.isFile (Path.join dir "__init__.pyc")) = true ∧
    ∃ m, finder.find (some dir) "__init__" = .ok (some m) ∧ m.type ≠ .package

instance (finder : Finder) (dir : String) : Decidable (finder.Opens dir) :=
  @instDecidableAnd _ _ inferInstance <| match h : finder.find (some dir) "__init__" with
    | .ok (some m) => decidable_of_iff (m.type ≠ .package) (by simp)
    | .ok none => isFalse (by simp)
    | .error _ => isFalse (by simp)

section

variable (hno : NoLinks finder.files.root) {dir package : String}
include hno

theorem Opens.place (h : finder.Opens dir) (hne : dir ≠ "") : ∃ parts, finder.files.place dir = .ok parts := by
  have hinit : ∃ init, IsEntryName init ∧ finder.files.isFile (Path.join dir init) = true := by
    rcases Bool.or_eq_true_iff.1 h.1 with hfile | hfile
    · exact ⟨_, by decide, hfile⟩
    · exact ⟨_, by decide, hfile⟩
  obtain ⟨init, hname, hfile⟩ := hinit
  obtain ⟨q, hq⟩ := place_of_isFile hfile
  obtain ⟨parts, _, hparts, _⟩ := place_join_inv hno hne hname hq
  exact ⟨parts, hparts⟩

/-- A package that opens is found in the directory that holds it, by its file there. -/
theorem finds_of_opens (hne : package ≠ "") (hopens : finder.Opens package)
    (hplace : finder.files.place (Path.join (finder.files.realPath dir) (lastPart name)) = finder.files.place package) :
    ∃ m own, finder.Finds (some dir) name m own ∧ Path.parent own = finder.files.realPath package := by
  let held := Path.join (finder.files.realPath dir) (lastPart name)
  have hheld : held ≠ "" := by
    obtain ⟨parts, hreal, _⟩ := realPath_isPart finder.files dir
    exact Path.join_ne_empty (hreal ▸ Path.ofParts_ne_empty parts) _
  have hsame : ∀ init, finder.files.isFile (Path.join held init) = finder.files.isFile (Path.join package init) :=
    fun init => isFile_congr (place_join_congr hno hheld hne hplace init)
  have hin : inDir finder.files (finder.files.realPath dir) (lastPart name) =
      some { name := lastPart name, file := some held, suffix := "", type := .package } := by
    unfold inDir
    dsimp only
    rw [hsame, hsame, if_pos hopens.1]
  have hfind := find_of_inDir hin rfl
  -- the initial module is looked up in the package under another spelling
  obtain ⟨parts, hparts⟩ := hopens.place hno hne
  have hreal : finder.files.realPath held = finder.files.realPath package := by
    rw [realPath_eq hparts, realPath_eq (hplace.trans hparts)]
  obtain ⟨m, hm, htype⟩ := hopens.2
  obtain ⟨own, hown, hbuiltin, _, hparent⟩ := module_below hm (by decide +kernel) htype
  refine ⟨_, own, ⟨hfind, ?_⟩, hparent⟩
  have hinitial : finder.initial { name, file := some held, suffix := "", type := .package } = .ok m := by
    unfold initial
    dsimp only
    rw [find_congr hreal, hm]
    rfl
  have hsize : ∃ n, finder.files.root.size = n + 1 := by
    cases finder.files.root <;> exact ⟨_, rfl⟩
  obtain ⟨n, hn⟩ := hsize
  rw [depth, hn, fileOf]
  dsimp only
  rw [hinitial]
  change finder.fileOf (n + 1) m = _
  rw [fileOf]
  split
  · rename_i hpackage
    exact absurd hpackage htype
  · rename_i hb
    exact absurd hb hbuiltin
  · rw [hown]

variable (hfs : finder.files.root.wellNamed = true) {part root : String} {parts : List String}
include hfs

theorem finds_part (hne : dir ≠ "") (hdot : '.' ∉ part.toList) (hslash : '/' ∉ part.toList)
    (hopens : finder.Opens (dir ++ "/" ++ part)) :
    ∃ m own, finder.Finds (some dir) part m own ∧ Path.parent own = finder.files.realPath (dir ++ "/" ++ part) := by
  have hrelative : Path.isAbsolute part = false := by
    rw [← Bool.not_eq_true]
    intro habs
    exact hslash ((Text.beginsWith_iff.1 habs).subset (by simp))
  have hpackage : dir ++ "/" ++ part ≠ "" := by simp
  have hlast : lastPart part = part := by
    unfold lastPart Text.pieces
    rw [List.splitOn_eq_singleton hdot]
    simp
  have hsame := place_slash hno hne hrelative
  obtain ⟨q, hq⟩ := hopens.place hno hpackage
  rw [hsame, place_join hno hne hrelative] at hq
  obtain ⟨p, hp, _⟩ := except_bind_inv hq
  have hreal := place_realPath hfs hp
  refine finds_of_opens hno hpackage hopens ?_
  rw [hlast, hsame]
  exact place_join_congr hno (ne_empty_of_place hreal) hne (hreal.trans hp.symm) part

/-- Package after package is found on the way down. -/
theorem dotted_way (hroot : root ≠ "") (hparts : parts ≠ [])
    (hplain : ∀ part ∈ parts, '.' ∉ part.toList ∧ '/' ∉ part.toList)
    (hopens : ∀ front, front ≠ [] → front <+: parts → finder.Opens (root ++ "/" ++ "/".intercalate front)) :
    ∃ own, finder.dotted (parts.map .str) (some root) = .ok (some own) ∧
      Path.parent own = finder.files.realPath (root ++ "/" ++ "/".intercalate parts) := by
  induction parts using List.reverseRecOn with
  | nil => exact absurd rfl hparts
  | append_singleton front last ih =>
    obtain ⟨hfrontPlain, hlast⟩ := List.forall_mem_append.1 hplain
    obtain ⟨hdot, hslash⟩ := hlast last (List.mem_singleton_self last)
    have hopen := hopens (front ++ [last]) (by simp) (List.prefix_refl _)
    by_cases hfront : front = []
    · subst hfront
      rw [List.nil_append, String.intercalate_singleton] at hopen ⊢
      obtain ⟨m, own, hfinds, hparent⟩ := finds_part hno hfs hroot hdot hslash hopen
      exact ⟨own, dotted_singleton.2 ⟨m, hfinds⟩, hparent⟩
    · have htext : root ++ "/" ++ "/".intercalate (front ++ [last]) =
          root ++ "/" ++ "/".intercalate front ++ "/" ++ last := by
        rw [String.intercalate_append_of_ne_nil hfront (by simp), String.intercalate_singleton]
        simp only [String.append_assoc]
      rw [htext] at hopen ⊢
      have hbefore := fun more hne hmore =>
        hopens more hne (List.IsPrefix.trans hmore (List.prefix_append front [last]))
      obtain ⟨own, hown, hparent⟩ := ih hfront hfrontPlain hbefore
      obtain ⟨m, next, ⟨hfind, hfile⟩, hnext⟩ := finds_part hno hfs (by simp) hdot hslash hopen
      -- the last part is looked up from the real path of the directory
      obtain ⟨p, hp⟩ := (hbefore front hfront (List.prefix_refl _)).place hno (by simp)
      have hreal : finder.files.realPath (Path.parent own) =
          finder.files.realPath (root ++ "/" ++ "/".intercalate front) := by
        rw [hparent, realPath_eq (place_realPath hfs hp), realPath_eq hp]
      have hfinds : finder.Finds (some (Path.parent own)) last m next := ⟨(find_congr hreal last).trans hfind, hfile⟩
      refine ⟨next, ?_, hnext⟩
      rw [List.map_append]
      exact (dottedFrom_append hfront hown _).trans (dottedFrom_of_finds hfinds _ _)

end

/-- The way from the root down to the directory leads through packages that open, and there is no dot in it. On the way
to the root itself there is one part, which is empty. -/
structure Straight (finder : Finder) (root dir : String) : Prop where
  ends : Text.endsIn root "/" = false
  dotless : '.' ∉ (Text.dropFirst dir (root.length + 1)).toList
  opens : ∀ front, front ≠ [] → front <+: Path.segments (Text.dropFirst dir (root.length + 1)) →
    finder.Opens (root ++ "/" ++ "/".intercalate front)

instance (finder : Finder) (root dir : String) : Decidable (finder.Straight root dir) :=
  decidable_of_iff (Text.endsIn root "/" = false ∧ '.' ∉ (Text.dropFirst dir (root.length + 1)).toList ∧
      ∀ front ∈ (Path.segments (Text.dropFirst dir (root.length + 1))).inits, front ≠ [] →
        finder.Opens (root ++ "/" ++ "/".intercalate front))
    ⟨fun h => ⟨h.1, h.2.1, fun front hne hfront => h.2.2 front ((List.mem_inits _ _).2 hfront) hne⟩,
      fun h => ⟨h.ends, h.dotless, fun front hfront hne => h.opens front hne ((List.mem_inits _ _).1 hfront)⟩⟩

theorem partsOf_nameFromRoot {root dir : String} (hdot : '.' ∉ (Text.dropFirst dir (root.length + 1)).toList)
    (name : String) : partsOf (Run.nameFromRoot root dir name) =
      (Path.segments (Text.dropFirst dir (root.length + 1))).map .str ++ partsOf name := by
  unfold partsOf Run.nameFromRoot
  rw [Text.pieces_dot, Text.pieces_swap hdot, List.map_append]

section

variable (hno : NoLinks finder.files.root) (hfs : finder.files.root.wellNamed = true) {root dir : String}
include hno hfs

/-- From the root the full name means what the name means from the directory. -/
theorem Straight.dotted_eq (h : finder.Straight root dir) (hroot : root ≠ "")
    (hdir : dir = root ∨ Text.beginsWith dir (root ++ "/") = true) (name : String) :
    finder.dotted (partsOf (Run.nameFromRoot root dir name)) (some root) = finder.dotted (partsOf name) (some dir) := by
  have hplain : ∀ part ∈ Path.segments (Text.dropFirst dir (root.length + 1)),
      '.' ∉ part.toList ∧ '/' ∉ part.toList := by
    intro part hpart
    refine ⟨fun hdot => h.dotless ?_, Text.not_mem_of_mem_pieces hpart⟩
    rw [← Path.segments_intercalate (Text.dropFirst dir (root.length + 1))]
    exact Path.mem_intercalate hpart hdot
  have hwhole := h.opens _ (Path.segments_ne_nil _) (List.prefix_refl _)
  obtain ⟨own, hown, hparent⟩ := dotted_way hno hfs hroot (Path.segments_ne_nil _) hplain h.opens
  rw [Path.segments_intercalate] at hparent hwhole
  obtain ⟨p, hp⟩ := hwhole.place hno (by simp)
  have hplace : finder.files.place dir = .ok p := by
    rcases hdir with rfl | hbegins
    · rw [Text.dropFirst_self, String.append_empty] at hp
      exact place_of_slash hroot hp
    · rwa [Text.append_dropFirst hbegins] at hp
  rw [partsOf_nameFromRoot h.dotless]
  refine (dottedFrom_append (Path.segments_ne_nil _) hown _).trans (dottedFrom_congr ?_ ?_ _ _)
  · rw [hparent, realPath_eq (place_realPath hfs hp), realPath_eq hplace]
  · simpa [partsOf] using pieces_ne_nil name '.'

end

/-- The root does not answer to the empty name, so nothing that lies in it is found under its full name. -/
theorem dotted_in_root {root : String} (h : inDir finder.files (finder.files.realPath root) "" = none) (name : String) :
    finder.dotted (partsOf (Run.nameFromRoot root root name)) (some root) = .ok none := by
  have hfind : finder.find (some root) "" = .ok none := by
    have hlast : lastPart "" = "" := by decide +kernel
    rw [find_some, hlast, h]
  rw [partsOf_nameFromRoot (by simp [Text.dropFirst_self]), Text.dropFirst_self, Path.segments_empty]
  change (finder.find (some root) "" >>= _) = _
  rw [hfind]
  rfl

end Finder

open Finder FileSystem

namespace Session

structure NamedFromRoot (s : Session) (path root name file : String) : Prop where
  straight : s.lookups.Straight root (Path.parent path) →
    s.lookups.dotted (partsOf (Run.nameFromRoot root (Path.parent path) name)) (some root) = .ok (some file)
  inRoot : Path.parent path = root → inDir s.files (s.files.realPath root) "" = none →
    s.lookups.dotted (partsOf (Run.nameFromRoot root (Path.parent path) name)) (some root) = .ok none

theorem namedFromRoot {s : Session} {ignores : Ignores} {path root name file : String} (hno : NoLinks s.files.root)
    (hfs : s.files.root.wellNamed = true) (hfile : s.files.isDir path = false)
    (hroot : s.files.packageRoot ignores path = .ok (some root)) (hbeside : s.beside path name = .ok (some file)) :
    s.NamedFromRoot path root name file := by
  obtain ⟨hne, hdir⟩ := packageRoot_text hfile hroot
  constructor
  · intro hstraight
    have hsame := @Straight.dotted_eq s.lookups hno hfs root (Path.parent path) hstraight hne (hdir hstraight.ends) name
    exact hsame.trans hbeside
  · intro hparent hempty
    have hnothing := @dotted_in_root s.lookups root hempty name
    rw [hparent]
    exact hnothing

theorem local_of_listing {s : Session} {ignores : Ignores} {path : String} {r : ImportRecord} {i : Listed}
    (h : s.listing ignores path r = .ok (.ok i)) (hlocal : i.isLocal = true) :
    ∃ name root file, r.module = .str name ∧ s.files.packageRoot ignores path = .ok (some root) ∧
      i.name = r.fullName (Run.nameFromRoot root (Path.parent path) name) ∧ s.beside path name = .ok (some file) := by
  obtain ⟨name, found, hname, hfound, hentry⟩ := listing_inv h
  cases found with
  | none =>
    cases hentry
    cases hlocal
  | some file =>
    rcases hentry with ⟨root, hroot, hi⟩ | ⟨_, _, _, hi⟩
    · exact ⟨name, root, file, Value.eq_of_text hname, hroot, congrArg Listed.name (Except.ok.inj hi), hfound⟩
    · cases hi

end Session

open Session

/-- **Names from the root.** Without links, the entry of a local import that is handed out, also before a fault, has the
name of its module from the root of the file. If the way from the root to the directory of the file is straight, this
name means the same file from the root as the module means from the directory. From a file in the root itself it means
nothing, unless the root answers to the empty name. -/
theorem local_names_from_root {path : String} {ignores : Ignores} {s s' : Session} {source : Source} {t : Tree}
    {records : List ImportRecord} {emitted : List Listed} {fault : Option Fault} (hlinks : s.files.root.links = 0)
    (hnames : s.files.root.wellNamed = true) (hread : s.files.read path = .ok source)
    (hparse : source.parse = .tree t) (himports : t.imports = .ok records)
    (hrun : (Run.emittedImports path ignores).all s = .ok (emitted, fault) s') :
    ∃ (done : List ImportRecord) (es : List (Except String Listed)), done <+: records ∧
      (fault = none → done = records) ∧ emitted = es.filterMap Except.toOption ∧
      List.Forall₂ (fun r e => ∀ i, e = .ok i → i.isLocal = true → ∃ name root file, r.module = .str name ∧
        s.files.packageRoot ignores path = .ok (some root) ∧
        i.name = r.fullName (Run.nameFromRoot root (Path.parent path) name) ∧
        s.beside path name = .ok (some file) ∧ s.NamedFromRoot path root name file) done es := by
  obtain ⟨done, es, hdone, hall, hes, hemitted, _⟩ := listings_of_emittedImports hread hparse himports hrun
  refine ⟨done, es, hdone, hall, hemitted, hes.imp fun r e he i hi hlocal => ?_⟩
  subst hi
  obtain ⟨name, root, file, hmodule, hroot, hname, hbeside⟩ := local_of_listing he hlocal
  exact ⟨name, root, file, hmodule, hroot, hname, hbeside,
    namedFromRoot (noLinks_of_links hlinks) hnames (not_isDir_of_read hread) hroot hbeside⟩

theorem shadowing_named : ∃ listed s',
    Run.listedImports "/proj/pkg/sub/m.py" (.names []) shadowing = .ok listed s' ∧
    listed.map (fun i => (i.name, i.isLocal)) = [("x.a", false), ("pkg.sub.time", true)] ∧
    shadowing.lookups.Straight "/proj" "/proj/pkg/sub" ∧
    shadowing.beside "/proj/pkg/sub/m.py" "time" = .ok (some "/proj/pkg/sub/time.py") ∧
    shadowing.lookups.dotted (partsOf "pkg.sub.time") (some "/proj") = .ok (some "/proj/pkg/sub/time.py") := by
  obtain ⟨listed, s', hrun, hlisted⟩ := shadowing_listed
  have hstraight : shadowing.lookups.Straight "/proj" "/proj/pkg/sub" := by decide +kernel
  have hroot : shadowing.files.packageRoot (.names []) "/proj/pkg/sub/m.py" = .ok (some "/proj") :=
    eq_ok_of_toOption (by decide +kernel)
  have hbeside : shadowing.beside "/proj/pkg/sub/m.py" "time" = .ok (some "/proj/pkg/sub/time.py") :=
    eq_ok_of_toOption (by decide +kernel)
  obtain ⟨_, es, _, hdone, hes, hall⟩ :=
    local_names_from_root rfl (by decide) rfl rfl outward_imports (emitted_of_listedImports hrun)
  rw [hdone rfl] at hall
  have htwo := hlisted
  rw [hes] at htwo
  match es, hall, htwo with
  | [first, .error _], _, htwo => cases first <;> cases congrArg List.length htwo
  | [.error _, .ok _], _, htwo => cases congrArg List.length htwo
  | [.ok _, .ok i], .cons _ (.cons h .nil), htwo =>
    have hlocal : i.isLocal = true := (Prod.mk.inj (List.cons.inj (List.cons.inj htwo).2).1).2
    obtain ⟨name, root, file, hname, hroot', _, hbeside', hnamed⟩ := h i rfl hlocal
    cases hname
    cases hroot.symm.trans hroot'
    cases hbeside.symm.trans hbeside'
    exact ⟨listed, s', hrun, hlisted, hstraight, hbeside, hnamed.straight hstraight⟩

def flatProject : Session where
  files := {
    root := .dir [("proj", .dir [
      ("m.py", .file { text := "import n\n", parse := .tree (Tools.importsOnly [Tools.plainImport 1 "n"]) }),
      ("n.py", .file (.plain "")),
      ("pkg", .dir [("__init__.py", .file (.plain ""))])])]
    cwd := "/" }

/-- The full name is not found, though the module lies beside the file. -/
theorem neighbour_not_from_root : ∃ listed s',
    Run.listedImports "/proj/m.py" (.names []) flatProject = .ok listed s' ∧
    listed.map (fun i => (i.name, i.isLocal)) = [(".n", true)] ∧
    flatProject.files.packageRoot (.names []) "/proj/m.py" = .ok (some "/proj") ∧
    flatProject.beside "/proj/m.py" "n" = .ok (some "/proj/n.py") ∧
    flatProject.lookups.dotted (partsOf ".n") (some "/proj") = .ok none := by
  obtain ⟨listed, s', hrun, hlisted⟩ : ∃ listed s',
      Run.listedImports "/proj/m.py" (.names []) flatProject = .ok listed s' ∧
      listed.map (fun i => (i.name, i.isLocal)) = [(".n", true)] := exists_of_run' (by decide +kernel)
  exact ⟨listed, s', hrun, hlisted, eq_ok_of_toOption (by decide +kernel), eq_ok_of_toOption (by decide +kernel),
    eq_ok_of_toOption (by decide +kernel)⟩

end ImportAtlas
