import ImportAtlas.Proofs.FoundFiles
import ImportAtlas.Proofs.NamesFromRoots

/-!
# Looking up always ends

Without links in the tree, looking up a dotted name ends with nothing or with a file that is there, unless a source on
the way declares an encoding that cannot be used, or the search path holds what is no path. What was taken for a package
has an initial module, since both tests ask for the same files under two spellings of one directory; and where the
initial module is a package itself, that one lies deeper in the tree.
-/

namespace ImportAtlas

namespace Entry

theorem size_le_sizeIn {items : List (String × Entry)} {name : String} {e : Entry} (h : items.lookup name = some e) :
    e.size ≤ sizeIn items := by
  induction items with
  | nil => cases h
  | cons item rest ih =>
    obtain ⟨n, f⟩ := item
    rw [List.lookup_cons] at h
    rw [sizeIn]
    split at h
    · cases h
      omega
    · have := ih h
      omega

/-- No entry lies deeper than there are entries. -/
theorem length_lt_size {root e : Entry} {p : List String} (h : root.get? p = some e) : p.length < root.size := by
  induction p generalizing root with
  | nil => cases root <;> simp [size]
  | cons name p ih =>
    obtain ⟨items, rfl⟩ := isDir_of_get?_cons h
    rw [get?, child?] at h
    cases hl : items.lookup name with
    | none => rw [hl] at h; cases h
    | some f =>
      rw [hl] at h
      have hp := ih h
      have hf := size_le_sizeIn hl
      rw [List.length_cons, size]
      omega

end Entry

namespace Finder

open FileSystem

variable {finder : Finder} {asked : Option String → String → Prop}

/-! ## What is asked for -/

def entries (finder : Finder) : Option String → List Value
  | some dir => [.str (finder.files.realPath dir)]
  | none => finder.searchPath

def AsksOnce (start : Option String) (name : String) (start' : Option String) (name' : String) : Prop :=
  start' = start ∧ name' = name

/-- Where the initial module of a package is asked for: in it, and in the packages that are initial modules. -/
inductive AsksInit (finder : Finder) : Loader → Option String → String → Prop
  | own {m : Loader} : m.type = .package → AsksInit finder m m.file "__init__"
  | inner {m m' : Loader} {start : Option String} {name : String} : m.type = .package → finder.initial m = .ok m' →
    AsksInit finder m' start name → AsksInit finder m start name

inductive Asks (finder : Finder) : Option String → List String → Option String → String → Prop
  | first {dir : Option String} {name : String} {rest : List String} : Asks finder dir (name :: rest) dir name
  | init {dir start : Option String} {name init : String} {rest : List String} {m : Loader} :
    finder.find dir name = .ok (some m) → finder.AsksInit m start init → Asks finder dir (name :: rest) start init
  | later {dir start : Option String} {name next file : String} {rest : List String} {m : Loader} :
    finder.find dir name = .ok (some m) → finder.fileOf finder.depth m = .ok (some file) →
    Asks finder (some (Path.parent file)) rest start next → Asks finder dir (name :: rest) start next

/-! ## What can go wrong -/

/-- The faults that look-ups can end with. -/
inductive Trouble (finder : Finder) (asked : Option String → String → Prop) : Fault → Prop
  /-- A source of a name that is asked for declares an encoding that cannot be used. -/
  | encoding {start : Option String} {dir name : String} {source : Source} {fault : Fault} : asked start name →
    .str dir ∈ finder.entries start → finder.files.read (Path.join dir (lastPart name ++ ".py")) = .ok source →
    declaredEncoding source.text = .error fault → Trouble finder asked fault
  /-- An entry of the search path is no text. -/
  | entry {name : String} {v : Value} {fault : Fault} : asked none name → v ∈ finder.searchPath →
    v.onlyText = .error fault → Trouble finder asked fault

def Answers {α : Type} (finder : Finder) (asked : Option String → String → Prop) (x : Except Fault α)
    (P : α → Prop) : Prop :=
  (∃ a, x = .ok a ∧ P a) ∨ ∃ fault, x = .error fault ∧ finder.Trouble asked fault

section

variable {α β : Type} {x : Except Fault α} {P : α → Prop}

theorem Answers.bind {f : α → Except Fault β} {Q : β → Prop} (hx : finder.Answers asked x P)
    (hf : ∀ a, x = .ok a → P a → finder.Answers asked (f a) Q) : finder.Answers asked (x >>= f) Q := by
  rcases hx with ⟨a, rfl, ha⟩ | ⟨fault, rfl, htrouble⟩
  · exact hf a rfl ha
  · exact .inr ⟨fault, rfl, htrouble⟩

theorem Answers.ok {a : α} (ha : P a) : finder.Answers asked (.ok a) P := .inl ⟨a, rfl, ha⟩

theorem Answers.imp {Q : α → Prop} (hx : finder.Answers asked x P) (h : ∀ a, x = .ok a → P a → Q a) :
    finder.Answers asked x Q :=
  hx.imp_left fun ⟨a, ha, hP⟩ => ⟨a, ha, h a ha hP⟩

theorem Answers.mono {asked' : Option String → String → Prop} (hx : finder.Answers asked x P)
    (h : ∀ start name, asked start name → asked' start name) : finder.Answers asked' x P := by
  refine hx.imp_right ?_
  rintro ⟨fault, hfault, htrouble⟩
  refine ⟨fault, hfault, ?_⟩
  cases htrouble with
  | encoding hasked hdir hread hdeclared => exact .encoding (h _ _ hasked) hdir hread hdeclared
  | entry hasked hv htext => exact .entry (h _ _ hasked) hv htext

end

theorem fault_of_declaredEncoding {text : String} {fault : Fault} (h : declaredEncoding text = .error fault) :
    fault = .malformedSource ∨ fault = .noTextEncoding := by
  have hresolve : ∀ {marked name}, Declared.resolve marked name = .error fault →
      fault = .malformedSource ∨ fault = .noTextEncoding := by
    intro marked name h
    unfold Declared.resolve at h
    grind
  unfold declaredEncoding at h
  dsimp only at h
  split at h
  · exact hresolve h
  · exact hresolve h
  · cases h

theorem Trouble.fault_eq {fault : Fault} (h : finder.Trouble asked fault) :
    fault = .malformedSource ∨ fault = .noTextEncoding ∨ fault = .wrongKind := by
  cases h with
  | encoding _ _ _ h => exact (fault_of_declaredEncoding h).imp_right .inl
  | @entry _ v _ _ _ h =>
    cases v with
    | str s => cases h
    | _ => cases h; exact .inr (.inr rfl)

/-! ## Packages and their initial modules -/

def IsPackage (fs : FileSystem) (dir : String) : Prop :=
  ∃ init ∈ ["__init__.py", "__init__.pyc"], fs.isFile (Path.join dir init) = true

def Placed (fs : FileSystem) (m : Loader) : Prop :=
  (m.type = .package ∧ ∃ dir, m.file = some dir ∧ IsPackage fs dir) ∨
    m.type ≠ .package ∧ m.type ≠ .builtin ∧ ∃ file, m.file = some file ∧ fs.isFile file = true

structure LiesAt (fs : FileSystem) (dir : String) (parts : List String) : Prop where
  real : fs.realPath dir = Path.ofParts parts
  place : fs.place (Path.ofParts parts) = .ok parts
  package : IsPackage fs (Path.ofParts parts)

variable {fs : FileSystem} {m : Loader} {name : String}

theorem inDir_placed {dir : String} (h : inDir fs dir name = some m) :
    Placed fs m ∧ (m.type = .source → m.file = some (Path.join dir (name ++ ".py"))) := by
  unfold inDir at h
  dsimp only at h
  split at h
  · rename_i hinit
    cases h
    refine ⟨.inl ⟨rfl, _, rfl, ?_⟩, nofun⟩
    rcases Bool.or_eq_true_iff.1 hinit with hinit | hinit
    · exact ⟨_, by simp, hinit⟩
    · exact ⟨_, by simp, hinit⟩
  · obtain ⟨⟨suffix, type⟩, hsuffix, h⟩ := List.exists_of_findSome?_eq_some h
    dsimp only at h
    split at h
    · rename_i hfile
      cases h
      have hall : ∀ s ∈ Loader.suffixes, s.2 ≠ .package ∧ s.2 ≠ .builtin ∧ (s.2 = .source → s.1 = ".py") := by decide
      obtain ⟨hp, hb, hs⟩ := hall _ hsuffix
      refine ⟨.inr ⟨hp, hb, _, rfl, hfile⟩, fun hsource => ?_⟩
      dsimp only at hs
      rw [hs hsource]
    · cases h

/-- A directory that holds an initial module has a module of that name. -/
theorem exists_inDir_init {dir : String} (h : IsPackage fs dir) : ∃ m, inDir fs dir "__init__" = some m := by
  unfold inDir
  dsimp only
  split
  · exact ⟨_, rfl⟩
  · rw [← Option.isSome_iff_exists, List.findSome?_isSome_iff]
    obtain ⟨init, hinit, hfile⟩ := h
    simp only [List.mem_cons, List.not_mem_nil, or_false] at hinit
    rcases hinit with rfl | rfl
    · exact ⟨(".py", .source), by decide, by simp [hfile]⟩
    · exact ⟨(".pyc", .compiled), by decide, by simp [hfile]⟩

theorem read_of_isFile {file : String} (h : fs.isFile file = true) : ∃ source, fs.read file = .ok source := by
  obtain ⟨parts, hplace⟩ := place_of_isFile h
  obtain ⟨-, e, he, hlink⟩ := place_entry hplace
  have hlocate := locate_of_place hplace he
  unfold FileSystem.read
  rw [isFile, hlocate] at h
  rw [hlocate]
  cases e with
  | file source => exact ⟨source, rfl⟩
  | archive names => exact ⟨_, rfl⟩
  | dir items => cases h
  | link target => cases hlink

theorem opened_source {file : String} {source : Source} (htype : m.type = .source) (hfile : m.file = some file)
    (hread : fs.read file = .ok source) :
    opened fs m = (declaredEncoding source.text).map fun encoding => { m with encoding } := by
  obtain ⟨name, own, suffix, type, encoding⟩ := m
  cases htype
  cases hfile
  unfold opened
  dsimp only
  rw [hread]
  change (declaredEncoding source.text >>= _) = _
  cases declaredEncoding source.text <;> rfl

theorem opened_other (htype : m.type ≠ .source) : opened fs m = .ok m := by
  unfold opened
  split
  · rename_i h _
    exact absurd h htype
  · rfl

theorem fileOf_other {fuel : Nat} (hp : m.type ≠ .package) (hb : m.type ≠ .builtin) :
    finder.fileOf (fuel + 1) m = .ok m.file := by
  rw [fileOf]
  split
  · rename_i h
    exact absurd h hp
  · rename_i h
    exact absurd h hb
  · rfl

theorem opened_answers {start : Option String} {dir : String} (hdir : .str dir ∈ finder.entries start)
    (hm : inDir finder.files dir (lastPart name) = some m) :
    finder.Answers (AsksOnce start name) (opened finder.files m) fun m' => m'.type = m.type ∧ m'.file = m.file := by
  by_cases htype : m.type = .source
  · obtain ⟨⟨hp, -⟩ | ⟨-, -, file, hfile, hisFile⟩, hnamed⟩ := inDir_placed hm
    · rw [htype] at hp
      cases hp
    · obtain ⟨source, hread⟩ := read_of_isFile hisFile
      rw [opened_source htype hfile hread]
      obtain rfl : file = _ := Option.some.inj (hfile.symm.trans (hnamed htype))
      cases hdeclared : declaredEncoding source.text with
      | error fault => exact .inr ⟨fault, rfl, .encoding ⟨rfl, rfl⟩ hdir hread hdeclared⟩
      | ok encoding => exact .ok ⟨rfl, rfl⟩
  · rw [opened_other htype]
    exact .ok ⟨rfl, rfl⟩

theorem Placed.congr {m' : Loader} (h : Placed fs m) (htype : m'.type = m.type) (hfile : m'.file = m.file) :
    Placed fs m' := by
  unfold Placed at *
  rwa [htype, hfile]

theorem inDirs_answers {start : Option String} {dirs : List Value} (hdirs : dirs ⊆ finder.entries start)
    (name : String) : finder.Answers (AsksOnce start name) (inDirs finder.files (lastPart name) dirs) fun found =>
      ∀ m ∈ found, Placed finder.files m := by
  induction dirs with
  | nil => exact .ok nofun
  | cons v rest ih =>
    obtain ⟨hv, hrest⟩ := List.cons_subset.1 hdirs
    have htext : finder.Answers (AsksOnce start name) v.onlyText fun dir => v = .str dir := by
      cases v with
      | str dir => exact .ok rfl
      | _ =>
        cases start with
        | none => exact .inr ⟨_, rfl, .entry ⟨rfl, rfl⟩ hv rfl⟩
        | some dir => cases List.mem_singleton.1 hv
    refine htext.bind fun dir _ hdir => ?_
    subst hdir
    cases hin : inDir finder.files dir (lastPart name) with
    | none => exact ih hrest
    | some m =>
      change finder.Answers _ (some <$> opened finder.files m) _
      rcases opened_answers hv hin with ⟨m', hopened, htype, hfile⟩ | ⟨fault, hopened, htrouble⟩
      · rw [hopened]
        refine .ok ?_
        rintro _ ⟨⟩
        exact (inDir_placed hin).1.congr htype hfile
      · rw [hopened]
        exact .inr ⟨fault, rfl, htrouble⟩

/-- What a look-up finds is placed in a directory, or built in if no directory was asked. -/
def Located (finder : Finder) (dir : Option String) (found : Option Loader) : Prop :=
  ∀ m ∈ found, Placed finder.files m ∨ dir = none ∧ m.type = .builtin

theorem find_answers (finder : Finder) (dir : Option String) (name : String) :
    finder.Answers (AsksOnce dir name) (finder.find dir name) (finder.Located dir) := by
  have hrenamed : ∀ {x : Except Fault (Option Loader)},
      finder.Answers (AsksOnce dir name) x (finder.Located dir) →
      finder.Answers (AsksOnce dir name) (x >>= fun found => pure (found.map fun m => { m with name }))
        (finder.Located dir) := by
    intro x hx
    apply hx.bind
    intro found _ hfound
    refine .ok ?_
    intro m hm
    obtain ⟨m', hm', rfl⟩ := Option.map_eq_some_iff.1 hm
    exact hfound m' hm'
  unfold find
  cases dir with
  | some dir => exact hrenamed ((inDirs_answers (List.Subset.refl _) _).imp fun _ _ h m hm => .inl (h m hm))
  | none =>
    dsimp only
    split
    · exact .ok nofun
    · split
      · refine .ok ?_
        rintro _ ⟨⟩
        exact .inr ⟨rfl, rfl⟩
      · exact hrenamed ((inDirs_answers (List.Subset.refl _) _).imp fun _ _ h m hm => .inl (h m hm))

/-! ## Deeper and deeper -/

section

variable (hno : NoLinks finder.files.root) (hfs : finder.files.root.wellNamed = true)
include hno hfs

omit hfs in
/-- The current directory has the same files under two names. -/
theorem place_join_dot {init : String} (hinit : init ≠ "") (hname : Path.isAbsolute init = false) :
    finder.files.place (Path.join "." init) = finder.files.place (Path.join "" init) := by
  have hempty : Path.join "" init = init := by
    rcases Path.join_cases hname "" with ⟨-, h⟩ | ⟨front, h, -⟩ | ⟨h, -⟩
    · exact h
    · exact absurd h.symm (by simp)
    · exact absurd rfl h
  have hdot : Path.segments "." = ["."] := by decide +kernel
  have hstart : finder.files.start "." = finder.files.start init := by
    rw [start, start, hname]
    rfl
  rw [place_join hno (by decide) hname, hempty, place, if_neg (by decide), hdot,
    follow_stay hno _ _ (.inr rfl) (Path.segments_ne_nil init), hstart, place, if_neg hinit]

omit hno hfs in
theorem realPath_empty : finder.files.realPath "" = finder.files.realPath "." := by
  have hstay : ∀ part, part = "" ∨ part = "." → ∀ limit path,
      unlink finder.files.root limit [] path [.part part] = path := by
    intro part hpart limit path
    have hpart : (part = "" || part = ".") = true := by simpa using hpart
    cases limit <;> simp [unlink, unlinkTo, hpart]
  have hempty : Path.segments "" = [""] := by decide +kernel
  have hdot : Path.segments "." = ["."] := by decide +kernel
  rw [realPath, realPath, hempty, hdot, List.map_singleton, List.map_singleton, hstay "" (.inl rfl),
    hstay "." (.inr rfl)]
  rfl

omit hno hfs in
theorem isEntryName_init {init : String} (h : init ∈ ["__init__.py", "__init__.pyc"]) : IsEntryName init := by
  have hall : ∀ init ∈ ["__init__.py", "__init__.pyc"], IsEntryName init := by decide
  exact hall init h

omit hfs in
theorem IsPackage.place {dir : String} (h : IsPackage finder.files dir) (hne : dir ≠ "") : ∃ parts items,
    finder.files.place dir = .ok parts ∧ finder.files.root.get? parts = some (.dir items) := by
  obtain ⟨init, hinit, hfile⟩ := h
  obtain ⟨q, hq⟩ := place_of_isFile hfile
  obtain ⟨parts, items, hparts, hitems, -⟩ := place_join_inv hno hne (isEntryName_init hinit) hq
  exact ⟨parts, items, hparts, hitems⟩

/-- A package is one under its real path too. -/
theorem IsPackage.liesAt_of_place {dir : String} {parts : List String} (h : IsPackage finder.files dir) (hne : dir ≠ "")
    (hplace : finder.files.place dir = .ok parts) : LiesAt finder.files dir parts := by
  have hreal := place_realPath hfs hplace
  rw [realPath_eq hplace] at hreal
  obtain ⟨init, hinit, hfile⟩ := h
  have hsame := place_join_congr hno hne (Path.ofParts_ne_empty parts) (hplace.trans hreal.symm) init
  exact ⟨realPath_eq hplace, hreal, init, hinit, isFile_congr hsame ▸ hfile⟩

theorem IsPackage.liesAt {dir : String} (h : IsPackage finder.files dir) : ∃ parts, LiesAt finder.files dir parts := by
  by_cases hne : dir = ""
  · subst hne
    have hdot : IsPackage finder.files "." := by
      obtain ⟨init, hinit, hfile⟩ := h
      have hentry := isEntryName_init hinit
      exact ⟨init, hinit, isFile_congr (place_join_dot hno hentry.1.1 hentry.isPart.not_absolute) ▸ hfile⟩
    obtain ⟨parts, _, hplace, -⟩ := hdot.place hno (by decide)
    have hlies := hdot.liesAt_of_place hno hfs (by decide) hplace
    exact ⟨parts, realPath_empty.trans hlies.real, hlies.place, hlies.package⟩
  · obtain ⟨parts, _, hplace, -⟩ := h.place hno hne
    exact ⟨parts, h.liesAt_of_place hno hfs hne hplace⟩

/-- A package in a package lies one step deeper. -/
theorem LiesAt.inner {dir : String} {parts : List String} (hdir : LiesAt finder.files dir parts)
    (h : IsPackage finder.files (Path.join (Path.ofParts parts) "__init__")) :
    LiesAt finder.files (Path.join (Path.ofParts parts) "__init__") (parts ++ ["__init__"]) := by
  have hentry : IsEntryName "__init__" := by decide
  have hne : Path.join (Path.ofParts parts) "__init__" ≠ "" := Path.join_ne_empty (Path.ofParts_ne_empty parts) _
  obtain ⟨q, _, hplace, -⟩ := h.place hno hne
  obtain ⟨parts', _, hparts', -, rfl⟩ := place_join_inv hno (Path.ofParts_ne_empty parts) hentry hplace
  have hsame : parts' = parts := Except.ok.inj (hparts'.symm.trans hdir.place)
  subst hsame
  exact h.liesAt_of_place hno hfs hne hplace

omit hfs in
theorem LiesAt.length_lt {dir : String} {parts : List String} (h : LiesAt finder.files dir parts) :
    parts.length < finder.files.root.size := by
  obtain ⟨parts', items, hplace, hitems⟩ := h.package.place hno (Path.ofParts_ne_empty parts)
  have hsame : parts' = parts := Except.ok.inj (hplace.symm.trans h.place)
  subst hsame
  exact Entry.length_lt_size hitems

omit hno hfs in
/-- A package has an initial module, which lies in it. -/
theorem initial_answers {dir : String} {parts : List String} (htype : m.type = .package) (hdir : m.file = some dir)
    (h : LiesAt finder.files dir parts) : finder.Answers (finder.AsksInit m) (finder.initial m) fun m' =>
      Placed finder.files m' ∧
      (m'.type = .package → m'.file = some (Path.join (Path.ofParts parts) "__init__")) := by
  obtain ⟨held, hheld⟩ := exists_inDir_init h.package
  have hlast : lastPart "__init__" = "__init__" := by decide +kernel
  have hsome : finder.find (some dir) "__init__" ≠ .ok none := by
    intro hnone
    rw [find_some, h.real, hlast, hheld] at hnone
    dsimp only at hnone
    cases hopened : opened finder.files held with
    | error fault => rw [hopened] at hnone; cases hnone
    | ok m' => rw [hopened] at hnone; cases hnone
  have hfind : finder.Answers (finder.AsksInit m) (finder.find (some dir) "__init__") (finder.Located (some dir)) := by
    refine (find_answers finder (some dir) "__init__").mono ?_
    rintro _ _ ⟨rfl, rfl⟩
    exact hdir ▸ .own htype
  unfold initial
  rw [hdir]
  rcases hfind with ⟨found, hfound, hplaced⟩ | ⟨fault, hfound, htrouble⟩
  · cases found with
    | none => exact absurd hfound hsome
    | some m' =>
      rw [hfound]
      refine .ok ⟨(hplaced m' rfl).resolve_right (fun h => nomatch h.1), fun htype => ?_⟩
      obtain ⟨held', hheld', htype', hfile⟩ := find_inDir hfound
      rw [h.real, hlast] at hheld'
      rcases inDir_cases hheld' with ⟨-, hpath, -⟩ | ⟨hp, -⟩
      · rw [hfile, hpath]
      · exact absurd (htype'.symm.trans htype) hp
  · rw [hfound]
    exact .inr ⟨fault, rfl, htrouble⟩

/-- **Delegation ends.** Each package on the way lies in the one before, and none lies deeper than there are entries. -/
theorem fileOf_package {fuel : Nat} {dir : String} {parts : List String} (htype : m.type = .package)
    (hdir : m.file = some dir) (h : LiesAt finder.files dir parts)
    (hfuel : finder.files.root.size < fuel + parts.length) :
    finder.Answers (finder.AsksInit m) (finder.fileOf fuel m) fun file => file.isSome = true := by
  have hdeep := h.length_lt hno
  induction fuel generalizing m dir parts with
  | zero => omega
  | succ fuel ih =>
    rw [fileOf, htype]
    refine (initial_answers htype hdir h).bind fun m' hinitial hm' => ?_
    obtain ⟨⟨hpackage, dir', hdir', hholds⟩ | ⟨hp, hb, file, hfile, -⟩, hdeeper⟩ := hm'
    · have hown : dir' = Path.join (Path.ofParts parts) "__init__" :=
        Option.some.inj (hdir'.symm.trans (hdeeper hpackage))
      subst hown
      have hinner := h.inner hno hfs hholds
      refine (ih hpackage hdir' hinner ?_ (hinner.length_lt hno)).mono fun _ _ => .inner htype hinitial
      rw [List.length_append, List.length_singleton]
      omega
    · obtain ⟨fuel, rfl⟩ : ∃ n, fuel = n + 1 := ⟨fuel - 1, by omega⟩
      rw [fileOf_other hp hb, hfile]
      exact .ok rfl

theorem fileOf_answers (hm : Placed finder.files m) :
    finder.Answers (finder.AsksInit m) (finder.fileOf finder.depth m) fun file => file.isSome = true := by
  rcases hm with ⟨htype, dir, hdir, hpackage⟩ | ⟨hp, hb, file, hfile, -⟩
  · obtain ⟨parts, hlies⟩ := hpackage.liesAt hno hfs
    refine fileOf_package hno hfs htype hdir hlies ?_
    rw [depth]
    omega
  · rw [depth, fileOf_other hp hb, hfile]
    exact .ok rfl

theorem dottedFrom_answers (names : List String) (file dir : Option String) :
    finder.Answers (finder.Asks dir names) (finder.dottedFrom file dir (names.map .str)) fun _ => True := by
  induction names generalizing file dir with
  | nil => exact .ok trivial
  | cons name rest ih =>
    have hfind : finder.Answers (finder.Asks dir (name :: rest)) (finder.find dir name) (finder.Located dir) := by
      refine (find_answers finder dir name).mono ?_
      rintro _ _ ⟨rfl, rfl⟩
      exact .first
    refine hfind.bind fun found hfound hlocated => ?_
    cases found with
    | none => exact .ok trivial
    | some m =>
      have hfile : finder.Answers (finder.AsksInit m) (finder.fileOf finder.depth m) fun _ => True := by
        rcases hlocated m rfl with hm | ⟨-, hbuiltin⟩
        · exact (fileOf_answers hno hfs hm).imp fun _ _ _ => trivial
        · rw [depth, fileOf, hbuiltin]
          exact .ok trivial
      refine (hfile.mono fun _ _ => .init hfound).bind fun file hfile _ => ?_
      cases file with
      | none => exact .ok trivial
      | some own => exact (ih (some own) _).mono fun _ _ => .later hfound hfile

end

/-- **Looking up always ends.** Without links in the tree, a dotted name has no file or one that is there, and a package
has the file of its initial module, unless there was trouble in a directory that is asked on the way; and it is never
that an initial module is missing or that packages delegate too deeply or forever. -/
theorem dotted_total (hno : NoLinks finder.files.root) (hfs : finder.files.root.wellNamed = true) :
    (∀ (names : List String) (dir : Option String),
      finder.Answers (finder.Asks dir names) (finder.dotted (names.map .str) dir) fun file =>
        ∀ own, file = some own → finder.files.isFile own = true) ∧
    (∀ (dir : Option String) (name : String) (m : Loader), finder.find dir name = .ok (some m) → m.type = .package →
      finder.Answers (finder.AsksInit m) (finder.fileOf finder.depth m) fun file =>
        ∃ own, file = some own ∧ finder.files.isFile own = true) ∧
    ∀ asked fault, finder.Trouble asked fault →
      fault ≠ .noOperation ∧ fault ≠ .tooDeep ∧ fault ≠ .endless := by
  refine ⟨fun names dir => ?_, fun dir name m hfound hpackage => ?_, fun asked fault htrouble => ?_⟩
  · refine (dottedFrom_answers hno hfs names none dir).imp ?_
    rintro _ hdotted - own rfl
    exact dotted_isFile hdotted
  · have hm : Placed finder.files m := by
      rcases find_answers finder dir name with ⟨found, hfound', hplaced⟩ | ⟨fault, hfound', -⟩
      · rw [hfound] at hfound'
        cases hfound'
        rcases hplaced m rfl with hm | ⟨-, hb⟩
        · exact hm
        · rw [hpackage] at hb
          cases hb
      · rw [hfound] at hfound'
        cases hfound'
    refine (fileOf_answers hno hfs hm).imp fun file hfile hsome => ?_
    obtain ⟨own, rfl⟩ := Option.isSome_iff_exists.1 hsome
    exact ⟨own, rfl, fileOf_isFile (find_hasFile hfound) hfile⟩
  · rcases htrouble.fault_eq with rfl | rfl | rfl
    · exact ⟨nofun, nofun, nofun⟩
    · exact ⟨nofun, nofun, nofun⟩
    · exact ⟨nofun, nofun, nofun⟩

def nestedInits : Finder where
  files :=
    { root := .dir [("pkg", .dir [("__init__.py", .file (.plain "")),
        ("__init__", .dir [("__init__.py", .file (.plain ""))])])]
      cwd := "/" }
  searchPath := [.str "/pkg"]

theorem dotted_nestedInits :
    nestedInits.files.root.links = 0 ∧ nestedInits.files.root.wellNamed = true ∧
    nestedInits.dotted [.str "pkg"] (some "/") = .ok (some "/pkg/__init__/__init__.py") ∧
    nestedInits.files.isFile "/pkg/__init__/__init__.py" = true := by
  have hlinks : nestedInits.files.root.links = 0 := by decide +kernel
  have hnamed : nestedInits.files.root.wellNamed = true := by decide +kernel
  have hdotted : nestedInits.dotted [.str "pkg"] (some "/") = .ok (some "/pkg/__init__/__init__.py") :=
    eq_ok_of_toOption (by decide +kernel)
  refine ⟨hlinks, hnamed, hdotted, ?_⟩
  have htotal := (dotted_total (noLinks_of_links hlinks) hnamed).1 ["pkg"] (some "/")
  rcases htotal with ⟨file, hfile, hthere⟩ | ⟨_, hfault, -⟩
  · exact hthere _ (Except.ok.inj (hfile.symm.trans hdotted))
  · exact nomatch hfault.symm.trans hdotted

def unknownEncoding : Finder where
  files := { root := .dir [("m.py", .file (.plain "# -*- coding: bogus -*-\nx = 1\n"))], cwd := "/" }
  searchPath := []

/-- The file is there, yet looking it up fails. -/
theorem dotted_unknownEncoding :
    unknownEncoding.files.root.links = 0 ∧ unknownEncoding.files.root.wellNamed = true ∧
    unknownEncoding.files.isFile "/m.py" = true ∧
    unknownEncoding.dotted [.str "m"] (some "/") = .error .malformedSource :=
  ⟨by decide +kernel, by decide +kernel, by decide +kernel, by decide +kernel⟩

end Finder

end ImportAtlas
