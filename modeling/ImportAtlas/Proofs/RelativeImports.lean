import ImportAtlas.Proofs.DottedNames
import ImportAtlas.Proofs.Places

/-!
# Imports from a directory

A module that is found from a directory lies below it: every part of its name is an entry of the directory that was
reached before, though links may lead from there to anywhere. An import that counts up from the importing file starts
from such a directory. It goes there after the built-in modules, and where nothing is found it goes on to the search
path, like any other import.
-/

namespace ImportAtlas

namespace FileSystem

/-- The names lead down from the directory to the path, through whatever links they meet. -/
structure Down (fs : FileSystem) (names : List String) (dir path : String) : Prop where
  isName : ∀ name ∈ names, IsEntryName name
  leads : ∃ p q n, fs.place dir = .ok p ∧ fs.place path = .ok q ∧ Leads fs.root p names q n

def Below (fs : FileSystem) (dir path : String) : Prop := ∃ names, names ≠ [] ∧ fs.Down names dir path

variable {fs : FileSystem}

theorem Down.trans {xs ys : List String} {a b c : String} (h : fs.Down xs a b) (h' : fs.Down ys b c) :
    fs.Down (xs ++ ys) a c := by
  obtain ⟨hxs, p, q, n, hp, hq, hleads⟩ := h
  obtain ⟨hys, q', r, m, hq', hr, hleads'⟩ := h'
  cases hq.symm.trans hq'
  obtain ⟨k, hk⟩ := hleads.append hleads'
  exact ⟨List.forall_mem_append.2 ⟨hxs, hys⟩, p, r, k, hp, hr, hk⟩

theorem Down.below {xs : List String} {a b c : String} (h : fs.Down xs a b) (h' : fs.Below b c) : fs.Below a c := by
  obtain ⟨ys, hne, hys⟩ := h'
  exact ⟨xs ++ ys, by simp [hne], h.trans hys⟩

theorem Down.real (hfs : fs.root.wellNamed = true) {xs : List String} {a b : String} (h : fs.Down xs a b) :
    fs.Down xs a (fs.realPath b) := by
  obtain ⟨hxs, p, q, n, hp, hq, hleads⟩ := h
  exact ⟨hxs, p, q, n, hp, place_realPath hfs hq, hleads⟩

/-- Without links the names are what the place has more. -/
theorem Leads.eq_append {root : Entry} (hno : NoLinks root) {here names q : List String} {n : Nat}
    (h : Leads root here names q n) (hnames : ∀ name ∈ names, IsName name) : q = here ++ names := by
  induction h with
  | nil here => rw [List.append_nil]
  | stay hs _ _ => exact absurd (hnames _ List.mem_cons_self) (not_isName_of_stay hs)
  | up _ _ => exact absurd rfl (hnames _ List.mem_cons_self).2.2
  | down _ _ _ _ ih =>
    rw [ih (List.forall_mem_cons.1 hnames).2]
    simp
  | jump _ hlink _ _ _ _ => exact absurd hlink (hno _ _)

theorem down_join {parts : List String} (hparts : ∀ part ∈ parts, Path.IsPart part) {name : String}
    (hname : IsEntryName name) {q : List String} (h : fs.place (Path.join (Path.ofParts parts) name) = .ok q) :
    fs.Down [name] (Path.ofParts parts) (Path.join (Path.ofParts parts) name) := by
  obtain ⟨p, n, hp, _, hleads⟩ := place_join_part hparts hname.isPart h
  exact ⟨by simpa using hname, p, q, n, hp, h, hleads⟩

end FileSystem

namespace Finder

open FileSystem

def lastPart (name : String) : String := ((Text.pieces name '.').getLast?).getD ""

theorem dot_not_mem_lastPart (name : String) : '.' ∉ (lastPart name).toList := by
  obtain ⟨last, hlast⟩ := Option.ne_none_iff_exists'.1 (mt List.getLast?_eq_none_iff.1 (pieces_ne_nil name '.'))
  rw [lastPart, hlast]
  exact Text.not_mem_of_mem_pieces (List.mem_of_getLast? hlast)

variable {finder : Finder} {name file : String} {m : Loader}

theorem opened_inv {fs : FileSystem} {m' : Loader} (h : opened fs m = .ok m') :
    m'.type = m.type ∧ m'.file = m.file := by
  unfold opened at h
  split at h
  · obtain ⟨source, _, h⟩ := except_bind_inv h
    obtain ⟨encoding, _, h⟩ := except_bind_inv h
    cases h
    exact ⟨rfl, rfl⟩
  · cases h
    exact ⟨rfl, rfl⟩

theorem inDirs_singleton {fs : FileSystem} {dir part : String} (h : inDirs fs part [.str dir] = .ok (some m)) :
    ∃ m', inDir fs dir part = some m' ∧ opened fs m' = .ok m := by
  obtain ⟨path, hpath, h⟩ := except_bind_inv h
  cases hpath
  cases hdir : inDir fs dir part with
  | none =>
    simp only [hdir] at h
    cases h
  | some m' =>
    simp only [hdir] at h
    refine ⟨m', rfl, ?_⟩
    cases hopened : opened fs m' with
    | error fault =>
      simp only [hopened] at h
      cases h
    | ok m₁ =>
      simp only [hopened] at h
      cases h
      rfl

theorem find_inDir {dir : String} (h : finder.find (some dir) name = .ok (some m)) :
    ∃ m', inDir finder.files (finder.files.realPath dir) (lastPart name) = some m' ∧ m.type = m'.type ∧
      m.file = m'.file := by
  unfold find at h
  obtain ⟨found, hfound, h⟩ := except_bind_inv h
  cases found with
  | none => cases h
  | some m₁ =>
    obtain ⟨m', hm', hopened⟩ := inDirs_singleton hfound
    obtain ⟨htype, hfile⟩ := opened_inv hopened
    cases h
    exact ⟨m', hm', htype, hfile⟩

/-- A directory has a package of this name, or a file of it with one of the endings. -/
theorem inDir_cases {fs : FileSystem} {dir : String} (h : inDir fs dir name = some m) :
    (m.type = .package ∧ m.file = some (Path.join dir name) ∧
      ∃ init, IsEntryName init ∧ fs.isFile (Path.join (Path.join dir name) init) = true) ∨
    (m.type ≠ .package ∧ m.type ≠ .builtin ∧ ∃ suffix, '/' ∉ suffix.toList ∧ 3 ≤ suffix.length ∧
      m.file = some (Path.join dir (name ++ suffix)) ∧ fs.isFile (Path.join dir (name ++ suffix)) = true) := by
  unfold inDir at h
  dsimp only at h
  split at h
  · rename_i hinit
    cases h
    rw [Bool.or_eq_true] at hinit
    refine .inl ⟨rfl, rfl, ?_⟩
    rcases hinit with hinit | hinit
    · exact ⟨_, by decide, hinit⟩
    · exact ⟨_, by decide, hinit⟩
  · obtain ⟨⟨suffix, type⟩, hsuffix, h⟩ := List.exists_of_findSome?_eq_some h
    dsimp only at h
    split at h
    · rename_i hfile
      cases h
      have hall : ∀ s ∈ Loader.suffixes, s.2 ≠ .package ∧ s.2 ≠ .builtin ∧ '/' ∉ s.1.toList ∧ 3 ≤ s.1.length := by
        decide
      obtain ⟨hp, hb, hslash, hlength⟩ := hall _ hsuffix
      exact .inr ⟨hp, hb, suffix, hslash, hlength, rfl, hfile⟩
    · cases h

theorem isEntryName_append {part suffix : String} (hpart : '/' ∉ part.toList) (hslash : '/' ∉ suffix.toList)
    (hlength : 3 ≤ suffix.length) : IsEntryName (part ++ suffix) := by
  have hshort : ∀ short : String, short.length < 3 → part ++ suffix ≠ short := by
    intro short hshort h
    have := congrArg String.length h
    rw [String.length_append] at this
    omega
  exact ⟨⟨hshort "" (by decide), hshort "." (by decide), hshort ".." (by decide)⟩, by simp [hpart, hslash]⟩

section

variable {dir : String} (hfind : finder.find (some dir) name = .ok (some m))
  (hname : '/' ∉ (lastPart name).toList)
include hfind hname

/-- A package is a directory at or below the one where it was found. -/
theorem package_down (hm : m.type = .package) :
    ∃ path names, m.file = some path ∧ finder.files.Down names (finder.files.realPath dir) path := by
  obtain ⟨m', hin, htype, hfile⟩ := find_inDir hfind
  obtain ⟨parts, hreal, hparts⟩ := realPath_isPart finder.files dir
  rw [hreal] at hin ⊢
  rcases inDir_cases hin with ⟨_, hpath, init, hinit, hisFile⟩ | ⟨hp, _⟩
  · obtain ⟨q, hq⟩ := place_of_isFile hisFile
    refine ⟨Path.join (Path.ofParts parts) (lastPart name), ?_⟩
    by_cases hempty : lastPart name = ""
    · -- the directory itself is the package
      rw [hempty] at hpath hq ⊢
      rw [Path.join_join_empty (Path.ofParts_ne_empty parts) hinit.isPart.not_absolute] at hq
      obtain ⟨p, _, hp, hslash, _⟩ := place_join_part hparts hinit.isPart hq
      exact ⟨[], hfile.trans hpath, List.forall_mem_nil _, p, p, 0, hp, hslash, .nil p⟩
    · have hdot := dot_not_mem_lastPart name
      have hentry : IsEntryName (lastPart name) := by
        refine ⟨⟨hempty, ?_, ?_⟩, hname⟩
        · intro h
          exact hdot (by rw [h]; decide)
        · intro h
          exact hdot (by rw [h]; decide)
      have hall : ∀ part ∈ parts ++ [lastPart name], Path.IsPart part :=
        List.forall_mem_append.2 ⟨hparts, by simpa using hentry.isPart⟩
      rw [Path.join_ofParts hparts hentry.isPart] at hq
      obtain ⟨p, _, hp, _, _⟩ := place_join_part hall hinit.isPart hq
      rw [← Path.join_ofParts hparts hentry.isPart] at hp
      exact ⟨[lastPart name], hfile.trans hpath, down_join hparts hentry hp⟩
  · exact absurd (htype.symm.trans hm) hp

/-- Any other module is a file in the directory. -/
theorem module_below (hm : m.type ≠ .package) :
    ∃ path, m.file = some path ∧ m.type ≠ .builtin ∧ finder.files.Below (finder.files.realPath dir) path ∧
      Path.parent path = finder.files.realPath dir := by
  obtain ⟨m', hin, htype, hfile⟩ := find_inDir hfind
  obtain ⟨parts, hreal, hparts⟩ := realPath_isPart finder.files dir
  rw [hreal] at hin ⊢
  rcases inDir_cases hin with ⟨hp, _⟩ | ⟨_, hb, suffix, hslash, hlength, hpath, hisFile⟩
  · exact absurd (htype.trans hp) hm
  · have hentry := isEntryName_append hname hslash hlength
    obtain ⟨q, hq⟩ := place_of_isFile hisFile
    refine ⟨_, hfile.trans hpath, by rwa [htype], ⟨_, by simp, down_join hparts hentry hq⟩, ?_⟩
    rw [Path.parent_join hentry.isPart, Path.trimmed_ofParts hparts]

end

section

variable (hfs : finder.files.root.wellNamed = true)
include hfs

theorem fileOf_below {fuel : Nat} {dir : String} (hfind : finder.find (some dir) name = .ok (some m))
    (hname : '/' ∉ (lastPart name).toList) (h : finder.fileOf fuel m = .ok (some file)) :
    finder.files.Below (finder.files.realPath dir) file ∧
      ∃ names, finder.files.Down names (finder.files.realPath dir) (Path.parent file) := by
  induction fuel generalizing m dir name with
  | zero => cases h
  | succ fuel ih =>
    by_cases hm : m.type = .package
    · rw [fileOf, hm] at h
      obtain ⟨init, hinit, h⟩ := except_bind_inv h
      obtain ⟨path, names, hpath, hdown⟩ := package_down hfind hname hm
      obtain ⟨found, hfound, hinit⟩ := except_bind_inv hinit
      cases found with
      | none => cases hinit
      | some found =>
        cases hinit
        rw [hpath] at hfound
        obtain ⟨hbelow, names', hparent⟩ := ih hfound (by decide +kernel) h
        exact ⟨(hdown.real hfs).below hbelow, _, (hdown.real hfs).trans hparent⟩
    · obtain ⟨path, hpath, hb, hbelow, hparent⟩ := module_below hfind hname hm
      have hfile : file = path := by
        rw [fileOf] at h
        split at h
        · exact absurd (by assumption) hm
        · exact absurd (by assumption) hb
        · rw [hpath] at h
          cases h
          rfl
      subst hfile
      refine ⟨hbelow, [], ?_⟩
      rw [hparent]
      obtain ⟨_, _, _, p, q, n, hp, _, _⟩ := hbelow
      exact ⟨List.forall_mem_nil _, p, p, 0, hp, hp, .nil p⟩

/-- What a dotted name means from a directory lies below it. -/
theorem dottedFrom_below {names : List String} (hne : names ≠ [])
    (hnames : ∀ name ∈ names, '/' ∉ (lastPart name).toList) {before : Option String} {dir : String}
    (h : finder.dottedFrom before (some dir) (names.map .str) = .ok (some file)) :
    finder.files.Below (finder.files.realPath dir) file ∧
      ∃ down, finder.files.Down down (finder.files.realPath dir) (Path.parent file) := by
  induction names generalizing before dir with
  | nil => exact absurd rfl hne
  | cons name rest ih =>
    obtain ⟨hname, hrest⟩ := List.forall_mem_cons.1 hnames
    obtain ⟨m, own, ⟨hfind, hown⟩, h⟩ := dottedFrom_str.1 h
    obtain ⟨hbelow, down, hparent⟩ := fileOf_below hfs hfind hname hown
    cases rest with
    | nil =>
      cases h
      exact ⟨hbelow, down, hparent⟩
    | cons next rest =>
      obtain ⟨hbelow', down', hparent'⟩ := ih (List.cons_ne_nil next rest) hrest h
      exact ⟨(hparent.real hfs).below hbelow', _, (hparent.real hfs).trans hparent'⟩

end

theorem startDir_eq (dir : String) {level : Nat} (hlevel : 1 ≤ level) :
    startDir (some dir) (.int level) = .ok (some (Nat.repeat Path.parent (level - 1) dir)) := by
  unfold startDir
  simp only [Value.integer?]
  split
  · rename_i hle
    have hone : level = 1 := by omega
    subst hone
    rfl
  · have hcast : ((level : Int) - 1).toNat = level - 1 := by omega
    rw [hcast]
    rfl

/-! ## Where an import starts -/

section

variable (hfs : finder.files.root.wellNamed = true)
include hfs

theorem meant_below {symbol : Value} {own dir : String} {problems : Option (List Problem)}
    (hown : finder.files.Below dir own) (hparent : ∃ names, finder.files.Down names dir (Path.parent own))
    (hsymbol : ∀ part, symbol = .str part → '/' ∉ (lastPart part).toList)
    (h : finder.meant name symbol (some own) = .ok (some file, problems)) : finder.files.Below dir file := by
  rw [meant] at h
  cases htruthy : symbol.truthy with
  | false =>
    rw [htruthy] at h
    cases h
    exact hown
  | true =>
    rw [htruthy] at h
    obtain ⟨found, hfound, h⟩ := except_bind_inv h
    cases found with
    | none =>
      obtain ⟨text, _, h⟩ := except_bind_inv h
      cases h
      exact hown
    | some found =>
      cases h
      cases symbol with
      | str part =>
        have hpart : ∀ name ∈ [part], '/' ∉ (lastPart name).toList := by simpa using hsymbol part rfl
        obtain ⟨names, hdown⟩ := hparent
        exact (hdown.real hfs).below (dottedFrom_below hfs (by simp) hpart hfound).1
      | _ => cases hfound

end

/-- **Imports that count up.** From one level on, an import starts in the directory of the importing file or so many
levels above it. What it gives lies below that directory, unless it is a built-in module, or nothing was found there
and the search path has it, or a part of the name is no name at all. Without any of these there is no file, and the
module is reported. -/
theorem importedFile_counting (finder : Finder) (hfs : finder.files.root.wellNamed = true) (name : String)
    (symbol : Value) (dir : String) (level : Nat) (hlevel : 1 ≤ level) (cache : ModuleCache) :
    (∀ file problems cache',
      finder.importedFile (.str name) symbol (some dir) (.int level) cache = .ok (some file, problems) cache' →
      finder.files.Below (finder.files.realPath (Nat.repeat Path.parent (level - 1) dir)) file ∨
        name ∈ finder.installation.builtinNames ∧ file = Path.join finder.installation.libraryDir name ∨
        finder.dotted (partsOf name) (some (Nat.repeat Path.parent (level - 1) dir)) = .ok none ∧
          (∃ own, finder.answer cache name = .ok (some own) ∧
            finder.meant name symbol (some own) = .ok (some file, problems)) ∨
        ∃ part, (part ∈ Text.pieces name '.' ∨ symbol = .str part) ∧ '/' ∈ (lastPart part).toList) ∧
    (name ∉ finder.installation.builtinNames →
      finder.dotted (partsOf name) (some (Nat.repeat Path.parent (level - 1) dir)) = .ok none →
      finder.answer cache name = .ok none →
      ∃ cache', finder.importedFile (.str name) symbol (some dir) (.int level) cache =
        .ok (none, some [{ kind := .notFound, name := .str name }]) cache') := by
  have hstart := startDir_eq dir hlevel
  constructor
  · intro file problems cache' h
    obtain ⟨_, hname, ⟨hbuiltin, hresult, _⟩ | ⟨_, own, hown, hmeant⟩⟩ := importedFile_inv h
    · cases hname
      cases hresult
      exact .inr (.inl ⟨hbuiltin, rfl⟩)
    · cases hname
      obtain ⟨start, hstart', hown⟩ := ownFile_inv hown
      cases hstart.symm.trans hstart'
      cases own with
      | none => cases hmeant
      | some own =>
        rcases hown with ⟨_, hown⟩ | ⟨hnone, hanswer⟩
        · by_cases hslash : ∃ part, (part ∈ Text.pieces name '.' ∨ symbol = .str part) ∧ '/' ∈ (lastPart part).toList
          · exact .inr (.inr (.inr hslash))
          · have hclean : ∀ part, part ∈ Text.pieces name '.' ∨ symbol = .str part → '/' ∉ (lastPart part).toList :=
              fun part hpart hmem => hslash ⟨part, hpart, hmem⟩
            obtain ⟨hbelow, hparent⟩ :=
              dottedFrom_below hfs (pieces_ne_nil name '.') (fun part hpart => hclean part (.inl hpart)) hown
            exact .inl (meant_below hfs hbelow hparent (fun part hpart => hclean part (.inr hpart)) hmeant)
        · exact .inr (.inr (.inl ⟨hnone, own, hanswer, hmeant⟩))
  · intro hbuiltin hnone hanswer
    obtain ⟨cache', _, hremembered⟩ := finder.remembered_eq cache name
    rw [hanswer] at hremembered
    have hown : finder.ownFile name (some dir) (.int level) cache = .ok none cache' := by
      unfold ownFile
      rw [lift_bind_of_ok hstart, lift_bind_of_ok hnone]
      exact hremembered
    refine ⟨cache', ?_⟩
    unfold importedFile
    rw [lift_bind_of_ok (rfl : (Value.str name).text = .ok name), if_neg hbuiltin, bind_of_ok hown]
    rfl

/-- A package with a package in it, and a module elsewhere that is on the search path. -/
def nested : Finder where
  files := {
    root := .dir [("lib", .dir [("m.py", .file (.plain ""))]),
      ("pkg", .dir [("__init__.py", .file (.plain "")), ("sub", .dir [("__init__.py", .file (.plain ""))]),
        ("x.py", .file (.plain ""))])]
    cwd := "/" }
  searchPath := [.str "/lib"]

theorem nested_importedFile {module dir file : String} {level : Nat}
    (h : ((nested.importedFile (.str module) .none (some dir) (.int level)).run' []).map
      (fun r => (r.1, r.2.map List.length)) = some (some file, some 0)) :
    ∃ cache, nested.importedFile (.str module) .none (some dir) (.int level) [] = .ok (some file, some []) cache := by
  obtain ⟨⟨found, problems⟩, cache, hrun, he⟩ := exists_of_run' h
  cases problems with
  | none => cases he
  | some problems =>
    cases problems with
    | nil => cases he; exact ⟨cache, hrun⟩
    | cons p problems => cases he

theorem nested_above : nested.files.Below (nested.files.realPath "/pkg") "/pkg/x.py" := by
  obtain ⟨cache, hrun⟩ : ∃ cache, nested.importedFile (.str "x") .none (some "/pkg/sub") (.int 2) [] =
      .ok (some "/pkg/x.py", some []) cache := nested_importedFile (by decide +kernel)
  have hdotted : nested.dotted (partsOf "x") (some "/pkg") = .ok (some "/pkg/x.py") :=
    eq_ok_of_toOption (by decide +kernel)
  have hstart : Nat.repeat Path.parent (2 - 1) "/pkg/sub" = "/pkg" := by decide +kernel
  have hcases := (importedFile_counting nested (by decide) "x" .none "/pkg/sub" 2 (by decide) []).1 _ _ _ hrun
  rw [hstart] at hcases
  rcases hcases with hbelow | ⟨hbuiltin, _⟩ | ⟨hnone, _⟩ | ⟨part, hpart, hslash⟩
  · exact hbelow
  · exact absurd hbuiltin (by decide)
  · rw [hdotted] at hnone
    cases hnone
  · have hpieces : Text.pieces "x" '.' = ["x"] := by decide +kernel
    rcases hpart with hpart | hpart
    · rw [hpieces, List.mem_singleton] at hpart
      subst hpart
      exact absurd hslash (by decide +kernel)
    · cases hpart

/-- A module on the search path, and one that is built in, are found from within a package that has neither. -/
theorem nested_elsewhere :
    (∃ cache, nested.importedFile (.str "m") .none (some "/pkg") (.int 1) [] = .ok (some "/lib/m.py", some []) cache) ∧
      ¬ nested.files.Below (nested.files.realPath "/pkg") "/lib/m.py" ∧
      nested.importedFile (.str "sys") .none (some "/pkg") (.int 1) [] = .ok (some "/usr/lib/python2.7/sys", none) [] ∧
      nested.files.exists? "/usr/lib/python2.7/sys" = false := by
  refine ⟨nested_importedFile (by decide +kernel), ?_, rfl, by decide +kernel⟩
  rintro ⟨names, hne, hnames, p, q, n, hp, hq, hleads⟩
  have hp' : nested.files.place (nested.files.realPath "/pkg") = .ok ["pkg"] := eq_ok_of_toOption (by decide +kernel)
  have hq' : nested.files.place "/lib/m.py" = .ok ["lib", "m.py"] := eq_ok_of_toOption (by decide +kernel)
  cases hp.symm.trans hp'
  cases hq.symm.trans hq'
  have happ := hleads.eq_append (noLinks_of_links (by decide)) fun name hname => (hnames name hname).1
  rw [List.singleton_append, List.cons.injEq] at happ
  exact absurd happ.1 (by decide)

end Finder

end ImportAtlas
