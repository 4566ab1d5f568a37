import ImportAtlas.Proofs.ModuleCache
import Mathlib.Logic.Basic

/-!
# Dotted names and packages

Each part of a dotted name is looked for in the directory of the file found for the part before. For a package
that is the directory of the package. For a plain module it is the directory in which the module lies, so what is
found there as a part of the module is a neighbour of it. A dotted name means a file in exactly these two ways.
-/

namespace ImportAtlas.Finder

variable {finder : Finder} {dir : Option String} {file : String}

def Finds (finder : Finder) (dir : Option String) (name : String) (m : Loader) (file : String) : Prop :=
  finder.find dir name = .ok (some m) ∧ finder.fileOf finder.depth m = .ok (some file)

theorem Finds.unique {name : String} {m m' : Loader} {file file' : String} (h : finder.Finds dir name m file)
    (h' : finder.Finds dir name m' file') : m = m' ∧ file = file' := by
  obtain ⟨hm, hf⟩ := h
  obtain ⟨hm', hf'⟩ := h'
  rw [hm] at hm'
  cases hm'
  rw [hf] at hf'
  cases hf'
  exact ⟨rfl, rfl⟩

theorem Finds.file_eq {name : String} {m : Loader} (h : finder.Finds dir name m file)
    (hm : m.type ≠ .package) : m.file = some file := by
  obtain ⟨_, hf⟩ := h
  rw [depth, fileOf] at hf
  cases ht : m.type with
  | package => exact absurd ht hm
  | builtin => rw [ht] at hf; cases hf
  | source => rw [ht] at hf; exact Except.ok.inj hf
  | compiled => rw [ht] at hf; exact Except.ok.inj hf
  | extension => rw [ht] at hf; exact Except.ok.inj hf

/-! ## One part after another -/

theorem dottedFrom_str {before : Option String} {name : String} {rest : List Value} :
    finder.dottedFrom before dir (.str name :: rest) = .ok (some file) ↔
      ∃ m own, finder.Finds dir name m own ∧
        finder.dottedFrom (some own) (some (Path.parent own)) rest = .ok (some file) := by
  constructor
  · intro h
    change (finder.find dir name >>= _) = _ at h
    obtain ⟨m?, hm, h⟩ := except_bind_inv h
    cases m? with
    | none => cases h
    | some m =>
      obtain ⟨own?, hown, h⟩ := except_bind_inv h
      cases own? with
      | none => cases h
      | some own => exact ⟨m, own, ⟨hm, hown⟩, h⟩
  · rintro ⟨m, own, ⟨hm, hown⟩, h⟩
    change (finder.find dir name >>= _) = _
    rw [hm]
    change (finder.fileOf finder.depth m >>= _) = _
    rw [hown]
    exact h

theorem dotted_singleton {name : String} :
    finder.dotted [.str name] dir = .ok (some file) ↔ ∃ m, finder.Finds dir name m file := by
  rw [dotted, dottedFrom_str]
  constructor
  · rintro ⟨m, own, hm, h⟩
    cases h
    exact ⟨m, hm⟩
  · rintro ⟨m, hm⟩
    exact ⟨m, file, hm, rfl⟩

theorem dotted_cons {name : String} {next : Value} {rest : List Value} :
    finder.dotted (.str name :: next :: rest) dir = .ok (some file) ↔
      ∃ m own, finder.Finds dir name m own ∧
        finder.dotted (next :: rest) (some (Path.parent own)) = .ok (some file) :=
  dottedFrom_str

theorem dotted_append {names : List String} (hn : names ≠ []) {last : Value} :
    finder.dotted (names.map .str ++ [last]) dir = .ok (some file) ↔
      ∃ own, finder.dotted (names.map .str) dir = .ok (some own) ∧
        finder.dotted [last] (some (Path.parent own)) = .ok (some file) := by
  induction names generalizing dir with
  | nil => exact absurd rfl hn
  | cons name rest ih =>
    cases rest with
    | nil =>
      rw [List.map_cons, List.map_nil, List.singleton_append, dotted_cons]
      simp only [dotted_singleton]
      constructor
      · rintro ⟨m, own, hm, h⟩
        exact ⟨own, ⟨m, hm⟩, h⟩
      · rintro ⟨own, ⟨m, hm⟩, h⟩
        exact ⟨m, own, hm, h⟩
    | cons next rest =>
      simp only [List.map_cons, List.cons_append, dotted_cons] at ih ⊢
      simp only [ih (List.cons_ne_nil next rest)]
      constructor
      · rintro ⟨m, own, hm, g, hg, h⟩
        exact ⟨g, ⟨m, own, hm, hg⟩, h⟩
      · rintro ⟨g, ⟨m, own, hm, hg⟩, h⟩
        exact ⟨m, own, hm, g, hg, h⟩

/-! ## Through packages, or to a neighbour -/

inductive PackagePath (finder : Finder) : Option String → List String → String → Prop
  | last {dir : Option String} {name : String} {m : Loader} {file : String} :
    finder.Finds dir name m file → PackagePath finder dir [name] file
  | within {dir : Option String} {name next : String} {rest : List String} {m : Loader} {own file : String} :
    finder.Finds dir name m own → m.type = .package →
    PackagePath finder (some (Path.parent own)) (next :: rest) file →
    PackagePath finder dir (name :: next :: rest) file

/-- After some packages comes a plain module that is not the last part, and the parts after it are taken from the
directory in which the file of that module lies. -/
inductive NeighbourPath (finder : Finder) : Option String → List String → String → Prop
  | beside {dir : Option String} {name next : String} {rest : List String} {m : Loader} {own file : String} :
    finder.Finds dir name m own → m.type ≠ .package → m.file = some own →
    finder.dotted ((next :: rest).map .str) (some (Path.parent own)) = .ok (some file) →
    NeighbourPath finder dir (name :: next :: rest) file
  | within {dir : Option String} {name next : String} {rest : List String} {m : Loader} {own file : String} :
    finder.Finds dir name m own → m.type = .package →
    NeighbourPath finder (some (Path.parent own)) (next :: rest) file →
    NeighbourPath finder dir (name :: next :: rest) file

theorem PackagePath.dotted {names : List String} (h : finder.PackagePath dir names file) :
    finder.dotted (names.map .str) dir = .ok (some file) := by
  induction h with
  | last hm => exact dotted_singleton.2 ⟨_, hm⟩
  | within hm _ _ ih => exact dotted_cons.2 ⟨_, _, hm, ih⟩

theorem NeighbourPath.dotted {names : List String} (h : finder.NeighbourPath dir names file) :
    finder.dotted (names.map .str) dir = .ok (some file) := by
  induction h with
  | beside hm _ _ h => exact dotted_cons.2 ⟨_, _, hm, h⟩
  | within hm _ _ ih => exact dotted_cons.2 ⟨_, _, hm, ih⟩

theorem PackagePath.not_neighbourPath {names : List String} (h : finder.PackagePath dir names file) :
    ¬ finder.NeighbourPath dir names file := by
  induction h with
  | last _ => nofun
  | within hm ht _ ih =>
    intro hn
    cases hn with
    | beside hm' ht' _ _ =>
      obtain ⟨rfl, _⟩ := hm.unique hm'
      exact ht' ht
    | within hm' _ hn =>
      obtain ⟨_, rfl⟩ := hm.unique hm'
      exact ih hn

theorem packagePath_or_neighbourPath {names : List String} (hn : names ≠ [])
    (h : finder.dotted (names.map .str) dir = .ok (some file)) :
    finder.PackagePath dir names file ∨ finder.NeighbourPath dir names file := by
  induction names generalizing dir with
  | nil => exact absurd rfl hn
  | cons name rest ih =>
    cases rest with
    | nil =>
      obtain ⟨m, hm⟩ := dotted_singleton.1 h
      exact .inl (.last hm)
    | cons next rest =>
      obtain ⟨m, own, hm, hrest⟩ := dotted_cons.1 h
      by_cases ht : m.type = .package
      · rcases ih (List.cons_ne_nil next rest) hrest with hp | hp
        · exact .inl (.within hm ht hp)
        · exact .inr (.within hm ht hp)
      · exact .inr (.beside hm ht (hm.file_eq ht) hrest)

theorem dotted_iff_xor {names : List String} (hn : names ≠ []) :
    finder.dotted (names.map .str) dir = .ok (some file) ↔
      Xor (finder.PackagePath dir names file) (finder.NeighbourPath dir names file) := by
  constructor
  · intro h
    rcases packagePath_or_neighbourPath hn h with hp | hp
    · exact .inl ⟨hp, hp.not_neighbourPath⟩
    · exact .inr ⟨hp, fun hq => hq.not_neighbourPath hp⟩
  · rintro (⟨h, _⟩ | ⟨h, _⟩)
    · exact h.dotted
    · exact h.dotted

/-! ## Symbols of modules -/

theorem pieces_ne_nil (name : String) (c : Char) : Text.pieces name c ≠ [] := by
  simp [Text.pieces, List.splitOn]

theorem importedFile_symbol {cache cache' : ModuleCache} {name symbol : String} {level : Value}
    (hc : finder.Agree [] cache) (hs : symbol ≠ "")
    (h : finder.importedFile (.str name) (.str symbol) dir level cache = .ok (some file, some []) cache') :
    ∃ start top, startDir dir level = .ok start ∧ (top = start ∨ top = none) ∧
      finder.dotted ((Text.pieces name '.' ++ [symbol]).map .str) top = .ok (some file) := by
  obtain ⟨_, hname, ⟨_, h, _⟩ | ⟨_, own, hown, h⟩⟩ := importedFile_inv h
  · cases h
  · cases hname
    obtain ⟨start, hstart, hown⟩ := ownFile_inv hown
    cases own with
    | none => cases h
    | some own =>
      have hsub : finder.dotted [.str symbol] (some (Path.parent own)) = .ok (some file) := by
        have ht : (Value.str symbol).truthy = true := by simpa [Value.truthy] using hs
        rw [meant, ht] at h
        obtain ⟨sub, hsub, h⟩ := except_bind_inv h
        cases sub with
        | none => cases h
        | some sub => cases h; exact hsub
      refine ⟨start, ?_⟩
      rcases hown with ⟨_, hown⟩ | ⟨_, hown⟩
      · refine ⟨start, hstart, .inl rfl, ?_⟩
        rw [List.map_append]
        exact (dotted_append (pieces_ne_nil name '.')).2 ⟨own, hown, hsub⟩
      · refine ⟨none, hstart, .inr rfl, ?_⟩
        rw [← hc name] at hown
        rw [List.map_append]
        exact (dotted_append (pieces_ne_nil name '.')).2 ⟨own, hown, hsub⟩

/-- **Packages or neighbours.** A dotted name of several parts means a file if and only if all parts but the last
are packages, or else one of them is a plain module and the parts after it are neighbours of its file; and so it
is with a symbol that is taken for a module. -/
theorem dotted_packages_or_neighbours (finder : Finder) :
    (∀ (dir : Option String) (first second : String) (rest : List String) (file : String),
      finder.dotted ((first :: second :: rest).map .str) dir = .ok (some file) ↔
        Xor (finder.PackagePath dir (first :: second :: rest) file)
          (finder.NeighbourPath dir (first :: second :: rest) file)) ∧
    ∀ (cache cache' : ModuleCache) (name symbol : String) (dir : Option String) (level : Value) (file : String),
      finder.Agree [] cache → symbol ≠ "" →
      finder.importedFile (.str name) (.str symbol) dir level cache = .ok (some file, some []) cache' →
      ∃ start top, startDir dir level = .ok start ∧ (top = start ∨ top = none) ∧
        Xor (finder.PackagePath top (Text.pieces name '.' ++ [symbol]) file)
          (finder.NeighbourPath top (Text.pieces name '.' ++ [symbol]) file) := by
  constructor
  · intro dir first second rest file
    exact dotted_iff_xor (List.cons_ne_nil first _)
  · intro cache cache' name symbol dir level file hc hs h
    obtain ⟨start, top, hstart, htop, h⟩ := importedFile_symbol hc hs h
    exact ⟨start, top, hstart, htop, (dotted_iff_xor (by simp)).1 h⟩

def neighbours : Finder where
  files := {
    root := .dir [("proj", .dir [("a.py", .file (.plain "")), ("b.py", .file (.plain ""))])]
    cwd := "/" }
  searchPath := []

theorem neighbours_dotted : neighbours.dotted [.str "a", .str "b"] (some "/proj") = .ok (some "/proj/b.py") :=
  eq_ok_of_toOption (by decide +kernel)

theorem neighbours_importedFile :
    ∃ cache, neighbours.importedFile (.str "a") (.str "b") (some "/proj") (.int 0) [] =
      .ok (some "/proj/b.py", some []) cache := by
  have hrun : ((neighbours.importedFile (.str "a") (.str "b") (some "/proj") (.int 0)).run' []).map
      (fun r => (r.1, r.2.map List.length)) = some (some "/proj/b.py", some 0) := by decide +kernel
  obtain ⟨⟨found, problems⟩, cache, hrun, he⟩ := exists_of_run' hrun
  cases problems with
  | none => cases he
  | some problems =>
    cases problems with
    | nil => cases he; exact ⟨cache, hrun⟩
    | cons p problems => cases he

theorem neighbours_plain : ¬ neighbours.PackagePath (some "/proj") ["a", "b"] "/proj/b.py" := by
  have hfind : neighbours.find (some "/proj") "a" =
      .ok (some { name := "a", file := some "/proj/a.py", suffix := ".py", type := .source }) :=
    eq_ok_of_toOption (by decide +kernel)
  intro h
  cases h with
  | within hm ht _ =>
    have := hm.1.symm.trans hfind
    cases this
    cases ht

/-- A plain module has no modules in it, and yet the one beside it is found as if it were in it. -/
theorem dotted_of_no_package :
    neighbours.dotted [.str "a", .str "b"] (some "/proj") = .ok (some "/proj/b.py") ∧
      (∃ cache, neighbours.importedFile (.str "a") (.str "b") (some "/proj") (.int 0) [] =
        .ok (some "/proj/b.py", some []) cache) ∧
      ¬ neighbours.PackagePath (some "/proj") ["a", "b"] "/proj/b.py" :=
  ⟨neighbours_dotted, neighbours_importedFile, neighbours_plain⟩

theorem neighbours_neighbourPath :
    neighbours.NeighbourPath (some "/proj") ["a", "b"] "/proj/b.py" ∧
      ∃ top, neighbours.NeighbourPath top (Text.pieces "a" '.' ++ ["b"]) "/proj/b.py" := by
  obtain ⟨hdotted, hsymbol⟩ := dotted_packages_or_neighbours neighbours
  constructor
  · rcases (hdotted (some "/proj") "a" "b" [] _).1 neighbours_dotted with ⟨h, _⟩ | ⟨h, _⟩
    · exact absurd h neighbours_plain
    · exact h
  · have hpieces : Text.pieces "a" '.' ++ ["b"] = ["a", "b"] := by decide +kernel
    obtain ⟨cache, hrun⟩ := neighbours_importedFile
    obtain ⟨start, top, hstart, htop, h⟩ :=
      hsymbol [] cache "a" "b" (some "/proj") (.int 0) _ (fun _ => rfl) (by decide) hrun
    rcases h with ⟨h, _⟩ | ⟨h, _⟩
    · cases hstart
      rcases htop with rfl | rfl
      · rw [hpieces] at h
        exact absurd h neighbours_plain
      · have hnone : neighbours.dotted [.str "a", .str "b"] none = .ok none := eq_ok_of_toOption (by decide +kernel)
        rw [hpieces] at h
        exact absurd (hnone.symm.trans h.dotted) nofun
    · exact ⟨top, h⟩

end ImportAtlas.Finder
