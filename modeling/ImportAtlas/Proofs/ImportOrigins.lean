import ImportAtlas.Proofs.ImportFiles
import ImportAtlas.Proofs.ListedImports

/-!
# Where imports come from

The file of an imported module is built in, or taken from the directory where the import starts, or given by the search
path. The list of imports calls those local that the directory of the importing file has. The two are the same for
imports that start from that directory and are not built in. The list does not ask whether a module is built in, and it
does not count the dots of an import.
-/

namespace ImportAtlas

theorem Value.eq_of_text {v : Value} {name : String} (h : v.text = .ok name) : v = .str name := by
  cases v with
  | str _ => cases h; rfl
  | _ => cases h

inductive Origin where
  | builtin
  | directory
  | searchPath
  deriving DecidableEq

namespace Finder

inductive TakesFrom (finder : Finder) (cache : ModuleCache) (name : String) (dir : Option String) (level : Value) :
    Origin → Option String → Prop
  | builtin (hbuiltin : name ∈ finder.installation.builtinNames) :
    TakesFrom finder cache name dir level .builtin (some (Path.join finder.installation.libraryDir name))
  | directory {start : Option String} {file : String} (hbuiltin : name ∉ finder.installation.builtinNames)
    (hstart : startDir dir level = .ok start) (hfound : finder.dotted (partsOf name) start = .ok (some file)) :
    TakesFrom finder cache name dir level .directory (some file)
  | searchPath {start own : Option String} (hbuiltin : name ∉ finder.installation.builtinNames)
    (hstart : startDir dir level = .ok start) (hfound : finder.dotted (partsOf name) start = .ok none)
    (hanswer : finder.answer cache name = .ok own) :
    TakesFrom finder cache name dir level .searchPath own

/-- What is answered for a module with the given file. A symbol is not looked for in what is built in. -/
def meantFrom (finder : Finder) (name : String) (symbol : Value) :
    Origin → Option String → Except Fault (Option String × Option (List Problem))
  | .builtin, own => .ok (own, none)
  | _, own => finder.meant name symbol own

variable {finder : Finder} {cache cache' : ModuleCache} {name : String} {symbol level : Value} {dir : Option String}
  {answer : Option String × Option (List Problem)}

theorem meantFrom_of_ne {o : Origin} (ho : o ≠ .builtin) (own : Option String) :
    finder.meantFrom name symbol o own = finder.meant name symbol own := by
  cases o with
  | builtin => exact absurd rfl ho
  | directory => rfl
  | searchPath => rfl

theorem TakesFrom.builtin_iff {o : Origin} {own : Option String} (h : finder.TakesFrom cache name dir level o own) :
    o = .builtin ↔ name ∈ finder.installation.builtinNames := by
  cases h with
  | builtin hbuiltin => simp [hbuiltin]
  | directory hbuiltin _ _ => simp [hbuiltin]
  | searchPath hbuiltin _ _ _ => simp [hbuiltin]

theorem ownFile_of_takesFrom {o : Origin} {own : Option String} (h : finder.TakesFrom cache name dir level o own)
    (ho : o ≠ .builtin) : ∃ cache', finder.ownFile name dir level cache = .ok own cache' := by
  unfold ownFile
  cases h with
  | builtin _ => exact absurd rfl ho
  | directory _ hstart hfound =>
    rw [lift_bind_of_ok hstart, lift_bind_of_ok hfound]
    exact ⟨cache, rfl⟩
  | searchPath _ hstart hfound hanswer =>
    rw [lift_bind_of_ok hstart, lift_bind_of_ok hfound]
    obtain ⟨cache', _, hrun⟩ := finder.remembered_eq cache name
    rw [hanswer] at hrun
    exact ⟨cache', hrun⟩

theorem takesFrom_of_ownFile (hbuiltin : name ∉ finder.installation.builtinNames) {own : Option String}
    (h : finder.ownFile name dir level cache = .ok own cache') :
    ∃ o, o ≠ .builtin ∧ finder.TakesFrom cache name dir level o own := by
  obtain ⟨start, hstart, ⟨hown, hfound⟩ | ⟨hfound, hanswer⟩⟩ := ownFile_inv h
  · obtain ⟨file, rfl⟩ := Option.ne_none_iff_exists'.1 hown
    exact ⟨.directory, nofun, .directory hbuiltin hstart hfound⟩
  · exact ⟨.searchPath, nofun, .searchPath hbuiltin hstart hfound hanswer⟩

/-- An import is answered from where its module comes from. -/
theorem importedFile_iff_takesFrom :
    (∃ cache', finder.importedFile (.str name) symbol dir level cache = .ok answer cache') ↔
      ∃ o own, finder.TakesFrom cache name dir level o own ∧ finder.meantFrom name symbol o own = .ok answer := by
  constructor
  · rintro ⟨cache', h⟩
    obtain ⟨_, hname, ⟨hbuiltin, rfl, _⟩ | ⟨hbuiltin, own, hown, hmeant⟩⟩ := importedFile_inv h
    · cases hname
      exact ⟨.builtin, _, .builtin hbuiltin, rfl⟩
    · cases hname
      obtain ⟨o, ho, htaken⟩ := takesFrom_of_ownFile hbuiltin hown
      exact ⟨o, own, htaken, (meantFrom_of_ne ho own).trans hmeant⟩
  · rintro ⟨o, own, htaken, hmeant⟩
    unfold importedFile
    rw [lift_bind_of_ok (rfl : (Value.str name).text = .ok name)]
    by_cases ho : o = .builtin
    · rw [if_pos (htaken.builtin_iff.1 ho)]
      subst ho
      cases htaken
      cases hmeant
      exact ⟨cache, rfl⟩
    · obtain ⟨cache', hown⟩ := ownFile_of_takesFrom htaken ho
      rw [if_neg (mt htaken.builtin_iff.2 ho), bind_of_ok hown, ← meantFrom_of_ne ho, hmeant]
      exact ⟨cache', rfl⟩

/-- An import that counts dots starts so many directories above. -/
theorem startDir_of_integer (dir : String) {n : Int} (hlevel : level.integer? = some n) :
    startDir (some dir) level = .ok (some (Nat.repeat Path.parent (n - 1).toNat dir)) := by
  unfold startDir
  rw [hlevel]
  dsimp only
  split
  · have hzero : (n - 1).toNat = 0 := by omega
    rw [hzero]
    rfl
  · rfl

theorem takesFrom_directory_iff {dir : String} {n : Int} (hlevel : level.integer? = some n) :
    (∃ own, finder.TakesFrom cache name (some dir) level .directory own) ↔ name ∉ finder.installation.builtinNames ∧
      ∃ file, finder.dotted (partsOf name) (some (Nat.repeat Path.parent (n - 1).toNat dir)) = .ok (some file) := by
  have hstart := startDir_of_integer dir hlevel
  constructor
  · rintro ⟨own, h⟩
    cases h with
    | directory hbuiltin hstart' hfound =>
      cases hstart.symm.trans hstart'
      exact ⟨hbuiltin, _, hfound⟩
  · rintro ⟨hbuiltin, file, hfound⟩
    exact ⟨some file, .directory hbuiltin hstart hfound⟩

end Finder

open Finder

namespace Session

variable {s : Session} {ignores : Ignores} {path name : String} {r : ImportRecord} {i : Listed} {n : Int}

def Takes (s : Session) (path : String) (r : ImportRecord) (name : String) (o : Origin) : Prop :=
  ∃ own, s.lookups.TakesFrom s.cache name (some (Path.parent path)) r.level o own

structure Decided (s : Session) (path : String) (r : ImportRecord) (name : String) (n : Int) (i : Listed) : Prop where
  isLocal_iff : i.isLocal = true ↔ ∃ file, s.beside path name = .ok (some file)
  takes_iff : s.Takes path r name .directory ↔ name ∉ s.installation.builtinNames ∧
    ∃ file, s.lookups.dotted (partsOf name) (some (Nat.repeat Path.parent (n - 1).toNat (Path.parent path))) =
      .ok (some file)
  agree : name ∉ s.installation.builtinNames → n ≤ 1 → (i.isLocal = true ↔ s.Takes path r name .directory)

theorem decided_of_listing (h : s.listing ignores path r = .ok (.ok i)) (hmodule : r.module = .str name)
    (hlevel : r.level.integer? = some n) : s.Decided path r name n i := by
  have hlocal : i.isLocal = true ↔ ∃ file, s.beside path name = .ok (some file) := by
    have htext : r.module.text = .ok name := by rw [hmodule]; rfl
    rcases isLocal_of_listing h htext with ⟨hbeside, hi⟩ | ⟨file, hbeside, hi⟩
    · simp [hi, hbeside]
    · simp [hi, hbeside]
  have htakes : s.Takes path r name .directory ↔ name ∉ s.installation.builtinNames ∧
      ∃ file, s.lookups.dotted (partsOf name) (some (Nat.repeat Path.parent (n - 1).toNat (Path.parent path))) =
        .ok (some file) := takesFrom_directory_iff hlevel
  refine ⟨hlocal, htakes, fun hbuiltin hn => ?_⟩
  have hzero : (n - 1).toNat = 0 := by omega
  rw [hlocal, htakes, hzero, and_iff_right hbuiltin]
  rfl

end Session

open Session

/-- **Local imports and origins.** Every import that is handed out, also before a fault, is answered from where its
module comes from. It is called local if and only if the directory of the file has the module, and it is taken from a
directory if and only if it is not built in and the directory has it that lies as far above as it has dots more than
one. -/
theorem local_imports_and_origins {path : String} {ignores : Ignores} {s s' : Session} {source : Source} {t : Tree}
    {records : List ImportRecord} {emitted : List Listed} {fault : Option Fault}
    (hread : s.files.read path = .ok source) (hparse : source.parse = .tree t) (himports : t.imports = .ok records)
    (hrun : (Run.emittedImports path ignores).all s = .ok (emitted, fault) s') :
    ∃ (done : List ImportRecord) (es : List (Except String Listed)), done <+: records ∧
      (fault = none → done = records) ∧ emitted = es.filterMap Except.toOption ∧
      List.Forall₂ (fun r e => ∀ i, e = .ok i → ∃ name, r.module = .str name ∧
        (∀ answer, s.Gives path r answer ↔ ∃ o own,
          s.lookups.TakesFrom s.cache name (some (Path.parent path)) r.level o own ∧
            s.lookups.meantFrom name r.symbol o own = .ok answer) ∧
        ∀ n, r.level.integer? = some n → s.Decided path r name n i) done es := by
  obtain ⟨done, es, hdone, hall, hes, hemitted, _⟩ := listings_of_emittedImports hread hparse himports hrun
  refine ⟨done, es, hdone, hall, hemitted, hes.imp fun r e he i hi => ?_⟩
  subst hi
  obtain ⟨name, _, hname, _, _⟩ := listing_inv he
  have hmodule : r.module = .str name := Value.eq_of_text hname
  refine ⟨name, hmodule, fun answer => ?_, fun n hlevel => decided_of_listing he hmodule hlevel⟩
  unfold Gives
  rw [hmodule]
  exact importedFile_iff_takesFrom

/-! ## A built-in name and an import with two dots -/

/-- A symbol from the outer package, and a module of the inner package with the name of a built-in one. -/
def outward : Tree :=
  Tools.importsOnly [.node .fromImport (.int 1)
    [.plain (.str "x"), .list [.tuple [.plain (.str "a"), .plain .none]], .plain (.int 2)], Tools.plainImport 2 "time"]

def outwardImport : ImportRecord where
  module := .str "x"
  symbol := .str "a"
  binding := .str "a"
  line := .int 1
  level := .int 2
  pragma := .none

def timeImport : ImportRecord where
  module := .str "time"
  symbol := .none
  binding := .str "time"
  line := .int 2
  level := .int 0
  pragma := .none

theorem outward_imports : outward.imports = .ok [outwardImport, timeImport] := rfl

def shadowing : Session where
  files := {
    root := .dir [("proj", .dir [("pkg", .dir [
      ("__init__.py", .file (.plain "")),
      ("sub", .dir [
        ("__init__.py", .file (.plain "")),
        ("m.py", .file { text := "from ..x import a\nimport time\n", parse := .tree outward }),
        ("time.py", .file (.plain ""))]),
      ("x.py", .file (.plain ""))])])]
    cwd := "/" }

theorem shadowing_listed : ∃ listed s', Run.listedImports "/proj/pkg/sub/m.py" (.names []) shadowing = .ok listed s' ∧
    listed.map (fun i => (i.name, i.isLocal)) = [("x.a", false), ("pkg.sub.time", true)] :=
  exists_of_run' (by decide +kernel)

/-- What is taken from a directory is not called local, and what is built in is. -/
theorem origins_not_as_listed : ∃ listed s', outward.imports = .ok [outwardImport, timeImport] ∧
    Run.listedImports "/proj/pkg/sub/m.py" (.names []) shadowing = .ok listed s' ∧
    listed.map (fun i => (i.name, i.isLocal)) = [("x.a", false), ("pkg.sub.time", true)] ∧
    shadowing.Takes "/proj/pkg/sub/m.py" outwardImport "x" .directory ∧
    shadowing.Takes "/proj/pkg/sub/m.py" timeImport "time" .builtin ∧
    ¬ shadowing.Takes "/proj/pkg/sub/m.py" timeImport "time" .directory := by
  obtain ⟨listed, s', hrun, hlisted⟩ := shadowing_listed
  have hbuiltin : "time" ∈ shadowing.installation.builtinNames := by decide
  have hfound : (shadowing.lookups.dotted (partsOf "x") (some (Nat.repeat Path.parent ((2 : Int) - 1).toNat
      (Path.parent "/proj/pkg/sub/m.py")))).toOption = some (some "/proj/pkg/x.py") := by decide +kernel
  refine ⟨listed, s', outward_imports, hrun, hlisted, ?_, ⟨_, .builtin hbuiltin⟩, fun h => ?_⟩
  · exact (takesFrom_directory_iff rfl).2 ⟨by decide, _, eq_ok_of_toOption hfound⟩
  · exact ((takesFrom_directory_iff rfl).1 h).1 hbuiltin

theorem shadowing_origins : ∃ (listed : List Listed) (s' : Session) (es : List (Except String Listed)),
    Run.listedImports "/proj/pkg/sub/m.py" (.names []) shadowing = .ok listed s' ∧
    listed = es.filterMap Except.toOption ∧
    List.Forall₂ (fun r e => ∀ i, e = .ok i → ∃ name, r.module = .str name ∧
      ∀ n, r.level.integer? = some n → shadowing.Decided "/proj/pkg/sub/m.py" r name n i)
        [outwardImport, timeImport] es := by
  obtain ⟨listed, s', hrun, _⟩ := shadowing_listed
  obtain ⟨_, es, _, hdone, hes, hall⟩ :=
    local_imports_and_origins rfl rfl outward_imports (emitted_of_listedImports hrun)
  rw [hdone rfl] at hall
  refine ⟨listed, s', es, hrun, hes, hall.imp fun r e h i hi => ?_⟩
  obtain ⟨name, hmodule, _, hdecided⟩ := h i hi
  exact ⟨name, hmodule, hdecided⟩

end ImportAtlas
