import ImportAtlas.Analysis.Listing
import ImportAtlas.Proofs.DependencyRuns
import Mathlib.Data.List.Forall2

/-!
# Imports by their full names

What the list of the imports of a file says of one import depends on that import alone (`Session.Lists`), although the
package root is searched for when the first local import asks for it, and is then remembered. So the list has one entry
for each import, in the order of the imports and with their lines. Left out are those alone that are found beside a file
without a package root; each of them is reported.
-/

namespace ImportAtlas

namespace Listing

variable {α β : Type} {s s' : Session} {fault : Fault}

theorem lift_of_ok {x : Run α} {a : α} (h : x s = .ok a s') (items : List β) :
    (liftM x : Listing β α) (items, s) = .ok a (items, s') := by
  simp only [liftM, monadLift, MonadLift.monadLift, h]

theorem lift_of_error {x : Run α} (h : x s = .error fault s') (items : List β) :
    (liftM x : Listing β α) (items, s) = .error fault (items, s') := by
  simp only [liftM, monadLift, MonadLift.monadLift, h]

theorem all_of_ok {l : Listing α Unit} {items : List α} (h : l ([], s) = .ok () (items, s')) :
    l.all s = .ok (items, none) s' := by
  simp only [all, h]

theorem all_of_error {l : Listing α Unit} {items : List α} (h : l ([], s) = .error fault (items, s')) :
    l.all s = .ok (items, some fault) s' := by
  simp only [all, h]

end Listing

def ImportRecord.fullName (r : ImportRecord) (module : String) : String :=
  if r.symbol.isNone then module else module ++ "." ++ r.symbol.display

namespace Session

variable {s t : Session} {ignores : Ignores} {path module : String} {r : ImportRecord} {e e' : Except String Listed}

def beside (s : Session) (path module : String) : Except Fault (Option String) :=
  s.lookups.dotted (Finder.partsOf module) (some (Path.parent path))

def rootComplaint (path module line : String) : String :=
  line ++ ": Could not find package root for local import '" ++ module ++ "' from '" ++ path ++ "'."

/-- What is said of an import for whose module the directory has the given file: its entry in the list, or the
complaint that stands for it. -/
def entryFor (s : Session) (ignores : Ignores) (path : String) (r : ImportRecord) (module : String) :
    Option String → Except Fault (Except String Listed)
  | none => return .ok { name := r.fullName module, line := r.line, isLocal := false }
  | some _ => do
    match ← s.files.packageRoot ignores path with
    | some root =>
      let name := r.fullName (Run.nameFromRoot root (Path.parent path) module)
      return .ok { name, line := r.line, isLocal := true }
    | none => return .error (rootComplaint path module (← r.line.lineNumber))

def listing (s : Session) (ignores : Ignores) (path : String) (r : ImportRecord) :
    Except Fault (Except String Listed) := do
  let module ← r.module.text
  s.entryFor ignores path r module (← s.beside path module)

theorem listing_inv (h : s.listing ignores path r = .ok e) : ∃ module found, r.module.text = .ok module ∧
    s.beside path module = .ok found ∧ match found with
      | none => e = .ok { name := r.fullName module, line := r.line, isLocal := false }
      | some _ => (∃ root, s.files.packageRoot ignores path = .ok (some root) ∧ e = .ok {
            name := r.fullName (Run.nameFromRoot root (Path.parent path) module), line := r.line, isLocal := true }) ∨
          s.files.packageRoot ignores path = .ok none ∧
            ∃ line, r.line.lineNumber = .ok line ∧ e = .error (rootComplaint path module line) := by
  obtain ⟨module, hmodule, h⟩ := except_bind_inv h
  obtain ⟨found, hfound, h⟩ := except_bind_inv h
  refine ⟨module, found, hmodule, hfound, ?_⟩
  cases found with
  | none => exact (Except.ok.inj h).symm
  | some file =>
    obtain ⟨root, hroot, h⟩ := except_bind_inv h
    cases root with
    | some root => exact .inl ⟨root, hroot, (Except.ok.inj h).symm⟩
    | none =>
      obtain ⟨line, hline, h⟩ := except_bind_inv h
      exact .inr ⟨hroot, line, hline, (Except.ok.inj h).symm⟩

theorem line_of_listing {i : Listed} (h : s.listing ignores path r = .ok (.ok i)) : i.line = r.line := by
  obtain ⟨_, found, _, _, h⟩ := listing_inv h
  cases found with
  | none => cases h; rfl
  | some file =>
    rcases h with ⟨_, _, h⟩ | ⟨_, _, _, h⟩
    · cases h; rfl
    · cases h

theorem isLocal_of_listing {i : Listed} (h : s.listing ignores path r = .ok (.ok i))
    (hmodule : r.module.text = .ok module) :
    s.beside path module = .ok none ∧ i.isLocal = false ∨
      ∃ file, s.beside path module = .ok (some file) ∧ i.isLocal = true := by
  obtain ⟨module', found, hmodule', hfound, h⟩ := listing_inv h
  cases hmodule.symm.trans hmodule'
  cases found with
  | none => cases h; exact .inl ⟨hfound, rfl⟩
  | some file =>
    rcases h with ⟨_, _, h⟩ | ⟨_, _, _, h⟩
    · cases h; exact .inr ⟨file, hfound, rfl⟩
    · cases h

/-- The import lies beside the file, which has no package root. -/
def Rootless (s : Session) (ignores : Ignores) (path : String) (r : ImportRecord) : Prop :=
  s.files.packageRoot ignores path = .ok none ∧
    ∃ module file, r.module.text = .ok module ∧ s.beside path module = .ok (some file)

theorem rootless_iff (h : s.listing ignores path r = .ok e) : s.Rootless ignores path r ↔ e.toOption = none := by
  obtain ⟨module, found, hmodule, hfound, h⟩ := listing_inv h
  constructor
  · rintro ⟨hroot, module', file, hmodule', hfile⟩
    cases hmodule.symm.trans hmodule'
    cases hfound.symm.trans hfile
    rcases h with ⟨_, hroot', _⟩ | ⟨_, _, _, rfl⟩
    · cases hroot.symm.trans hroot'
    · rfl
  · intro he
    cases found with
    | none => rw [h] at he; cases he
    | some file =>
      rcases h with ⟨_, _, rfl⟩ | ⟨hroot, _⟩
      · cases he
      · exact ⟨hroot, module, file, hmodule, hfound⟩

def reported (s : Session) : Except String Listed → Session
  | .ok _ => s
  | .error text => { s with console := s.console.message .warning text }

theorem quiet_reported (s : Session) (e : Except String Listed) : Quiet s (s.reported e) := by
  cases e with
  | ok i => exact quiet_equivalence.refl s
  | error text => exact ⟨rfl, rfl⟩

theorem Quiet.lookups_eq (h : Quiet s t) : t.lookups = s.lookups := h.alike.lookups_eq.symm

/-! ## One import -/

def Remembers (s : Session) (ignores : Ignores) (path : String) (known : Option String) : Prop :=
  ∀ root, known = some root → s.files.packageRoot ignores path = .ok (some root)

theorem remembers_root {root : String} (h : s.files.packageRoot ignores path = .ok (some root)) :
    s.Remembers ignores path (some root) := by
  intro known hknown
  cases hknown
  exact h

def ends (t : Session) (known : Option String) :
    Except Fault (Except String Listed) → EStateM.Result Fault Session (Option String × Option Listed)
  | .ok e => .ok (known, e.toOption) (t.reported e)
  | .error fault => .error fault t

/-- An import ends with what is said of it, and the root is still the right one. -/
theorem listImport_ends {known : Option String} (hknown : s.Remembers ignores path known) (hquiet : Quiet s t)
    (r : ImportRecord) : ∃ known', s.Remembers ignores path known' ∧
      Run.listImport path ignores known r t = t.ends known' (s.listing ignores path r) := by
  unfold Run.listImport listing
  cases r.module.text with
  | error fault => exact ⟨known, hknown, rfl⟩
  | ok module =>
    rw [lift_bind_of_ok rfl, bind_of_ok (Run.finder_eq t), hquiet.lookups_eq]
    change ∃ known', _ ∧ _ = t.ends known' (s.beside path module >>= s.entryFor ignores path r module)
    unfold beside Finder.partsOf
    cases s.lookups.dotted ((Text.pieces module '.').map .str) (some (Path.parent path)) with
    | error fault => exact ⟨known, hknown, rfl⟩
    | ok found =>
      change ∃ known', _ ∧ _ = t.ends known' (s.entryFor ignores path r module found)
      cases found with
      | none => exact ⟨known, hknown, rfl⟩
      | some file =>
        unfold entryFor
        cases known with
        | some root =>
          refine ⟨some root, hknown, ?_⟩
          rw [hknown root rfl]
          rfl
        | none =>
          rw [lift_bind_of_ok rfl]
          dsimp only
          rw [bind_of_ok (Run.files_eq t), ← hquiet.alike.files]
          cases hroot : s.files.packageRoot ignores path with
          | error fault => exact ⟨none, hknown, rfl⟩
          | ok root =>
            cases root with
            | some root => exact ⟨some root, remembers_root hroot, rfl⟩
            | none =>
              refine ⟨none, hknown, ?_⟩
              rw [lift_bind_of_ok rfl]
              cases r.line.lineNumber <;> rfl

/-! ## All imports -/

def Listings (s : Session) (ignores : Ignores) (path : String) (records : List ImportRecord)
    (es : List (Except String Listed)) : Prop :=
  List.Forall₂ (fun r e => s.listing ignores path r = .ok e) records es

section

variable {records : List ImportRecord} {es : List (Except String Listed)}

theorem Listings.line_sublist (h : s.Listings ignores path records es) :
    ((es.filterMap Except.toOption).map (·.line)).Sublist (records.map (·.line)) := by
  induction h with
  | nil => exact .slnil
  | @cons r e rest es hr _ ih =>
    cases e with
    | ok i =>
      rw [List.map_cons, ← line_of_listing hr]
      exact ih.cons_cons _
    | error text => exact ih.cons _

theorem Listings.isSome_iff (h : s.Listings ignores path records es) :
    (∀ e ∈ es, e.toOption.isSome = true) ↔ ∀ r ∈ records, ¬ s.Rootless ignores path r := by
  induction h with
  | nil => simp
  | cons hr _ ih =>
    rw [List.forall_mem_cons, List.forall_mem_cons, ih, rootless_iff hr, Option.isSome_iff_ne_none]

theorem Listings.exists_listing (h : s.Listings ignores path records es) :
    ∀ r ∈ records, ∃ e, s.listing ignores path r = .ok e := by
  induction h with
  | nil => simp
  | cons hr _ ih => exact List.forall_mem_cons.2 ⟨⟨_, hr⟩, ih⟩

/-- All imports are there if and only if none is without a root. -/
theorem Listings.lines_eq_iff (h : s.Listings ignores path records es) :
    (es.filterMap Except.toOption).map (·.line) = records.map (·.line) ↔
      ∀ r ∈ records, ¬ s.Rootless ignores path r := by
  rw [← h.line_sublist.length_eq, List.length_map, List.length_map, List.Forall₂.length_eq h,
    List.filterMap_length_eq_length, h.isSome_iff]

end

def emitNext (path : String) (ignores : Ignores) (root : Option String) (r : ImportRecord) :
    Listing Listed (Option String) := do
  let (root, i) ← (Run.listImport path ignores root r : Run (Option String × Option Listed))
  i.toList.forM Listing.emit
  return root

theorem emitNext_ends {known : Option String} (items : List Listed) (hknown : s.Remembers ignores path known)
    (hquiet : Quiet s t) (r : ImportRecord) :
    (∃ fault, s.listing ignores path r = .error fault ∧
      emitNext path ignores known r (items, t) = .error fault (items, t)) ∨
    ∃ e known', s.listing ignores path r = .ok e ∧ s.Remembers ignores path known' ∧
      emitNext path ignores known r (items, t) = .ok known' (items ++ e.toOption.toList, t.reported e) := by
  obtain ⟨known', hknown', hrun⟩ := listImport_ends hknown hquiet r
  cases hl : s.listing ignores path r with
  | error fault =>
    rw [hl] at hrun
    exact .inl ⟨fault, rfl, bind_of_error (Listing.lift_of_error hrun items) _⟩
  | ok e =>
    rw [hl] at hrun
    refine .inr ⟨e, known', rfl, hknown', (bind_of_ok (Listing.lift_of_ok hrun items) _).trans ?_⟩
    cases e with
    | ok i => rfl
    | error text =>
      rw [Except.toOption, Option.toList_none, List.append_nil]
      rfl

/-- Entries are handed out for the imports in their order, up to one of which nothing can be said. -/
theorem emitLoop_ends (records : List ImportRecord) {known : Option String} (items : List Listed)
    (hknown : s.Remembers ignores path known) (hquiet : Quiet s t) :
    (∃ es known', s.Listings ignores path records es ∧ records.foldlM (emitNext path ignores) known (items, t) =
      .ok known' (items ++ es.filterMap Except.toOption, es.foldl reported t)) ∨
    ∃ done r rest es fault, records = done ++ r :: rest ∧ s.Listings ignores path done es ∧
      s.listing ignores path r = .error fault ∧ records.foldlM (emitNext path ignores) known (items, t) =
        .error fault (items ++ es.filterMap Except.toOption, es.foldl reported t) := by
  induction records generalizing known items t with
  | nil => exact .inl ⟨[], known, .nil, by simp; rfl⟩
  | cons r rest ih =>
    rw [List.foldlM_cons]
    rcases emitNext_ends items hknown hquiet r with ⟨fault, hl, hrun⟩ | ⟨e, known', hl, hknown', hrun⟩
    · refine .inr ⟨[], r, rest, [], fault, rfl, .nil, hl, ?_⟩
      rw [bind_of_error hrun]
      simp
    · rw [bind_of_ok hrun]
      have hquiet' := quiet_equivalence.trans hquiet (quiet_reported t e)
      have hitems : ∀ es : List (Except String Listed), items ++ e.toOption.toList ++ es.filterMap Except.toOption =
          items ++ (e :: es).filterMap Except.toOption := by
        intro es
        cases e <;> simp [Except.toOption, List.filterMap_cons]
      rcases ih (items ++ e.toOption.toList) hknown' hquiet' with
        ⟨es, last, hes, hloop⟩ | ⟨done, q, after, es, fault, rfl, hes, hq, hloop⟩
      · refine .inl ⟨e :: es, last, .cons hl hes, ?_⟩
        rw [hloop, hitems]
        rfl
      · refine .inr ⟨r :: done, q, after, e :: es, fault, rfl, .cons hl hes, hq, ?_⟩
        rw [hloop, hitems]
        rfl

end Session

open Session

section

variable {path : String} {ignores : Ignores} {s : Session} {source : Source} {t : Tree} {records : List ImportRecord}
  (hread : s.files.read path = .ok source) (hparse : source.parse = .tree t) (himports : t.imports = .ok records)
include hread hparse himports

theorem emittedImports_eq : Run.emittedImports path ignores ([], s) =
    (records.foldlM (emitNext path ignores) none >>= fun _ => pure ()) ([], s) := by
  have hrecords : (liftM t.imports : Run (List ImportRecord)) s = .ok records s := by
    rw [himports]
    rfl
  unfold Run.emittedImports Run.listImports
  refine (bind_of_ok (Listing.lift_of_ok (Run.readSource_eq hread hparse) []) _).trans ?_
  exact bind_of_ok (Listing.lift_of_ok hrecords []) _

/-- Whether or not a fault comes in the end, what has been handed out are the entries of the first imports. -/
theorem emittedImports_cases :
    (∃ es, s.Listings ignores path records es ∧ (Run.emittedImports path ignores).all s =
      .ok (es.filterMap Except.toOption, none) (es.foldl reported s)) ∨
    ∃ done r rest es fault, records = done ++ r :: rest ∧ s.Listings ignores path done es ∧
      s.listing ignores path r = .error fault ∧ (Run.emittedImports path ignores).all s =
        .ok (es.filterMap Except.toOption, some fault) (es.foldl reported s) := by
  have heq := @emittedImports_eq path ignores s source t records hread hparse himports
  have hnone : s.Remembers ignores path none := fun _ h => by cases h
  rcases emitLoop_ends records [] hnone (quiet_equivalence.refl s) with
    ⟨es, known, hes, hloop⟩ | ⟨done, r, rest, es, fault, hsplit, hes, hr, hloop⟩
  · exact .inl ⟨es, hes, Listing.all_of_ok (heq.trans (bind_of_ok hloop _))⟩
  · exact .inr ⟨done, r, rest, es, fault, hsplit, hes, hr, Listing.all_of_error (heq.trans (bind_of_error hloop _))⟩

omit hread hparse himports in
theorem emitted_of_listedImports {listed : List Listed} {s' : Session}
    (h : Run.listedImports path ignores s = .ok listed s') :
    (Run.emittedImports path ignores).all s = .ok (listed, none) s' := by
  obtain ⟨⟨emitted, fault⟩, s₁, hall, h⟩ := bind_inv h
  cases fault with
  | none =>
    obtain ⟨rfl, rfl⟩ := pure_inv h
    exact hall
  | some fault => cases h

theorem listings_of_emittedImports {emitted : List Listed} {fault : Option Fault} {s' : Session}
    (h : (Run.emittedImports path ignores).all s = .ok (emitted, fault) s') : ∃ done es, done <+: records ∧
      (fault = none → done = records) ∧ s.Listings ignores path done es ∧ emitted = es.filterMap Except.toOption ∧
        s' = es.foldl reported s := by
  rcases @emittedImports_cases path ignores s source t records hread hparse himports with
    ⟨es, hes, hrun⟩ | ⟨done, r, rest, es, fault', rfl, hes, _, hrun⟩
  · cases h.symm.trans hrun
    exact ⟨records, es, List.prefix_refl _, fun _ => rfl, hes, rfl, rfl⟩
  · cases h.symm.trans hrun
    exact ⟨done, es, List.prefix_append _ _, nofun, hes, rfl, rfl⟩

theorem listedImports_cases :
    (∃ es, s.Listings ignores path records es ∧
      Run.listedImports path ignores s = .ok (es.filterMap Except.toOption) (es.foldl reported s)) ∨
    (∃ r ∈ records, ∃ fault, s.listing ignores path r = .error fault) ∧
      ∃ fault s', Run.listedImports path ignores s = .error fault s' := by
  rcases @emittedImports_cases path ignores s source t records hread hparse himports with
    ⟨es, hes, hrun⟩ | ⟨done, r, rest, es, fault, rfl, _, hr, hrun⟩
  · exact .inl ⟨es, hes, bind_of_ok hrun _⟩
  · exact .inr ⟨⟨r, by simp, fault, hr⟩, fault, _, bind_of_ok hrun _⟩

theorem listings_of_listedImports {listed : List Listed} {s' : Session}
    (h : Run.listedImports path ignores s = .ok listed s') : ∃ es, s.Listings ignores path records es ∧
      listed = es.filterMap Except.toOption ∧ s' = es.foldl reported s := by
  obtain ⟨done, es, _, hdone, hes, hlisted, hs'⟩ :=
    listings_of_emittedImports hread hparse himports (emitted_of_listedImports h)
  obtain rfl := hdone rfl
  exact ⟨es, hes, hlisted, hs'⟩

/-- **Imports are listed or reported.** The imports of a source that can be read and parsed are listed if and only if
something can be said of each of them. The list has the entries of the imports in their order and with their lines, and
what else is said are complaints. An import has no entry if and only if it lies beside a file without a package root. -/
theorem imports_listed_or_reported :
    ((∃ listed s', Run.listedImports path ignores s = .ok listed s') ↔
      ∀ r ∈ records, ∃ e, s.listing ignores path r = .ok e) ∧
    ∀ listed s', Run.listedImports path ignores s = .ok listed s' →
      (∃ es, s.Listings ignores path records es ∧ listed = es.filterMap Except.toOption ∧ s' = es.foldl reported s) ∧
      (listed.map (·.line)).Sublist (records.map (·.line)) ∧
      (listed.map (·.line) = records.map (·.line) ↔ ∀ r ∈ records, ¬ s.Rootless ignores path r) := by
  refine ⟨⟨?_, fun hall => ?_⟩, fun listed s' hrun => ?_⟩
  · rintro ⟨listed, s', hrun⟩
    obtain ⟨es, hes, _⟩ := listings_of_listedImports hread hparse himports hrun
    exact hes.exists_listing
  · rcases listedImports_cases hread hparse himports with ⟨es, _, hrun⟩ | ⟨⟨r, hr, fault, hbad⟩, _⟩
    · exact ⟨_, _, hrun⟩
    · obtain ⟨e, he⟩ := hall r hr
      cases hbad.symm.trans he
  · obtain ⟨es, hes, rfl, rfl⟩ := listings_of_listedImports hread hparse himports hrun
    exact ⟨⟨es, hes, rfl, rfl⟩, hes.line_sublist, hes.lines_eq_iff⟩

end

/-! ## A file without a root -/

theorem circle_imports : (Tools.importsOnly [Tools.plainImport 1 "a", Tools.plainImport 2 "sys"]).imports = .ok [
    { module := .str "a", symbol := .none, binding := .str "a", line := .int 1, level := .int 0, pragma := .none },
    { module := .str "sys", symbol := .none, binding := .str "sys", line := .int 2, level := .int 0,
      pragma := .none }] :=
  rfl

theorem circle_listed : ∃ listed s', Run.listedImports "/proj/b.py" (.names []) Tools.circle = .ok listed s' ∧
    listed.map Listed.name = ["sys"] :=
  exists_of_run' (by decide +kernel)

/-- Of the two imports of a file one is not in the list. -/
theorem local_import_not_listed : ∃ records listed s',
    (Tools.importsOnly [Tools.plainImport 1 "a", Tools.plainImport 2 "sys"]).imports = .ok records ∧
    Run.listedImports "/proj/b.py" (.names []) Tools.circle = .ok listed s' ∧ records.length = 2 ∧
      listed.map Listed.name = ["sys"] := by
  obtain ⟨listed, s', hrun, hnames⟩ := circle_listed
  exact ⟨_, listed, s', circle_imports, hrun, rfl, hnames⟩

theorem circle_listed_or_reported : ∃ listed s', ∃ es : List (Except String Listed),
    Run.listedImports "/proj/b.py" (.names []) Tools.circle = .ok listed s' ∧
    listed = es.filterMap Except.toOption ∧ s' = es.foldl reported Tools.circle ∧
    ∃ r : ImportRecord, r.module = .str "a" ∧ Tools.circle.Rootless (.names []) "/proj/b.py" r := by
  obtain ⟨_, hlisted⟩ := @imports_listed_or_reported "/proj/b.py" (.names []) Tools.circle _ _ _ rfl rfl circle_imports
  obtain ⟨listed, s', hrun, hnames⟩ := circle_listed
  obtain ⟨⟨es, _, hes, hs'⟩, _, hlines⟩ := hlisted listed s' hrun
  refine ⟨listed, s', es, hrun, hes, hs', ?_⟩
  have hlength : listed.length = 1 := by rw [← List.length_map Listed.name, hnames]; rfl
  have hlost := mt hlines.2 fun h => by simpa [hlength] using congrArg List.length h
  simp only [List.mem_cons, List.not_mem_nil, or_false, forall_eq_or_imp, forall_eq, not_and_or, not_not] at hlost
  rcases hlost with hlost | ⟨_, module, file, hmodule, hbeside⟩
  · exact ⟨_, rfl, hlost⟩
  · have hnone : (Tools.circle.beside "/proj/b.py" "sys").toOption = some none := by decide +kernel
    cases hmodule
    rw [hbeside] at hnone
    cases hnone

end ImportAtlas
