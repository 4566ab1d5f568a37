import ImportAtlas.Proofs.Histories
import ImportAtlas.Proofs.IgnoringUnused
import ImportAtlas.Proofs.RepeatedImports
import ImportAtlas.Tools.Check

/-!
# Names that seem not to be imported

The check for missing imports holds the names of a file against those that are known without an import, the assigned
names, and the modules of the used imports. It does not ask which names the imports bind. So only the name of a whole
module is safe from it: a symbol, a module under another name and the package of a module are reported wherever they are
used, although they are imported.
-/

namespace ImportAtlas

open ImportAtlas.Tree

theorem exists_assignments {t : Tree} (h : t.wellFormed = true) : ∃ assigned, t.assignments = .ok assigned := by
  have henter : ∀ u a, ∃ a', Assignments.visitor.enter u a = .ok () a' := by
    intro u a
    simp only [Assignments.visitor]
    rcases u.kind? with _ | kind
    · exact ⟨_, rfl⟩
    · cases kind <;> exact ⟨_, rfl⟩
  obtain ⟨a, hwalk⟩ := Visitor.walk_total (fun _ => rfl) henter h {}
  refine ⟨a.names, ?_⟩
  unfold Tree.assignments Visitor.collect
  rw [hwalk]
  rfl

namespace Tools

/-! ## Notices -/

inductive Notice where
  | repeated (line : String) (binding : Value)
  | unused (line : String) (column : Nat) (binding : Value)
  | missing (line name : String)

namespace Notice

def text (path : String) : Notice → String
  | repeated line binding => path ++ ":" ++ line ++ ":  Duplicate import '" ++ binding.display ++ "'\n"
  | unused line column binding =>
    path ++ ":" ++ line ++ ":" ++ toString column ++ ":  Unused import '" ++ binding.display ++ "'\n"
  | missing line name => path ++ ":" ++ line ++ ":  Missing import for '" ++ name ++ "'\n"

def missing? : Notice → Option (String × String)
  | missing line name => some (name, line)
  | _ => none

end Notice

/-- Between the sessions notices about a file were printed, of missing imports those given. -/
def Notes (path : String) (told : List (String × String)) (s s' : Session) : Prop :=
  ∃ notices : List Notice, s'.console.err = notices.foldl (fun err n => err ++ n.text path) s.console.err ∧
    notices.filterMap Notice.missing? = told

section

variable {path : String} {α : Type}

theorem notes_refl (s : Session) : Notes path [] s s :=
  ⟨[], rfl, rfl⟩

theorem Notes.trans {told told' : List (String × String)} {s s₁ s' : Session} (h : Notes path told s s₁)
    (h' : Notes path told' s₁ s') : Notes path (told ++ told') s s' := by
  obtain ⟨notices, herr, rfl⟩ := h
  obtain ⟨notices', herr', rfl⟩ := h'
  exact ⟨notices ++ notices', by rw [herr', herr, List.foldl_append], List.filterMap_append⟩

theorem notes_one (n : Notice) (s : Session) :
    Notes path n.missing?.toList s { s with console := s.console.printError (n.text path) } :=
  ⟨[n], rfl, by cases n <;> rfl⟩

def Silent (path : String) (x : Run α) : Prop :=
  Leaves (Notes path []) (fun _ => True) x

theorem silent_bind {β : Type} {x : Run α} {f : α → Run β} (hx : Silent path x) (hf : ∀ a, Silent path (f a)) :
    Silent path (x >>= f) :=
  leaves_bind (fun _ _ _ => Notes.trans) hx hf

theorem silent_pure (a : α) : Silent path (pure a) :=
  leaves_pure notes_refl a

theorem silent_lift (x : Except Fault α) : Silent path (liftM x) :=
  leaves_lift notes_refl (fun _ => trivial) x

theorem silent_forM {xs : List α} {f : α → Run Unit} (hf : ∀ x, Silent path (f x)) : Silent path (xs.forM f) :=
  leaves_forM (fun _ _ _ => Notes.trans) notes_refl fun x _ => hf x

theorem silent_mapM {β : Type} {xs : List α} {f : α → Run β} (hf : ∀ x, Silent path (f x)) :
    Silent path (xs.mapM f) := by
  induction xs with
  | nil => exact silent_pure []
  | cons x xs ih =>
    rw [List.mapM_cons]
    exact silent_bind (hf x) fun y => silent_bind ih fun ys => silent_pure (y :: ys)

theorem silent_print (text : String) : Silent path (Run.print text) :=
  fun s => .ok () (notes_refl s)

theorem silent_notice {n : Notice} (hn : n.missing? = none) : Silent path (Run.printError (n.text path)) := by
  intro s
  have hone : Notes path n.missing?.toList s _ := notes_one n s
  rw [hn] at hone
  exact .ok () hone

theorem silent_checkRepeats (values : List Value) : Silent path (checkRepeats path values) := by
  unfold checkRepeats
  refine silent_bind (silent_lift _) fun split => silent_bind (silent_forM fun v => ?_) fun _ => silent_pure _
  refine silent_bind (silent_lift _) fun r => silent_bind (silent_lift _) fun line => ?_
  exact silent_notice (n := .repeated line r.binding) rfl

theorem silent_checkUnused (settings : CheckSettings) (lines : List String) (t : Tree) (values : List Value) :
    Silent path (checkUnused settings path lines t values) := by
  unfold checkUnused
  refine silent_bind (silent_lift _) fun usage => silent_bind (silent_forM fun v => ?_) fun _ => silent_pure _
  refine silent_bind (silent_lift _) fun r => ?_
  split
  · refine silent_bind (silent_lift _) fun column => silent_bind (silent_lift _) fun line => ?_
    exact silent_notice (n := .unused line column r.binding) rfl
  · exact silent_pure ()

theorem silent_printNames (title : String) (names : List (Value × Value)) :
    Silent path (printNames path title names) := by
  unfold printNames
  refine silent_bind (silent_print _) fun _ => silent_forM fun p => ?_
  exact silent_bind (silent_lift _) fun _ => silent_print _

theorem silent_printFindings (t : Tree) (values : List Value) (assigned : List (Value × Value)) :
    Silent path (printFindings path t values assigned) := by
  have hprintOut : ∀ p : Printout, Silent path (Run.printOut p) := by
    intro p
    unfold Run.printOut
    refine silent_bind (silent_print _) fun _ => ?_
    split
    · exact fun s => .error (notes_refl s) trivial
    · exact silent_pure ()
  unfold printFindings
  refine silent_bind (silent_mapM fun v => silent_bind (silent_lift _) fun r => silent_pure _) fun imported => ?_
  refine silent_bind (silent_printNames _ _) fun _ => silent_bind (silent_printNames _ _) fun _ => ?_
  exact silent_bind (silent_print _) fun _ => silent_bind (hprintOut _) fun _ => silent_print _

end

/-! ## Names without a definition -/

def numbered (p : String × Value) : Except Fault (String × String) :=
  p.2.lineNumber.map fun line => (p.1, line)

/-- The names are reported in turn until the computation stops, and all of them if it ends well. -/
def Tells (path : String) (names : List (String × Value)) (x : Run Unit) (s : Session) : Prop :=
  ∃ reached told, reached <+: names ∧ reached.mapM numbered = .ok told ∧ Notes path told s (stateAfter x s) ∧
    (outcome x s = .ok () → reached = names)

section

variable {path : String} {α : Type} {names : List (String × Value)} {s s₁ : Session}

theorem tells_congr {x y : Run Unit} (hxy : x s = y s) (h : Tells path names y s) : Tells path names x s := by
  unfold Tells stateAfter outcome at h ⊢
  rwa [hxy]

theorem tells_of_error {x : Run Unit} {fault : Fault} (hx : x s = .error fault s₁) (hs : Notes path [] s s₁) :
    Tells path names x s := by
  refine ⟨[], [], List.nil_prefix, rfl, ?_, ?_⟩
  · rwa [stateAfter, hx]
  · rw [outcome, hx]
    exact fun h => by cases h

theorem tells_bind {x : Run α} {f : α → Run Unit} (hx : Silent path x)
    (hf : ∀ a s₁, x s = .ok a s₁ → Tells path names (f a) s₁) : Tells path names (x >>= f) s := by
  cases hrun : x s with
  | error fault s₁ => exact tells_of_error (bind_of_error hrun f) (hx.error hrun).1
  | ok a s₁ =>
    obtain ⟨reached, told, hreached, htold, hnotes, hall⟩ := hf a s₁ hrun
    have hbind := bind_of_ok hrun f
    refine ⟨reached, told, hreached, htold, ?_, ?_⟩
    · rw [stateAfter, hbind]
      exact (hx.ok hrun).trans hnotes
    · rw [outcome, hbind]
      exact hall

theorem tells_before {x y : Run Unit} (hx : Tells path names x s) (hy : Silent path y) :
    Tells path names (x >>= fun _ => y) s := by
  obtain ⟨reached, told, hreached, htold, hnotes, hall⟩ := hx
  cases hrun : x s with
  | error fault s₁ =>
    have hbind := bind_of_error hrun fun _ => y
    rw [stateAfter, hrun] at hnotes
    refine ⟨reached, told, hreached, htold, ?_, ?_⟩
    · rwa [stateAfter, hbind]
    · rw [outcome, hbind]
      exact fun h => by cases h
  | ok a s₁ =>
    have hbind := bind_of_ok hrun fun _ => y
    rw [stateAfter, hrun] at hnotes
    rw [outcome, hrun] at hall
    have hboth := hnotes.trans (hy.stateAfter s₁)
    rw [List.append_nil] at hboth
    refine ⟨reached, told, hreached, htold, ?_, fun _ => hall rfl⟩
    rw [stateAfter, hbind]
    exact hboth

/-- The loop over the names: each that is picked is reported, if its line has a number. -/
theorem tells_forM {pick : String → Bool} {f : String × Value → Run Unit}
    (hf : ∀ p, f p = if pick p.1 then liftM p.2.lineNumber >>= fun line =>
      Run.printError ((Notice.missing line p.1).text path) else pure ()) (uses : List (String × Value)) (s : Session) :
    Tells path (uses.filter fun p => pick p.1) (uses.forM f) s := by
  induction uses generalizing s with
  | nil => exact ⟨[], [], List.nil_prefix, rfl, notes_refl s, fun _ => rfl⟩
  | cons p uses ih =>
    change Tells path _ (f p >>= fun _ => uses.forM f) s
    cases hp : pick p.1 with
    | false =>
      rw [List.filter_cons_of_neg (by simp [hp]), hf p, if_neg (by simp [hp])]
      exact ih s
    | true =>
      rw [List.filter_cons_of_pos (by simp [hp]), hf p, if_pos hp]
      cases hline : p.2.lineNumber with
      -- the run stops here, after the names before this one
      | error fault => exact tells_of_error rfl (notes_refl s)
      | ok line =>
        obtain ⟨reached, told, hreached, htold, hnotes, hall⟩ :=
          ih { s with console := s.console.printError ((Notice.missing line p.1).text path) }
        refine ⟨p :: reached, (p.1, line) :: told, List.cons_prefix_cons.2 ⟨rfl, hreached⟩, ?_, ?_, ?_⟩
        · rw [List.mapM_cons, htold, numbered, hline]
          rfl
        · exact (notes_one (.missing line p.1) s).trans hnotes
        · exact fun h => congrArg (p :: ·) (hall h)

end

/-- The name is no module of the imports, is not assigned, and not known anyway. -/
def isUndefined (imports : List ImportRecord) (assigned : List (Value × Value)) (name : String) : Bool :=
  !(Value.str name).among (imports.map (·.module) ++ assigned.map Prod.fst) && name ∉ knownNames

def undefinedNames (t : Tree) (imports : List ImportRecord) (assigned : List (Value × Value)) :
    List (String × Value) :=
  (t.nodes.filterMap named?).filter fun p => isUndefined imports assigned p.1

theorem tells_checkMissing {path : String} {t : Tree} (h : t.wellFormed = true) (imports : List ImportRecord)
    (assigned : List (Value × Value)) (s : Session) : Tells path (undefinedNames t imports assigned)
      (checkMissing path t (imports.map ImportRecord.toValue) assigned) s := by
  unfold checkMissing
  refine tells_bind (silent_mapM fun v => silent_bind (silent_lift _) fun r => silent_lift _) fun modules s₁ hrun => ?_
  have hmodules : modules = imports.map (·.module) := by
    have hmapM := mapM_inv (g := fun v => ImportRecord.ofValue v >>= fun r => r.module.asKey)
      (fun v s y s' hv => by
        obtain ⟨r, hr, hv⟩ := lift_bind_inv hv
        rw [hr]
        exact (lift_inv hv).1) hrun
    rw [List.mapM_map] at hmapM
    refine eq_map_of_mapM (fun r y hy => ?_) hmapM
    change (ImportRecord.ofValue r.toValue >>= fun r => r.module.asKey) = .ok y at hy
    rw [r.ofValue_toValue] at hy
    exact Value.eq_of_asKey hy
  refine tells_bind (silent_mapM fun p => silent_lift _) fun names s₂ hrun' => ?_
  have hnames : names = assigned.map Prod.fst := by
    have hmapM := mapM_inv (g := fun p : Value × Value => p.1.asKey) (fun p s y s' hp => (lift_inv hp).1) hrun'
    exact eq_map_of_mapM (fun p y hy => Value.eq_of_asKey hy) hmapM
  obtain ⟨uses, huses, -, hcollected⟩ := exists_nameUses h
  refine tells_congr (lift_bind_of_ok huses _ s₂) ?_
  have hsimple : uses.simple = t.nodes.filterMap named? := hcollected.simple
  rw [hsimple, hmodules, hnames]
  exact tells_forM (fun _ => rfl) _ s₂

/-! ## A file -/

def CheckSettings.kept (settings : CheckSettings) (records : List ImportRecord) : List ImportRecord :=
  if settings.repeats then Repeats.firsts records else records

theorem checkRepeats_inv {path : String} {records : List ImportRecord} {values : List Value} {s s' : Session}
    (h : checkRepeats path (records.map ImportRecord.toValue) s = .ok values s') :
    values = (Repeats.firsts records).map ImportRecord.toValue := by
  unfold checkRepeats at h
  obtain ⟨split, hsplit, h⟩ := lift_bind_inv h
  obtain ⟨_, _, _, h⟩ := bind_inv h
  obtain ⟨rfl, _⟩ := pure_inv h
  exact (Repeats.split_inv hsplit).1

theorem checkUnused_inv {settings : CheckSettings} {path : String} {lines : List String} {t : Tree}
    {records : List ImportRecord} {names values : List Value} {s s' : Session} (hnames : Usage.usedNames t = .ok names)
    (h : checkUnused settings path lines t (records.map ImportRecord.toValue) s = .ok values s') :
    values = (records.filter fun r => !Usage.isUnused names r).map ImportRecord.toValue := by
  unfold checkUnused at h
  obtain ⟨usage, husage, h⟩ := lift_bind_inv h
  obtain ⟨_, _, _, h⟩ := bind_inv h
  obtain ⟨rfl, _⟩ := pure_inv h
  unfold Usage.split at husage
  rw [hnames] at husage
  exact Usage.foldlM_step_inv husage

theorem kept_inv {settings : CheckSettings} {path : String} {records : List ImportRecord} {values : List Value}
    {s s' : Session} (h : (if settings.repeats then checkRepeats path (records.map ImportRecord.toValue)
      else pure (records.map ImportRecord.toValue)) s = .ok values s') :
    values = (settings.kept records).map ImportRecord.toValue := by
  unfold CheckSettings.kept
  split at h
  · rw [if_pos ‹_›]
    exact checkRepeats_inv h
  · rw [if_neg ‹_›]
    exact (pure_inv h).1.symm

theorem tells_checkFile {settings : CheckSettings} {path : String} {s : Session} {t : Tree}
    {records : List ImportRecord} {names : List Value} {assigned : List (Value × Value)}
    (hparses : s.files.Parses path t) (h : t.wellFormed = true) (hmissing : settings.missing = true)
    (himports : t.imports = .ok records) (hnames : Usage.usedNames t = .ok names)
    (hassigned : t.assignments = .ok assigned) :
    Tells path (undefinedNames t ((settings.kept records).filter fun r => !Usage.isUnused names r) assigned)
      (checkFile settings path) s := by
  obtain ⟨source, hread, hparse⟩ := hparses
  unfold checkFile
  refine tells_congr (bind_of_ok (Run.readSource_eq hread hparse) _) ?_
  refine tells_congr (lift_bind_of_ok himports _ s) ?_
  -- both branches go on alike, so the choice is a first step of its own
  refine tells_congr (congrFun (apply_ite (fun x : Run (List Value) => x >>= _) _ _ _).symm s) ?_
  have hkept : Silent path (if settings.repeats then checkRepeats path (records.map ImportRecord.toValue)
      else pure (records.map ImportRecord.toValue)) := by
    split
    · exact silent_checkRepeats _
    · exact silent_pure _
  refine tells_bind hkept fun kept s₁ hrun => ?_
  rw [kept_inv hrun]
  refine tells_bind (silent_checkUnused settings _ t _) fun values s₂ hrun => ?_
  rw [checkUnused_inv hnames hrun, hmissing, if_pos (by simp)]
  refine tells_congr (lift_bind_of_ok hassigned _ s₂) ?_
  rw [if_pos rfl]
  refine tells_before (tells_checkMissing h _ assigned s₂) ?_
  split
  · exact silent_printFindings t _ assigned
  · exact silent_pure ()

theorem isUnused_of_named {t : Tree} {names : List Value} (hnames : ∀ name, t.RefersTo name → .str name ∈ names)
    {name : String} {line : Value} (hname : (name, line) ∈ t.nodes.filterMap named?) {r : ImportRecord}
    (hr : r.binding = .str name) : Usage.isUnused names r = false := by
  obtain ⟨u, hu, hnamed⟩ := List.mem_filterMap.1 hname
  have hchain : u.chain? = some [name] := by
    rw [named?_eq_some.1 hnamed]
    rfl
  apply Usage.isUnused_of_mem
  rw [hr]
  exact hnames name ⟨u, hu, [name], hchain, 0, by simp, rfl⟩

theorem not_undefined_of_module {t : Tree} {names : List Value} {imports : List ImportRecord}
    {assigned : List (Value × Value)} (hnames : ∀ name, t.RefersTo name → .str name ∈ names) {r : ImportRecord}
    (hr : r ∈ imports) {name : String} (hbinding : r.binding = .str name) (hmodule : r.module = .str name)
    (line : Value) : (name, line) ∉ undefinedNames t (imports.filter fun r => !Usage.isUnused names r) assigned := by
  intro hmem
  obtain ⟨hname, hundefined⟩ := List.mem_filter.1 hmem
  have hused : r ∈ imports.filter fun r => !Usage.isUnused names r :=
    List.mem_filter.2 ⟨hr, by simp [isUnused_of_named hnames hname hbinding]⟩
  have hamong : (Value.str name).among ((imports.filter fun r => !Usage.isUnused names r).map (·.module) ++
      assigned.map Prod.fst) = true :=
    Value.among_of_mem (List.mem_append_left _ (List.mem_map.2 ⟨r, hused, hmodule⟩))
  simp [isUndefined, hamong] at hundefined

/-- **Missing by module.** A file is searched for names that are no module of a used import, assigned nowhere and not
known anyway. They are reported in turn until the check stops, and nothing else is. So a name is reported although it
is imported, unless it is also the module of the import that binds it. -/
theorem missing_by_module {settings : CheckSettings} {path : String} {s : Session} {t : Tree}
    (hparses : s.files.Parses path t) (h : t.wellFormed = true) (hmissing : settings.missing = true) :
    ∃ records names assigned, t.imports = .ok records ∧ Usage.usedNames t = .ok names ∧ t.assignments = .ok assigned ∧
      Tells path (undefinedNames t ((settings.kept records).filter fun r => !Usage.isUnused names r) assigned)
        (checkFile settings path) s ∧
      ∀ r ∈ settings.kept records, ∀ name line, r.binding = .str name → r.module = .str name →
        (name, line) ∉ undefinedNames t ((settings.kept records).filter fun r => !Usage.isUnused names r) assigned := by
  obtain ⟨names, hnames, hrefers, -, -⟩ := Usage.usedNames_of_wellFormed h
  obtain ⟨assigned, hassigned⟩ := exists_assignments h
  have himports := imports_eq h
  refine ⟨_, names, assigned, himports, hnames, hassigned, ?_, ?_⟩
  · exact tells_checkFile hparses h hmissing himports hnames hassigned
  · intro r hr name line hbinding hmodule
    exact not_undefined_of_module hrefers hr hbinding hmodule line

/-! ## Imported names that are reported

A symbol and the package of a module are used where they are imported. -/

namespace Imported

def symbol : Tree :=
  .node .fromImport (.int 1) [word "m", .list [.tuple [word "x", .plain .none]], .plain (.int 0)]

def submodule : Tree := .node .importNames (.int 2) [.list [.tuple [word "a.b", .plain .none]]]

def useOf (line : Int) (used : Tree) : Tree := .node .discard (.int line) [used]

def nameAt (line : Int) (name : String) : Tree := .node .name (.int line) [word name]

/-- `from m import x; import a.b; x; a.b` -/
def program : Tree :=
  .node .program .none [.plain .none, .node .block .none [.list [symbol, submodule, useOf 3 (nameAt 3 "x"),
    useOf 4 (.node .attribute (.int 4) [nameAt 4 "a", word "b"])]]]

def session : Session where
  files := {
    root := .dir [("f.py", .file { text := "from m import x\nimport a.b\nx\na.b\n", parse := .tree program })]
    cwd := "/" }

def settings : CheckSettings := { ignores := [], missing := true }

end Imported

open Imported

theorem imported_names_missing : program.imports.map (·.map (·.binding)) = .ok [.str "x", .str "a.b"] ∧
    outcome (check ["-M", "/f.py"]) session = .ok () ∧ (stateAfter (check ["-M", "/f.py"]) session).console.err =
      "/f.py:3:  Missing import for 'x'\n/f.py:4:  Missing import for 'a'\n" := by
  refine ⟨rfl, ?_, by decide +kernel⟩
  rfl

theorem undefined_names_of_program : ∃ records names assigned, program.imports = .ok records ∧
    Usage.usedNames program = .ok names ∧ program.assignments = .ok assigned ∧
    Tells "/f.py" (undefinedNames program (records.filter fun r => !Usage.isUnused names r) assigned)
      (checkFile settings "/f.py") session := by
  obtain ⟨records, names, assigned, himports, hnames, hassigned, htells, -⟩ :=
    @missing_by_module settings "/f.py" session program ⟨_, rfl, rfl⟩ (by decide) rfl
  exact ⟨records, names, assigned, himports, hnames, hassigned, htells⟩

end Tools

end ImportAtlas
