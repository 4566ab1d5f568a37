import ImportAtlas.Proofs.ListedImports
import ImportAtlas.Proofs.Output

/-!
# Statements that are printed with their imports

With an import the lines of its statement are printed: those that end in a backslash, and the first one after them that
does not. The last letter of every line is looked at, and a blank line has none. So a statement is printed to its end
in any case, but where a backslash is followed by a blank line the listing ends with a fault there.
-/

namespace ImportAtlas

namespace Tools

def continues (line : String) : Bool := line.toList.getLast? == some '\\'

/-- The first lines that go on, and the one after them. -/
def firstStatement (lines : List String) : List String :=
  lines.takeWhile continues ++ (lines.dropWhile continues).take 1

/-- The first line that does not go on is blank. -/
def stopsBlank (lines : List String) : Bool := (lines.dropWhile continues).head? == some ""

def linesFrom (lines : List String) (n : Nat) : List String := (lines.drop (n - 1)).map Text.trimRight

def statementText (lines : List String) : String :=
  String.join ((firstStatement lines).map fun line => "   " ++ line ++ "\n")

theorem statementText_of_continues {line : String} (h : continues line = true) (rest : List String) :
    statementText (line :: rest) = "   " ++ line ++ "\n" ++ statementText rest ∧
      stopsBlank (line :: rest) = stopsBlank rest := by
  simp [statementText, firstStatement, stopsBlank, h]

theorem statementText_of_ends {line : String} (h : continues line = false) (rest : List String) :
    statementText (line :: rest) = "   " ++ line ++ "\n" ∧ stopsBlank (line :: rest) = (line == "") := by
  simp [statementText, firstStatement, stopsBlank, h]

theorem atPlace_append (front : List String) (line : String) (rest : List String) :
    atPlace (front ++ line :: rest) front.length = .ok line := by
  have hplace : ¬ (front.length : Int) < 0 := by omega
  simp [atPlace, hplace]

section

variable {P : Session → Prop} (hP : ∀ s console, P s → P { s with console := console })
include hP

/-- The loop prints one statement, whatever stands before it. -/
theorem prints_printStatement (front rest : List String) :
    Prints P (printStatement (front ++ rest) rest.length front.length) (statementText (rest.map Text.trimRight))
      (if stopsBlank (rest.map Text.trimRight) then .error .outOfRange else .ok ()) := by
  induction rest generalizing front with
  | nil => exact prints_pure ()
  | cons line rest ih =>
    have hlift : (liftM (Except.ok line : Except Fault String) : Run String) = pure line := rfl
    have hprint : Prints P (Run.printLine ("   " ++ Text.trimRight line)) ("   " ++ Text.trimRight line ++ "\n")
      (.ok ()) := prints_print _
    rw [List.length_cons, printStatement, atPlace_append, hlift, pure_bind, List.map_cons]
    cases hlast : (Text.trimRight line).toList.getLast? with
    | none =>
      have hends : continues (Text.trimRight line) = false := by simp [continues, hlast]
      have hblank : Text.trimRight line = "" := by simpa using hlast
      have hthrow : Prints P (throw .outOfRange : Run Unit) "" (.error .outOfRange) := prints_lift (.error .outOfRange)
      obtain ⟨htext, hstop⟩ := statementText_of_ends hends (rest.map Text.trimRight)
      rw [htext, hstop, if_pos (by simp [hblank]), ← String.append_empty (s := "   " ++ _ ++ "\n")]
      apply hprint.bind hP
      rw [hlast]
      exact hthrow
    | some c =>
      by_cases hc : c = '\\'
      · have hgoes : continues (Text.trimRight line) = true := by simp [continues, hlast, hc]
        obtain ⟨htext, hstop⟩ := statementText_of_continues hgoes (rest.map Text.trimRight)
        have hnext := ih (front ++ [line])
        rw [List.append_assoc, List.length_append] at hnext
        rw [htext, hstop]
        apply hprint.bind hP
        rw [hlast]
        dsimp only
        rw [if_pos hc]
        exact hnext
      · have hends : continues (Text.trimRight line) = false := by simp [continues, hlast, hc]
        have hline : ¬ (Text.trimRight line == "") = true := by
          intro hblank
          simp [beq_iff_eq.1 hblank] at hlast
        obtain ⟨htext, hstop⟩ := statementText_of_ends hends (rest.map Text.trimRight)
        rw [htext, hstop, if_neg hline, ← String.append_empty (s := "   " ++ _ ++ "\n")]
        apply hprint.bind hP
        rw [hlast]
        dsimp only
        rw [if_neg hc]
        exact prints_pure ()

end

end Tools

/-! ## Imports with their statements -/

namespace Listed

def number (i : Listed) : Nat := (i.line.integer?.getD 0).toNat

def InLines (i : Listed) (lines : List String) : Prop :=
  i.line.integer? = some (i.number : Int) ∧ 1 ≤ i.number ∧ i.number ≤ lines.length

def heading (i : Listed) (path : String) : String := path ++ ":" ++ toString (i.number : Int) ++ ": " ++ i.name ++ "\n"

def shown (i : Listed) (path : String) (lines : List String) : String :=
  i.heading path ++ Tools.statementText (Tools.linesFrom lines i.number)

def stopsBlank (i : Listed) (lines : List String) : Bool := Tools.stopsBlank (Tools.linesFrom lines i.number)

end Listed

theorem Value.lineNumber_of_integer {v : Value} {n : Int} (h : v.integer? = some n) :
    v.lineNumber = .ok (toString n) := by
  unfold lineNumber
  rw [h]

namespace Tools

section

variable {P : Session → Prop} (hP : ∀ s console, P s → P { s with console := console })
  {path : String} {lines : List String} {i : ImportAtlas.Listed} (hi : i.InLines lines)
include hP hi

theorem prints_printStatement_from :
    Prints P (printStatement lines (lines.length - ((i.number : Int) - 1)).toNat ((i.number : Int) - 1))
      (statementText (linesFrom lines i.number)) (if i.stopsBlank lines then .error .outOfRange else .ok ()) := by
  obtain ⟨_, hpos, hlast⟩ := hi
  have hcount : (lines.length - ((i.number : Int) - 1)).toNat = (lines.drop (i.number - 1)).length := by
    rw [List.length_drop]
    omega
  have hplace : (i.number : Int) - 1 = ((lines.take (i.number - 1)).length : Int) := by
    rw [List.length_take]
    omega
  have hrun := prints_printStatement hP (lines.take (i.number - 1)) (lines.drop (i.number - 1))
  rw [List.take_append_drop] at hrun
  rw [hcount, hplace]
  exact hrun

/-- The import is shown with its statement. If that stops in a blank line, nothing comes after it. -/
theorem prints_printImport (path : String) : Prints P (printImport path (some lines) i)
    (i.shown path lines ++ if i.stopsBlank lines then "" else "\n")
    (if i.stopsBlank lines then .error .outOfRange else .ok ()) := by
  have hlift : (liftM (Except.ok (toString (i.number : Int)) : Except Fault String) : Run String) = pure _ := rfl
  have hheading : Prints P (Run.printLine (path ++ ":" ++ toString (i.number : Int) ++ ": " ++ i.name)) (i.heading path)
    (.ok ()) := prints_print _
  have hstatement := prints_printStatement_from hP hi
  rw [ImportAtlas.Listed.shown, String.append_assoc]
  unfold printImport
  rw [Value.lineNumber_of_integer hi.1, hlift, pure_bind, hi.1]
  apply hheading.bind hP
  by_cases hstop : i.stopsBlank lines = true
  · simp only [hstop, if_true, String.append_empty] at hstatement ⊢
    exact hstatement.bind_error _
  · simp only [hstop, if_false, Bool.false_eq_true] at hstatement ⊢
    exact hstatement.bind hP (prints_print _)

end

end Tools

/-! ## All imports of a file -/

/-- What is printed if things are used one after another, up to the first fault, and how that ends. -/
inductive Uses {α : Type} (P : Session → Prop) (use : α → Run Unit) : List α → String → Except Fault Unit → Prop
  | nil : Uses P use [] "" (.ok ())
  | cons {x : α} {rest : List α} {text more : String} {e : Except Fault Unit} :
    Prints P (use x) text (.ok ()) → Uses P use rest more e → Uses P use (x :: rest) (text ++ more) e
  | stop {x : α} {rest : List α} {text : String} {fault : Fault} :
    Prints P (use x) text (.error fault) → Uses P use (x :: rest) text (.error fault)

theorem uses_append {α : Type} {P : Session → Prop} {use : α → Run Unit} {g : α → String} {before rest : List α}
    {text : String} {e : Except Fault Unit} (hbefore : ∀ x ∈ before, Prints P (use x) (g x) (.ok ()))
    (hrest : Uses P use rest text e) : Uses P use (before ++ rest) (String.join (before.map g) ++ text) e := by
  induction before with
  | nil => simpa using hrest
  | cons x before ih =>
    obtain ⟨hx, hbefore⟩ := List.forall_mem_cons.1 hbefore
    rw [List.cons_append, List.map_cons, String.join_cons, String.append_assoc]
    exact .cons hx (ih hbefore)

namespace Session

/-- Nothing but the console is different. -/
def Apart (s u : Session) : Prop := { s with console := u.console } = u

variable {s u : Session} {ignores : Ignores} {path : String} {records : List ImportRecord}
  {es : List (Except String Listed)}

theorem Apart.console (h : s.Apart u) (console : Console) : s.Apart { u with console := console } := by
  unfold Apart at h ⊢
  rw [← h]

def useNext (path : String) (ignores : Ignores) (use : Listed → Run Unit) (known : Option String) (r : ImportRecord) :
    Run (Option String) := do
  let (root, i) ← Run.listImport path ignores known r
  i.toList.forM use
  return root

theorem listImport_apart {known : Option String} (hknown : s.Remembers ignores path known) (hu : s.Apart u)
    {r : ImportRecord} {e : Except String Listed} (hr : s.listing ignores path r = .ok e) :
    ∃ known', s.Remembers ignores path known' ∧
      Run.listImport path ignores known r u = .ok (known', e.toOption) (u.reported e) := by
  unfold Apart at hu
  generalize u.console = console at hu
  subst hu
  have hknown : ({ s with console := console } : Session).Remembers ignores path known := hknown
  obtain ⟨known', hknown', hrun⟩ := listImport_ends hknown (quiet_equivalence.refl _) r
  have hr' : ({ s with console := console } : Session).listing ignores path r = .ok e := hr
  rw [hr'] at hrun
  exact ⟨known', hknown', hrun⟩

/-- Using the imports while they are named prints what using all their names would. -/
theorem listing_uses {use : Listed → Run Unit} (hes : s.Listings ignores path records es) {text : String}
    {e : Except Fault Unit} (huses : Uses s.Apart use (es.filterMap Except.toOption) text e) {known : Option String}
    (hknown : s.Remembers ignores path known) (hu : s.Apart u) :
    ∃ (known' : Option String) (u' : Session),
      records.foldlM (useNext path ignores use) known u = u'.ended (e.map fun _ => known') ∧
      u'.console.out = u.console.out ++ text := by
  induction hes generalizing text e known u with
  | nil =>
    cases huses
    exact ⟨known, u, rfl, by simp⟩
  | @cons r entry rest es hr hrest ih =>
    obtain ⟨known', hknown', hlist⟩ := listImport_apart hknown hu hr
    rw [List.foldlM_cons]
    cases entry with
    | error complaint =>
      have hstep : useNext path ignores use known r u = .ok known' (u.reported (.error complaint)) := by
        unfold useNext
        rw [bind_of_ok hlist]
        rfl
      rw [bind_of_ok hstep]
      exact ih huses hknown' (hu.console _)
    | ok i =>
      have hone : useNext path ignores use known r u = ([i].forM use >>= fun _ => pure known') u := by
        unfold useNext
        rw [bind_of_ok hlist]
        rfl
      cases huses with
      | @cons _ _ text more _ hi hmore =>
        have hforM : [i].forM use u = .ok () (u.after text) := bind_of_ok (hi u hu) _
        rw [bind_of_ok hforM] at hone
        rw [bind_of_ok hone]
        obtain ⟨last, u', hloop, hout⟩ := ih hmore hknown' (hu.console (u.after text).console)
        refine ⟨last, u', hloop, hout.trans ?_⟩
        exact String.append_assoc
      | @stop _ _ text fault hi =>
        have hforM : [i].forM use u = .error fault (u.after text) := bind_of_error (hi u hu) _
        rw [bind_of_error hforM] at hone
        rw [bind_of_error hone]
        exact ⟨known', u.after text, rfl, rfl⟩

theorem listImports_uses {source : Source} {t : Tree} (hread : s.files.read path = .ok source)
    (hparse : source.parse = .tree t) (himports : t.imports = .ok records) {use : Listed → Run Unit}
    (hes : s.Listings ignores path records es) {text : String} {e : Except Fault Unit}
    (huses : Uses s.Apart use (es.filterMap Except.toOption) text e) (hu : s.Apart u) :
    ∃ u' : Session, Run.listImports path ignores use u = u'.ended e ∧ u'.console.out = u.console.out ++ text := by
  have hfiles : u.files.read path = .ok source := by
    rw [← hu]
    exact hread
  have hnone : s.Remembers ignores path none := fun _ h => by cases h
  obtain ⟨known, u', hloop, hout⟩ := listing_uses hes huses hnone hu
  refine ⟨u', ?_, hout⟩
  refine (bind_of_ok (Run.readSource_eq hfiles hparse) _).trans ((lift_bind_of_ok himports _ u).trans ?_)
  cases e with
  | ok _ => exact bind_of_ok hloop _
  | error fault => exact bind_of_error hloop _

end Session

namespace Tools

open Session

def linesOf (source : Source) : List String := Text.feedLines (Text.unifyNewlines source.text)

def searchedIn (paths : List String) : List String := if paths.isEmpty then ["."] else paths

def announce (settings : ListSettings) (paths : List String) : Run Unit := do
  let _ ← Run.chooseLoudness settings.verbosity
  if paths.isEmpty then Run.message .warning "Searching for files from root directory."

def listFile (settings : ListSettings) (path : String) : Run Unit := do
  let lines ← if settings.verbosity ≠ 0 then some <$> Run.feedLines path else pure none
  Run.listImports path (.names settings.ignores) (printImport path lines)

section

variable {arguments paths : List String} {settings : ListSettings} {s u : Session}

theorem listImports_steps (hoptions : Options.read listFlags arguments { ignores := s.ignores } = .ok paths settings)
    (hplaces : settings.unified = false) :
    listImports arguments s = (announce settings paths >>= fun _ => Run.files >>= fun fs =>
      Run.eachFile (fs.pythonFiles settings.ignores (searchedIn paths)) (listFile settings))
        { s with ignores := settings.ignores } := by
  have hread : Run.options listManual listFlags { ignores := s.ignores }
      (fun settings s => { s with ignores := settings.ignores }) arguments s =
        .ok (settings, paths) { s with ignores := settings.ignores } := by
    unfold Run.options
    rw [hoptions]
    rfl
  unfold listImports announce
  rw [bind_of_ok (Run.get_eq s)]
  dsimp only
  rw [bind_of_ok hread, bind_assoc]
  simp only [hplaces]
  cases paths with
  | nil => rfl
  | cons path paths => rfl

theorem announce_apart (paths : List String) {level : Level}
    (hlevel : Level.ofVerbosity settings.verbosity = some level) (u : Session) :
    ∃ u' : Session, announce settings paths u = .ok () u' ∧ u.Apart u' ∧ u'.console.out = u.console.out := by
  have hloud : Run.chooseLoudness settings.verbosity u =
      .ok level { u with console := { u.console with style := .columns level } } := by
    unfold Run.chooseLoudness
    rw [hlevel]
    rfl
  unfold announce
  rw [bind_of_ok hloud]
  by_cases hpaths : paths.isEmpty = true
  · simp only [hpaths, if_true]
    exact ⟨_, rfl, rfl, rfl⟩
  · simp only [hpaths]
    exact ⟨_, rfl, rfl, rfl⟩

end

section

variable {arguments paths : List String} {settings : ListSettings} {level : Level} {s : Session} {path : String}
  {source : Source} {t : Tree} {records : List ImportRecord} {es : List (Except String ImportAtlas.Listed)}

theorem listFile_uses (hverbose : settings.verbosity ≠ 0) (hread : s.files.read path = .ok source)
    (hparse : source.parse = .tree t) (himports : t.imports = .ok records)
    (hes : s.Listings (.names settings.ignores) path records es) {text : String} {e : Except Fault Unit}
    (huses : Uses s.Apart (printImport path (some (linesOf source))) (es.filterMap Except.toOption) text e)
    {u : Session} (hu : s.Apart u) :
    ∃ u' : Session, listFile settings path u = u'.ended e ∧ u'.console.out = u.console.out ++ text := by
  have hlines : Run.feedLines path u = .ok (linesOf source) u := by
    have htext : Run.text path u = .ok (Text.unifyNewlines source.text) u := by
      unfold Run.text
      rw [bind_of_ok (Run.files_eq u), ← hu]
      exact lift_bind_of_ok hread _ _
    unfold Run.feedLines
    rw [bind_of_ok htext]
    rfl
  have hsome : (some <$> Run.feedLines path : Run (Option (List String))) u = .ok (some (linesOf source)) u := by
    rw [map_eq_pure_bind, bind_of_ok hlines]
    rfl
  obtain ⟨u', hrun, hout⟩ := listImports_uses hread hparse himports hes huses hu
  refine ⟨u', ?_, hout⟩
  unfold listFile
  simp only [hverbose, ne_eq, not_false_eq_true, if_true]
  rw [bind_of_ok hsome]
  exact hrun

end

structure ShowsFile (arguments : List String) (s : Session) (settings : ListSettings) (path : String) (source : Source)
    (es : List (Except String ImportAtlas.Listed)) : Prop where
  options : ∃ paths, Options.read listFlags arguments { ignores := s.ignores } = .ok paths settings ∧
    s.files.pythonFiles settings.ignores (searchedIn paths) = [.file path]
  places : settings.unified = false
  verbose : settings.verbosity ≠ 0
  loud : ∃ level, Level.ofVerbosity settings.verbosity = some level
  read : s.files.read path = .ok source
  listings : ∃ t records, source.parse = .tree t ∧ t.imports = .ok records ∧
    s.Listings (.names settings.ignores) path records es

section

variable {arguments : List String} {settings : ListSettings} {s : Session} {path : String} {source : Source}
  {es : List (Except String ImportAtlas.Listed)} (h : ShowsFile arguments s settings path source es)
include h

/-- The program shows the imports of a file, up to a fault. -/
theorem run_listImports (input : String) ⦃text : String⦄ ⦃e : Except Fault Unit⦄
    (huses : Uses ({ s with ignores := settings.ignores } : Session).Apart (printImport path (some (linesOf source)))
      (es.filterMap Except.toOption) text e) :
    ∃ s' : Session, Program.listImports.run arguments { s with console := { input := input } } =
      s'.ended (e.map fun _ => none) ∧ s'.console.out = text := by
  let kept : Session := { s with ignores := settings.ignores }
  let start : Session := { s with console := { input := input } }
  obtain ⟨paths, hoptions, hfound⟩ := h.options
  obtain ⟨level, hlevel⟩ := h.loud
  obtain ⟨t, records, hparse, himports, hes⟩ := h.listings
  obtain ⟨u, hannounce, hu, hsilent⟩ := announce_apart paths hlevel { kept with console := { input := input } }
  have hapart : kept.Apart u := hu
  obtain ⟨s', hfile, hout⟩ := listFile_uses (s := kept) h.verbose h.read hparse himports hes huses hapart
  have hfiles : u.files = s.files := by rw [← hapart]
  have htool : listImports arguments start = s'.ended e := by
    rw [listImports_steps (s := start) hoptions h.places, bind_of_ok hannounce,
      bind_of_ok (Run.files_eq u), hfiles, hfound]
    cases e with
    | ok _ => exact bind_of_ok hfile _
    | error fault => exact bind_of_error hfile _
  refine ⟨s', ?_, ?_⟩
  · cases e with
    | ok _ => exact bind_of_ok htool _
    | error fault => exact bind_of_error htool _
  · rw [hout, hsilent]
    exact String.empty_append

end

/-- **Statements are printed up to a blank line.** Every import is shown with its statement: the lines from its own one
on, without blanks at their ends, up to the first that does not end in a backslash. If that line is blank, the loop ends
with a fault after it. The program shows the imports of a file in their order, all of them if no statement stops in a
blank line, and else up to the first one that does. -/
theorem statements_up_to_blank (path : String) :
    (∀ (lines : List String) (i : ImportAtlas.Listed), i.InLines lines →
      Prints (fun _ => True) (printImport path (some lines) i)
        (i.shown path lines ++ if i.stopsBlank lines then "" else "\n")
        (if i.stopsBlank lines then .error .outOfRange else .ok ())) ∧
    ∀ (arguments : List String) (s : Session) (settings : ListSettings) (source : Source)
        (es : List (Except String ImportAtlas.Listed)) (input : String),
      ShowsFile arguments s settings path source es →
      (∀ i ∈ es.filterMap Except.toOption, i.InLines (linesOf source)) →
      ((∀ i ∈ es.filterMap Except.toOption, i.stopsBlank (linesOf source) = false) →
        (Program.listImports.execute arguments input s).1.status = .code 0 ∧
        (Program.listImports.execute arguments input s).1.fault = none ∧
        (Program.listImports.execute arguments input s).1.console.out =
          String.join ((es.filterMap Except.toOption).map fun i => i.shown path (linesOf source) ++ "\n")) ∧
      ∀ before i after, es.filterMap Except.toOption = before ++ i :: after →
        (∀ j ∈ before, j.stopsBlank (linesOf source) = false) → i.stopsBlank (linesOf source) = true →
        (Program.listImports.execute arguments input s).1.status = .code 1 ∧
        (Program.listImports.execute arguments input s).1.fault = some .outOfRange ∧
        (Program.listImports.execute arguments input s).1.console.out =
          String.join (before.map fun i => i.shown path (linesOf source) ++ "\n") ++
            i.shown path (linesOf source) := by
  refine ⟨fun lines i hi => prints_printImport (fun _ _ _ => trivial) hi path, ?_⟩
  intro arguments s settings source es input h hlines
  let kept : Session := { s with ignores := settings.ignores }
  have hkept : ∀ u console, kept.Apart u → kept.Apart { u with console := console } := by
    intro u console hu
    exact hu.console console
  have hgood : ∀ i, i.InLines (linesOf source) → i.stopsBlank (linesOf source) = false →
      Prints kept.Apart (printImport path (some (linesOf source)) i) (i.shown path (linesOf source) ++ "\n")
        (.ok ()) := by
    intro i hi hstop
    have hprints := prints_printImport hkept hi path
    rw [hstop] at hprints
    exact hprints
  have hrun := run_listImports h input
  constructor
  · intro hall
    have huses := uses_append (fun i hi => hgood i (hlines i hi) (hall i hi)) Uses.nil
    rw [List.append_nil, String.append_empty] at huses
    obtain ⟨s', hok, hout⟩ := hrun huses
    rw [Program.execute_of_ok hok]
    exact ⟨rfl, rfl, hout⟩
  · intro before i after hsplit hbefore hstop
    rw [hsplit] at hlines hrun
    have hi : i.InLines (linesOf source) := hlines i (by simp)
    have hlast := prints_printImport hkept hi path
    simp only [hstop, if_true, String.append_empty] at hlast
    have hrest : Uses kept.Apart _ (i :: after) _ _ := .stop hlast
    have huses := uses_append (fun j hj => hgood j (hlines j (by simp [hj])) (hbefore j hj)) hrest
    obtain ⟨s', hfault, hout⟩ := hrun huses
    rw [Program.execute_of_fault hfault (fun _ h => by cases h)]
    exact ⟨rfl, rfl, hout⟩

/-! ## A blank line after a backslash -/

def goingOnSource : Source where
  text := "import os \\\n\n"
  parse := .tree (importsOnly [plainImport 1 "os"])

/-- A file with one import, the line of which goes on in a blank line. -/
def goingOn : Session where
  files := { root := .dir [("m.py", .file goingOnSource)], cwd := "/" }

theorem blank_line_fault :
    (Program.listImports.execute ["-v", "m.py"] "" goingOn).1.fault = some .outOfRange ∧
      (Program.listImports.execute ["-v", "m.py"] "" goingOn).1.console.out =
        "/m.py:1: os\n   import os \\\n   \n" := by
  decide +kernel

theorem goingOn_listed : ∃ listed s', Run.listedImports "/m.py" (.names defaultIgnores) goingOn = .ok listed s' ∧
    listed.map (fun i => (i.name, i.line.integer?)) = [("os", some 1)] :=
  exists_of_run' (by decide +kernel)

theorem statements_up_to_blank_goingOn : ∃ records es,
    (importsOnly [plainImport 1 "os"]).imports = .ok records ∧
    goingOn.Listings (.names defaultIgnores) "/m.py" records es ∧
    (∀ i ∈ es.filterMap Except.toOption, i.InLines (linesOf goingOnSource)) ∧
    (Program.listImports.execute ["-v", "m.py"] "" goingOn).1.fault = some .outOfRange := by
  have hoptions : Options.read listFlags ["-v", "m.py"] { ignores := goingOn.ignores } =
      .ok ["m.py"] { ignores := defaultIgnores, verbosity := 1 } := rfl
  have hfound : goingOn.files.pythonFiles defaultIgnores (searchedIn ["m.py"]) = [.file "/m.py"] := by decide +kernel
  obtain ⟨listed, s', hrun, hlisted⟩ := goingOn_listed
  obtain ⟨records, himports⟩ : ∃ records, (importsOnly [plainImport 1 "os"]).imports = .ok records := ⟨_, rfl⟩
  obtain ⟨es, hes, rfl, _⟩ := listings_of_listedImports rfl rfl himports hrun
  obtain ⟨i, hone, hi⟩ := List.map_eq_singleton_iff.1 hlisted
  have hline : i.line.integer? = some 1 := (Prod.mk.inj hi).2
  have hnumber : i.number = 1 := by
    unfold ImportAtlas.Listed.number
    rw [hline]
    rfl
  have hlines : ∀ j ∈ es.filterMap Except.toOption, j.InLines (linesOf goingOnSource) := by
    intro j hj
    rw [hone, List.mem_singleton] at hj
    rw [hj, ImportAtlas.Listed.InLines, hnumber]
    exact ⟨hline, by decide, by decide +kernel⟩
  have hstop : i.stopsBlank (linesOf goingOnSource) = true := by
    rw [ImportAtlas.Listed.stopsBlank, hnumber]
    decide +kernel
  have hshows : ShowsFile ["-v", "m.py"] goingOn { ignores := defaultIgnores, verbosity := 1 } "/m.py"
      goingOnSource es :=
    ⟨⟨_, hoptions, hfound⟩, rfl, by decide, ⟨_, rfl⟩, rfl, _, records, rfl, himports, hes⟩
  obtain ⟨_, hblank⟩ := (statements_up_to_blank "/m.py").2 _ _ _ _ es "" hshows hlines
  obtain ⟨_, hfault, _⟩ := hblank [] i [] hone (by simp) hstop
  exact ⟨records, es, himports, hes, hlines, hfault⟩

end Tools

end ImportAtlas
