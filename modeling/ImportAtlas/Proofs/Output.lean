import ImportAtlas.Proofs.Runs
import ImportAtlas.Tools.Program

/-!
# What computations print

A computation that does nothing but print adds a text to whatever has been printed before, and ends in the same way
wherever it starts. Such computations are put together from one another: their texts are joined, up to the first fault.
A program reads the texts of the paths it is given one after another, and prints what goes with each of them.
-/

namespace ImportAtlas

namespace Session

def after (s : Session) (text : String) : Session := { s with console := s.console.print text }

theorem after_empty (s : Session) : s.after "" = s := by
  simp [after, Console.print]

theorem after_after (s : Session) (a b : String) : (s.after a).after b = s.after (a ++ b) := by
  simp [after, Console.print, String.append_assoc]

def ended {α : Type} (s : Session) : Except Fault α → EStateM.Result Fault Session α
  | .ok a => .ok a s
  | .error fault => .error fault s

end Session

section

variable {α β : Type} {P : Session → Prop}

/-- From every session with the property, the computation prints the text, ends so, and changes nothing else. -/
def Prints (P : Session → Prop) (x : Run α) (text : String) (e : Except Fault α) : Prop :=
  ∀ s, P s → x s = (s.after text).ended e

theorem prints_pure (a : α) : Prints P (pure a) "" (.ok a) := by
  intro s _
  rw [s.after_empty]
  rfl

theorem prints_lift (e : Except Fault α) : Prints P (liftM e) "" e := by
  intro s _
  rw [s.after_empty]
  cases e <;> rfl

theorem prints_print (text : String) : Prints P (Run.print text) text (.ok ()) := fun _ _ => rfl

variable (hP : ∀ s console, P s → P { s with console := console })
include hP

theorem Prints.bind {x : Run α} {f : α → Run β} {text more : String} {a : α} {e : Except Fault β}
    (hx : Prints P x text (.ok a)) (hf : Prints P (f a) more e) : Prints P (x >>= f) (text ++ more) e := by
  intro s hs
  rw [bind_of_ok (hx s hs), ← s.after_after]
  exact hf (s.after text) (hP s _ hs)

omit hP in
theorem Prints.bind_error {x : Run α} {text : String} {fault : Fault} (hx : Prints P x text (.error fault))
    (f : α → Run β) : Prints P (x >>= f) text (.error fault) := by
  intro s hs
  rw [bind_of_error (hx s hs)]
  rfl

theorem prints_forM {f : α → Run Unit} {g : α → String} {xs : List α}
    (h : ∀ x ∈ xs, Prints P (f x) (g x) (.ok ())) : Prints P (xs.forM f) (String.join (xs.map g)) (.ok ()) := by
  induction xs with
  | nil => exact prints_pure ()
  | cons x xs ih =>
    obtain ⟨hx, hxs⟩ := List.forall_mem_cons.1 h
    rw [List.map_cons, String.join_cons]
    exact hx.bind hP (ih hxs)

end

/-! ## Programs that read texts -/

/-- The texts of the paths, in order. A dash stands for the input, which is empty once it has been read. -/
def FileSystem.given (fs : FileSystem) : String → List String → Except Fault (List String)
  | _, [] => .ok []
  | input, path :: rest =>
    if path = "-" then do return input :: (← fs.given "" rest)
    else do return (← fs.read path).text :: (← fs.given input rest)

def readPaths (paths : List String) : List String := if paths.isEmpty then ["-"] else paths

theorem rawText_given {s : Session} {path : String} {rest texts : List String}
    (h : s.files.given s.console.input (path :: rest) = .ok texts) : ∃ text more input, texts = text :: more ∧
      Run.rawText path s = .ok text { s with console := { s.console with input := input } } ∧
      s.files.given input rest = .ok more := by
  rw [FileSystem.given] at h
  unfold Run.rawText
  by_cases hdash : path = "-"
  · rw [if_pos hdash] at h
    obtain ⟨more, hmore, h⟩ := except_bind_inv h
    cases h
    exact ⟨_, more, "", rfl, by rw [if_pos hdash]; rfl, hmore⟩
  · rw [if_neg hdash] at h
    obtain ⟨source, hsource, h⟩ := except_bind_inv h
    obtain ⟨more, hmore, h⟩ := except_bind_inv h
    cases h
    refine ⟨_, more, s.console.input, rfl, ?_, hmore⟩
    rw [if_neg hdash]
    change (liftM (s.files.read path) >>= _ : Run String) s = _
    rw [lift_bind_of_ok hsource]
    rfl

/-- What goes with the texts is printed in their order. -/
theorem forM_given {P : Session → Prop} (hP : ∀ s console, P s → P { s with console := console })
    {use : String → Run Unit} {g : String → String} {paths texts : List String}
    (huse : ∀ text ∈ texts, Prints P (use text) (g text) (.ok ())) {s : Session} (hs : P s)
    (h : s.files.given s.console.input paths = .ok texts) :
    ∃ s', (paths.forM fun path => do use (← Run.rawText path) : Run Unit) s = .ok () s' ∧
      s'.console.out = s.console.out ++ String.join (texts.map g) := by
  induction paths generalizing s texts with
  | nil =>
    cases h
    exact ⟨s, rfl, by simp⟩
  | cons path rest ih =>
    obtain ⟨text, more, input, rfl, hraw, hmore⟩ := rawText_given h
    obtain ⟨htext, hrest⟩ := List.forall_mem_cons.1 huse
    let t : Session := { s with console := { s.console with input := input } }
    have hstep : (do use (← Run.rawText path) : Run Unit) s = .ok () (t.after (g text)) := by
      rw [bind_of_ok hraw]
      exact htext t (hP s _ hs)
    have ht : P (t.after (g text)) := hP s _ hs
    obtain ⟨s', hrun, hout⟩ := ih hrest ht hmore
    refine ⟨s', (bind_of_ok hstep _).trans hrun, ?_⟩
    rw [hout, List.map_cons, String.join_cons, ← String.append_assoc]
    rfl

def noFiles : Session := { files := { root := .emptyDir, cwd := "/" } }

theorem Program.execute_of_ok {program : Program} {arguments : List String} {input : String} {s s' : Session}
    {handover : Option Handover}
    (h : program.run arguments { s with console := { input := input } } = .ok handover s') :
    program.execute arguments input s =
      ({ status := .code 0, fault := none, handover, console := s'.console }, s') := by
  unfold execute
  simp only [h]

theorem Program.execute_of_fault {program : Program} {arguments : List String} {input : String} {s s' : Session}
    {fault : Fault} (h : program.run arguments { s with console := { input := input } } = .error fault s')
    (hfault : ∀ status, fault ≠ .exit status) : program.execute arguments input s =
      ({ status := .code 1, fault := some fault, handover := none, console := s'.console }, s') := by
  unfold execute
  simp only [h]

/-- A program that uses the texts of its paths prints what goes with them, and ends as it should. -/
theorem Program.execute_given {P : Session → Prop} (hP : ∀ s console, P s → P { s with console := console })
    {program : Program} {arguments paths texts : List String} {input : String} {s ready : Session} {tool : Run Unit}
    {use : String → Run Unit} {g : String → String} (hprogram : program.run arguments = (tool >>= fun _ => pure none))
    (htool : tool { s with console := { input := input } } =
      (paths.forM fun path => do use (← Run.rawText path) : Run Unit) ready)
    (huse : ∀ text ∈ texts, Prints P (use text) (g text) (.ok ())) (hready : P ready)
    (hgiven : ready.files.given ready.console.input paths = .ok texts) (hsilent : ready.console.out = "") :
    (program.execute arguments input s).1.status = .code 0 ∧ (program.execute arguments input s).1.fault = none ∧
      (program.execute arguments input s).1.console.out = String.join (texts.map g) := by
  obtain ⟨s', hloop, hout⟩ := forM_given hP huse hready hgiven
  have hrun : program.run arguments { s with console := { input := input } } = .ok none s' := by
    rw [hprogram]
    exact bind_of_ok (htool.trans hloop) _
  rw [execute_of_ok hrun]
  refine ⟨rfl, rfl, hout.trans ?_⟩
  rw [hsilent, String.empty_append]

end ImportAtlas
