import ImportAtlas.Proofs.DependencyTable
import ImportAtlas.Proofs.Output

/-!
# Names in drawings

A drawing has one statement for each dependency, with the names of files between quotes. Who reads it takes a name to
end at the next quote that no backslash stands before, and a backslash before a quote to stand for the quote alone. The
names are written as they are, so they are read back if and only if none has a quote in it or a backslash at its end.
-/

namespace ImportAtlas

namespace Drawing

/-! ## Reading names -/

/-- The characters up to the next quote without a backslash before it, and what stands after that quote. -/
def readName : List Char → Option (List Char × List Char)
  | [] => none
  | '"' :: rest => some ([], rest)
  | '\\' :: '"' :: rest => (readName rest).map fun p => ('"' :: p.1, p.2)
  | c :: rest => (readName rest).map fun p => (c :: p.1, p.2)

/-- Nothing in the name has a meaning of its own between quotes. -/
def Plain (name : String) : Prop := '"' ∉ name.toList ∧ name.toList.getLast? ≠ some '\\'

instance (name : String) : Decidable (Plain name) := inferInstanceAs (Decidable (_ ∧ _))

theorem readName_other {c : Char} {cs : List Char} (hquote : c ≠ '"') (hescape : c = '\\' → cs.head? ≠ some '"') :
    readName (c :: cs) = (readName cs).map fun p => (c :: p.1, p.2) := by
  apply readName.eq_4
  · exact hquote
  · intro rest hc hcs
    apply hescape hc
    rw [hcs]
    rfl

theorem readName_lt {cs name rest : List Char} (h : readName cs = some (name, rest)) : rest.length < cs.length := by
  induction cs using readName.induct generalizing name with
  | case1 => cases h
  | case2 tail =>
    cases h
    simp
  | case3 tail ih =>
    obtain ⟨p, hp, hname⟩ := Option.map_eq_some_iff.1 h
    cases hname
    have := ih hp
    simp only [List.length_cons]
    omega
  | case4 c tail hquote hescape ih =>
    rw [readName.eq_4 c tail hquote hescape] at h
    obtain ⟨p, hp, hname⟩ := Option.map_eq_some_iff.1 h
    cases hname
    exact (ih hp).trans (Nat.lt_succ_self _)

/-- A character is read as itself unless it is a quote, or a backslash before one. -/
theorem readName_cons_iff {c : Char} {cs name rest : List Char} : readName (c :: cs) = some (c :: name, rest) ↔
    (c ≠ '"' ∧ (c = '\\' → cs.head? ≠ some '"')) ∧ readName cs = some (name, rest) := by
  by_cases hquote : c = '"'
  · subst hquote
    simp [readName]
  · by_cases hescape : c = '\\' → cs.head? ≠ some '"'
    · rw [readName_other hquote hescape, and_iff_right ⟨hquote, hescape⟩]
      simp
    · push Not at hescape
      obtain ⟨rfl, hhead⟩ := hescape
      obtain ⟨tail, rfl⟩ := List.head?_eq_some_iff.1 hhead
      simp [readName]

theorem readName_append_iff {name rest rest' : List Char} : readName (name ++ '"' :: rest) = some (name, rest') ↔
    ('"' ∉ name ∧ name.getLast? ≠ some '\\') ∧ rest' = rest := by
  induction name with
  | nil => simp [readName, eq_comm]
  | cons c name ih =>
    rw [List.cons_append, readName_cons_iff, ih]
    cases name with
    | nil => simp [eq_comm]
    | cons d name =>
      rw [List.getLast?_cons_cons, List.mem_cons (b := c), not_or]
      simp only [List.cons_append, List.head?_cons, List.mem_cons, not_or]
      grind

def readQuoted : List Char → Option (String × List Char)
  | '"' :: cs => (readName cs).map fun p => (String.ofList p.1, p.2)
  | _ => none

theorem readQuoted_lt {cs rest : List Char} {name : String} (h : readQuoted cs = some (name, rest)) :
    rest.length < cs.length := by
  unfold readQuoted at h
  split at h
  · obtain ⟨p, hp, hname⟩ := Option.map_eq_some_iff.1 h
    cases hname
    exact (readName_lt hp).trans (Nat.lt_succ_self _)
  · cases h

theorem readQuoted_iff {name : String} {rest rest' : List Char} :
    readQuoted ('"' :: (name.toList ++ '"' :: rest)) = some (name, rest') ↔ Plain name ∧ rest' = rest := by
  unfold Plain
  rw [← readName_append_iff, readQuoted, Option.map_eq_some_iff]
  constructor
  · rintro ⟨p, hp, hname⟩
    cases hname
    simpa using hp
  · intro h
    exact ⟨_, h, by simp⟩

/-! ## Reading statements -/

inductive Shown
  | node (name : String)
  | arrow (source target : String)
  deriving DecidableEq

namespace Shown

def names : Shown → List String
  | node name => [name]
  | arrow source target => [source, target]

def source : Shown → String
  | node name => name
  | arrow source _ => source

def written : Shown → String
  | node name => "\"" ++ name ++ "\"  [style=filled];\n"
  | arrow source target => "\"" ++ source ++ "\" -> \"" ++ target ++ "\";\n"

end Shown

def readTail (source : String) (cs : List Char) : Option (Shown × List Char) :=
  match cs.dropPrefix? "  [style=filled];\n".toList with
  | some rest => some (.node source, rest)
  | none => do
    let (target, cs) ← readQuoted (← cs.dropPrefix? " -> ".toList)
    let rest ← cs.dropPrefix? ";\n".toList
    return (.arrow source target, rest)

def readShown (cs : List Char) : Option (Shown × List Char) := do
  let (source, cs) ← readQuoted cs
  readTail source cs

theorem dropPrefix?_le {cs start rest : List Char} (h : cs.dropPrefix? start = some rest) :
    rest.length ≤ cs.length := by
  obtain ⟨start', rfl, _⟩ := List.dropPrefix?_eq_some_iff.1 h
  simp

theorem readTail_inv {source : String} {cs rest : List Char} {x : Shown} (h : readTail source cs = some (x, rest)) :
    x.source = source ∧ rest.length ≤ cs.length := by
  unfold readTail at h
  split at h
  · rename_i hfilled
    cases h
    exact ⟨rfl, dropPrefix?_le hfilled⟩
  · obtain ⟨ds, hds, h⟩ := Option.bind_eq_some_iff.1 h
    obtain ⟨p, hp, h⟩ := Option.bind_eq_some_iff.1 h
    obtain ⟨es, hes, h⟩ := Option.bind_eq_some_iff.1 h
    cases h
    have := dropPrefix?_le hds
    have := readQuoted_lt hp
    have := dropPrefix?_le hes
    exact ⟨rfl, by omega⟩

theorem readTail_node (source : String) (rest : List Char) :
    readTail source ("  [style=filled];\n".toList ++ rest) = some (.node source, rest) := by
  unfold readTail
  rw [List.dropPrefix?_append_of_beq _ (beq_self_eq_true _)]

theorem readTail_arrow_iff {source target : String} {rest rest' : List Char} :
    readTail source (" -> ".toList ++ '"' :: (target.toList ++ '"' :: (";\n".toList ++ rest))) =
      some (.arrow source target, rest') ↔ Plain target ∧ rest' = rest := by
  have hnode : ∀ cs : List Char, (" -> ".toList ++ cs).dropPrefix? "  [style=filled];\n".toList = none := fun _ => rfl
  unfold readTail
  rw [hnode, List.dropPrefix?_append_of_beq _ (beq_self_eq_true _)]
  simp only [Option.bind_eq_bind, Option.bind_some]
  constructor
  · intro h
    obtain ⟨p, hp, h⟩ := Option.bind_eq_some_iff.1 h
    obtain ⟨rest'', hrest, h⟩ := Option.bind_eq_some_iff.1 h
    cases h
    obtain ⟨hplain, hp⟩ := readQuoted_iff.1 hp
    rw [hp, List.dropPrefix?_append_of_beq _ (beq_self_eq_true _)] at hrest
    exact ⟨hplain, (Option.some.inj hrest).symm⟩
  · rintro ⟨hplain, rfl⟩
    apply Option.bind_eq_some_iff.2
    refine ⟨_, readQuoted_iff.2 ⟨hplain, rfl⟩, ?_⟩
    rw [List.dropPrefix?_append_of_beq _ (beq_self_eq_true _)]
    rfl

theorem readShown_eq_some_iff {cs rest : List Char} {x : Shown} : readShown cs = some (x, rest) ↔
    ∃ cs', readQuoted cs = some (x.source, cs') ∧ readTail x.source cs' = some (x, rest) := by
  unfold readShown
  rw [Option.bind_eq_bind, Option.bind_eq_some_iff]
  constructor
  · rintro ⟨p, hp, h⟩
    obtain ⟨hsource, _⟩ := readTail_inv h
    rw [hsource]
    exact ⟨p.2, hp, h⟩
  · rintro ⟨cs', hcs, h⟩
    exact ⟨_, hcs, h⟩

theorem readShown_lt {cs rest : List Char} {x : Shown} (h : readShown cs = some (x, rest)) :
    rest.length < cs.length := by
  obtain ⟨cs', hcs, h⟩ := readShown_eq_some_iff.1 h
  exact (readTail_inv h).2.trans_lt (readQuoted_lt hcs)

/-- A statement is read as what it shows if and only if its names are plain. -/
theorem readShown_written_iff {x : Shown} {rest rest' : List Char} :
    readShown (x.written.toList ++ rest) = some (x, rest') ↔ (∀ name ∈ x.names, Plain name) ∧ rest' = rest := by
  rw [readShown_eq_some_iff]
  cases x with
  | node name =>
    have hwritten : (Shown.node name).written.toList ++ rest =
        '"' :: (name.toList ++ '"' :: ("  [style=filled];\n".toList ++ rest)) := by
      simp [Shown.written]
    rw [hwritten]
    constructor
    · rintro ⟨cs', hcs, h⟩
      obtain ⟨hplain, rfl⟩ := readQuoted_iff.1 hcs
      rw [readTail_node] at h
      cases h
      exact ⟨List.forall_mem_singleton.2 hplain, rfl⟩
    · rintro ⟨hplain, rfl⟩
      exact ⟨_, readQuoted_iff.2 ⟨List.forall_mem_singleton.1 hplain, rfl⟩, readTail_node _ _⟩
  | arrow source target =>
    have hwritten : (Shown.arrow source target).written.toList ++ rest = '"' :: (source.toList ++
        '"' :: (" -> ".toList ++ '"' :: (target.toList ++ '"' :: (";\n".toList ++ rest)))) := by
      simp [Shown.written]
    rw [hwritten]
    constructor
    · rintro ⟨cs', hcs, h⟩
      obtain ⟨hsource, rfl⟩ := readQuoted_iff.1 hcs
      obtain ⟨htarget, hrest⟩ := readTail_arrow_iff.1 h
      exact ⟨List.forall_mem_cons.2 ⟨hsource, List.forall_mem_singleton.2 htarget⟩, hrest⟩
    · rintro ⟨hplain, hrest⟩
      obtain ⟨hsource, htarget⟩ := List.forall_mem_cons.1 hplain
      exact ⟨_, readQuoted_iff.2 ⟨hsource, rfl⟩,
        readTail_arrow_iff.2 ⟨List.forall_mem_singleton.1 htarget, hrest⟩⟩

def readStatements : List Char → Option (List Shown)
  | [] => some []
  | c :: cs =>
    match _ : readShown (c :: cs) with
    | none => none
    | some (x, rest) => (readStatements rest).map (x :: ·)
termination_by cs => cs.length
decreasing_by
  apply readShown_lt
  assumption

theorem readStatements_cons_iff {cs : List Char} {x : Shown} {xs : List Shown} : readStatements cs = some (x :: xs) ↔
    ∃ rest, readShown cs = some (x, rest) ∧ readStatements rest = some xs := by
  cases cs with
  | nil =>
    rw [readStatements]
    simp [readShown, readQuoted]
  | cons c cs =>
    rw [readStatements]
    split
    · rename_i hnone
      simp [hnone]
    · rename_i y rest hsome
      rw [hsome]
      simp only [Option.map_eq_some_iff, List.cons.injEq, Option.some.injEq, Prod.mk.injEq]
      grind

theorem readStatements_written_iff {xs : List Shown} :
    readStatements (String.join (xs.map Shown.written)).toList = some xs ↔ ∀ x ∈ xs, ∀ name ∈ x.names, Plain name := by
  induction xs with
  | nil => simp [readStatements]
  | cons x xs ih =>
    rw [List.map_cons, String.join_cons, String.toList_append, readStatements_cons_iff, List.forall_mem_cons, ← ih]
    simp only [readShown_written_iff]
    constructor
    · rintro ⟨rest, ⟨hplain, rfl⟩, hxs⟩
      exact ⟨hplain, hxs⟩
    · rintro ⟨hplain, hxs⟩
      exact ⟨_, ⟨hplain, rfl⟩, hxs⟩

end Drawing

/-! ## Links -/

structure FileRef where
  root : String
  name : String
  deriving DecidableEq

def FileRef.ref (f : FileRef) : Ref := ⟨some f.root, some f.name⟩

theorem FileRef.ref_injective : Function.Injective FileRef.ref := by
  intro a b h
  cases a
  cases b
  simpa [ref] using h

structure Link where
  source : FileRef
  target : Option FileRef
  deriving DecidableEq

namespace Link

def dependency (l : Link) : Dependency := ⟨l.source.ref, (l.target.map FileRef.ref).getD Ref.nothing⟩

def value (l : Link) : Value := l.dependency.value

def shown (l : Link) : Drawing.Shown :=
  match l.target with
  | none => .node l.source.name
  | some target => .arrow l.source.name target.name

def names (l : Link) : List String := l.shown.names

theorem dependency_injective : Function.Injective dependency := by
  intro a b h
  obtain ⟨source, target⟩ := a
  obtain ⟨source', target'⟩ := b
  simp only [dependency, Dependency.mk.injEq] at h
  obtain ⟨hsource, htarget⟩ := h
  rw [FileRef.ref_injective hsource, Link.mk.injEq]
  refine ⟨rfl, ?_⟩
  cases target with
  | none =>
    cases target' with
    | none => rfl
    | some target' => simp [FileRef.ref, Ref.nothing] at htarget
  | some target =>
    cases target' with
    | none => simp [FileRef.ref, Ref.nothing] at htarget
    | some target' => exact congrArg some (FileRef.ref_injective htarget)

theorem same_value (a b : Link) : a.value.same b.value = decide (a = b) := by
  have hsame : a.value.same b.value = decide (a.dependency = b.dependency) := by
    rw [value, Dependency.value, value, Dependency.value, Value.same]
    simp only [Value.sameAll, Ref.same_value, Bool.and_true, ← Bool.decide_and]
    cases a.dependency
    cases b.dependency
    simp
  rw [hsame, decide_eq_decide]
  exact dependency_injective.eq_iff

theorem asKey_value (l : Link) : l.value.asKey = .ok l.value := by
  obtain ⟨source, target⟩ := l
  cases target <;> rfl

theorem withNew_value (ls : List Link) (l : Link) :
    Depends.withNew (ls.map value) l.value = (if l ∈ ls then ls else ls ++ [l]).map value := by
  rw [Depends.withNew, Value.among_map same_value]
  by_cases h : l ∈ ls <;> simp [h]

/-- What has been seen stays, and of the rest each link is kept where it comes first. -/
theorem foldl_withNew (seen ls : List Link) : (ls.map value).foldl Depends.withNew (seen.map value) =
    (seen ++ (ls.filter fun l => l ∉ seen).eraseDups).map value := by
  induction ls generalizing seen with
  | nil => simp
  | cons l ls ih =>
    rw [List.map_cons, List.foldl_cons, withNew_value, ih]
    by_cases h : l ∈ seen
    · rw [if_pos h, List.filter_cons_of_neg (by simpa using h)]
    · have hfilter : (ls.filter fun m => m ∉ seen ++ [l]) = (ls.filter fun m => m ∉ seen).filter fun m => !m == l := by
        rw [List.filter_filter]
        apply List.filter_congr
        intro m _
        rw [Bool.eq_iff_iff]
        simp [and_comm]
      rw [if_neg h, List.filter_cons_of_pos (by simpa using h), List.eraseDups_cons, hfilter, List.append_assoc]
      rfl

theorem distinct_values (ls : List Link) : Depends.distinct (ls.map value) = ls.eraseDups.map value := by
  have h := foldl_withNew [] ls
  simpa [Depends.distinct] using h

theorem statement_value (l : Link) :
    Drawing.statement { dotted := false, full := false } l.value = .ok l.shown.written := by
  obtain ⟨source, target⟩ := l
  cases target <;> rfl

end Link

/-! ## The program -/

def Session.DrawsNames (s : Session) : Prop := s.drawing = some { dotted := false, full := false }

namespace Drawing

def body (ls : List Link) : String := String.join (ls.map fun l => l.shown.written)

def graph (start : String) (ls : List Link) : String := start ++ (body ls ++ closing)

theorem readStatements_body_iff {ls : List Link} : readStatements (body ls).toList = some (ls.map Link.shown) ↔
    ∀ l ∈ ls, ∀ name ∈ l.names, Plain name := by
  have hbody : body ls = String.join ((ls.map Link.shown).map Shown.written) := by rw [List.map_map]; rfl
  rw [hbody, readStatements_written_iff, List.forall_mem_map]
  rfl

theorem opening_int (fontSize dpi : Int) : ∃ start, opening (.int fontSize) (.int dpi) = .ok start := ⟨_, rfl⟩

end Drawing

theorem prints_drawOne (l : Link) : Prints Session.DrawsNames (Run.drawOne l.value) l.shown.written (.ok ()) := by
  intro s hs
  have hends : ∃ ends, l.value.ends = .ok ends := by
    obtain ⟨source, target⟩ := l
    cases target <;> exact ⟨_, rfl⟩
  obtain ⟨ends, hends⟩ := hends
  unfold Run.drawOne
  rw [lift_bind_of_ok hends, bind_of_ok (rfl : (get : Run Session) s = .ok s s), hs]
  dsimp only
  rw [lift_bind_of_ok l.statement_value]
  rfl

theorem drawsNames_console (s : Session) (console : Console) (h : s.DrawsNames) :
    Session.DrawsNames { s with console := console } := h

theorem prints_draw {fontSize dpi : Value} {start : String} (hstart : Drawing.opening fontSize dpi = .ok start)
    (ls : List Link) :
    Prints Session.DrawsNames (Run.draw (ls.map Link.value) fontSize dpi) (Drawing.graph start ls) (.ok ()) := by
  have hopening : Prints Session.DrawsNames (liftM (Drawing.opening fontSize dpi)) "" (.ok start) := by
    rw [← hstart]
    exact prints_lift _
  have hlinks : Prints Session.DrawsNames ((ls.map Link.value).forM Run.drawOne) (Drawing.body ls) (.ok ()) := by
    rw [List.forM_eq_forM, List.forM_map, ← List.forM_eq_forM]
    exact prints_forM drawsNames_console fun l _ => prints_drawOne l
  unfold Run.draw Drawing.graph
  rw [← String.empty_append (s := start ++ _)]
  apply hopening.bind drawsNames_console
  apply (prints_print start).bind drawsNames_console
  apply hlinks.bind drawsNames_console
  exact prints_print Drawing.closing

theorem Run.foldValues_of_values {α : Type} (step : α → Value → Run α) (start : α) {text : String} {vs : List Value}
    (h : (Depends.readings text).map (·.value) = vs.map .ok) : foldValues step start text = vs.foldlM step start := by
  unfold foldValues
  revert h
  generalize Depends.readings text = rs
  intro h
  induction vs generalizing rs start with
  | nil =>
    rw [List.map_eq_nil_iff.1 h]
    rfl
  | cons v vs ih =>
    obtain ⟨r, rs, rfl, hr, hrs⟩ := List.map_eq_cons_iff.1 h
    rw [List.foldlM_cons, List.foldlM_cons, hr]
    exact bind_congr fun a => ih a rs hrs

theorem foldlM_unit {α : Type} (f : α → Run Unit) (xs : List α) : xs.foldlM (fun _ x => f x) () = xs.forM f := by
  induction xs with
  | nil => rfl
  | cons x xs ih =>
    rw [List.foldlM_cons]
    exact bind_congr fun _ => ih

theorem prints_distinctValues {text : String} {ls : List Link}
    (h : (Depends.readings text).map (·.value) = (ls.map Link.value).map .ok) :
    Prints Session.DrawsNames (Run.distinctValues text) "" (.ok (ls.eraseDups.map Link.value)) := by
  have hfold : ∀ (seen : List Value) (ls : List Link), (ls.map Link.value).foldlM
      (fun values v => do return Depends.withNew values (← v.asKey) : List Value → Value → Run (List Value)) seen =
        pure ((ls.map Link.value).foldl Depends.withNew seen) := by
    intro seen ls
    induction ls generalizing seen with
    | nil => rfl
    | cons l ls ih =>
      rw [List.map_cons, List.foldlM_cons, List.foldl_cons, ← ih, l.asKey_value]
      rfl
  rw [Run.distinctValues, Run.foldValues_of_values _ _ h, hfold, ← Link.distinct_values]
  exact prints_pure _

def Tools.DrawSettings.drawn (settings : Tools.DrawSettings) (ls : List Link) : List Link :=
  if settings.distinct then ls.eraseDups else ls

namespace Tools

def drawText (settings : DrawSettings) (text : String) : Run Unit := do
  if settings.distinct then
    let dependencies ← Run.distinctValues text
    Run.draw dependencies (.int settings.fontSize) (.int settings.dpi)
  else
    Run.print (← Drawing.opening (.int settings.fontSize) (.int settings.dpi))
    Run.foldValues (fun _ v => Run.drawOne v) () text
    Run.print Drawing.closing

theorem draw_eq (arguments : List String) : draw arguments = (do
    let (settings, paths) ← Run.ownOptions drawManual drawFlags {} arguments
    modify fun s => { s with drawing := some { dotted := settings.dotted, full := settings.full } }
    (readPaths paths).forM fun path => do drawText settings (← Run.rawText path)) := rfl

theorem prints_drawText {settings : DrawSettings} {start text : String} {ls : List Link}
    (hstart : Drawing.opening (.int settings.fontSize) (.int settings.dpi) = .ok start)
    (h : (Depends.readings text).map (·.value) = (ls.map Link.value).map .ok) :
    Prints Session.DrawsNames (drawText settings text) (Drawing.graph start (settings.drawn ls)) (.ok ()) := by
  unfold drawText DrawSettings.drawn
  cases settings.distinct with
  | true =>
    rw [if_pos rfl, if_pos rfl, ← String.empty_append (s := Drawing.graph _ _)]
    exact (prints_distinctValues h).bind drawsNames_console (prints_draw hstart _)
  | false =>
    rw [if_neg Bool.false_ne_true, if_neg Bool.false_ne_true, Run.foldValues_of_values _ _ h, foldlM_unit]
    exact prints_draw hstart ls

theorem execute_draw {arguments paths texts : List String} {input : String} {s : Session} {settings : DrawSettings}
    {links : String → List Link} (hoptions : Options.read drawFlags arguments {} = .ok paths settings)
    (hfull : settings.full = false) (hdotted : settings.dotted = false)
    (hgiven : s.files.given input (readPaths paths) = .ok texts)
    (hlines : ∀ text ∈ texts, (Depends.readings text).map (·.value) = ((links text).map Link.value).map .ok) :
    ∃ start, Drawing.opening (.int settings.fontSize) (.int settings.dpi) = .ok start ∧
      (Program.draw.execute arguments input s).1.status = .code 0 ∧
      (Program.draw.execute arguments input s).1.fault = none ∧
      (Program.draw.execute arguments input s).1.console.out =
        String.join (texts.map fun text => Drawing.graph start (settings.drawn (links text))) := by
  obtain ⟨start, hstart⟩ := Drawing.opening_int settings.fontSize settings.dpi
  refine ⟨start, hstart, ?_⟩
  let first : Session := { s with console := { input := input } }
  let ready : Session := { first with drawing := some { dotted := settings.dotted, full := settings.full } }
  have hready : ready.DrawsNames := by
    change some { dotted := settings.dotted, full := settings.full : Drawing.Options } = _
    rw [hfull, hdotted]
  have huse : ∀ text ∈ texts, Prints Session.DrawsNames (drawText settings text)
      (Drawing.graph start (settings.drawn (links text))) (.ok ()) := by
    intro text htext
    exact prints_drawText hstart (hlines text htext)
  have hread : Run.ownOptions drawManual drawFlags {} arguments first = .ok (settings, paths) first := by
    unfold Run.ownOptions Run.options
    rw [hoptions]
    rfl
  have htool : draw arguments first = ((readPaths paths).forM fun path => do
      drawText settings (← Run.rawText path) : Run Unit) ready := by
    rw [draw_eq, bind_of_ok hread]
    rfl
  exact Program.execute_given drawsNames_console rfl htool huse hready hgiven rfl

/-- **Names are drawn as they are.** Without roots and dots, a drawing has one statement for each link, in order. The
statements are read back as the links if and only if no name has a quote in it or a backslash at its end. -/
theorem names_read_back (settings : DrawSettings) :
    (∀ ls : List Link,
      (∀ fontSize dpi start, Drawing.opening fontSize dpi = .ok start →
        Prints Session.DrawsNames (Run.draw (ls.map Link.value) fontSize dpi) (Drawing.graph start ls) (.ok ())) ∧
      (Drawing.readStatements (Drawing.body ls).toList = some (ls.map Link.shown) ↔
        ∀ l ∈ ls, ∀ name ∈ l.names, Drawing.Plain name)) ∧
    ∀ (arguments paths texts : List String) (input : String) (s : Session) (links : String → List Link),
      Options.read drawFlags arguments {} = .ok paths settings → settings.full = false → settings.dotted = false →
      s.files.given input (readPaths paths) = .ok texts →
      (∀ text ∈ texts, (Depends.readings text).map (·.value) = ((links text).map Link.value).map .ok) →
      ∃ start, Drawing.opening (.int settings.fontSize) (.int settings.dpi) = .ok start ∧
        (Program.draw.execute arguments input s).1.status = .code 0 ∧
        (Program.draw.execute arguments input s).1.fault = none ∧
        (Program.draw.execute arguments input s).1.console.out =
          String.join (texts.map fun text => Drawing.graph start (settings.drawn (links text))) := by
  constructor
  · intro ls
    exact ⟨fun _ _ _ hstart => prints_draw hstart ls, Drawing.readStatements_body_iff⟩
  · intro arguments paths texts input s links hoptions hfull hdotted hgiven hlines
    exact execute_draw hoptions hfull hdotted hgiven hlines

def quoted : Link := ⟨⟨"/r", "a\"b.py"⟩, none⟩

/-- The name ends at the quote, and what comes after it is no statement. -/
theorem quoted_not_read_back :
    Drawing.statement { dotted := false, full := false } quoted.value = .ok "\"a\"b.py\"  [style=filled];\n" ∧
    Drawing.readQuoted (Drawing.body [quoted]).toList = some ("a", "b.py\"  [style=filled];\n".toList) ∧
    Drawing.readStatements (Drawing.body [quoted]).toList ≠ some [quoted.shown] := by
  refine ⟨quoted.statement_value, by decide +kernel, ?_⟩
  intro hread
  have hplain := Drawing.readStatements_body_iff.1 hread
  exact absurd (hplain quoted (by decide) "a\"b.py" (by decide)) (by decide)

def repeatedLinks : List Link :=
  let link : Link := ⟨⟨"/r", "a.py"⟩, some ⟨"/r", "b\\c.py"⟩⟩
  [link, link, ⟨⟨"/r", "b\\c.py"⟩, none⟩]

theorem names_read_back_repeated :
    Options.read drawFlags [] {} = .ok [] {} ∧
    noFiles.files.given (Depends.page (repeatedLinks.map Link.value)) (readPaths []) =
      .ok [Depends.page (repeatedLinks.map Link.value)] ∧
    (∃ start, (Program.draw.execute [] (Depends.page (repeatedLinks.map Link.value)) noFiles).1.console.out =
      String.join ([Depends.page (repeatedLinks.map Link.value)].map fun _ =>
        Drawing.graph start repeatedLinks.eraseDups)) ∧
    Drawing.readStatements (Drawing.body repeatedLinks.eraseDups).toList =
      some (repeatedLinks.eraseDups.map Link.shown) := by
  have hoptions : Options.read drawFlags [] {} = .ok [] {} := rfl
  have hgiven : noFiles.files.given (Depends.page (repeatedLinks.map Link.value)) (readPaths []) =
      .ok [Depends.page (repeatedLinks.map Link.value)] := rfl
  have hlines : ∀ text ∈ [Depends.page (repeatedLinks.map Link.value)],
      (Depends.readings text).map (·.value) = (repeatedLinks.map Link.value).map .ok := by
    intro text htext
    rw [List.mem_singleton.1 htext, Depends.readings_page (by decide)]
    rfl
  obtain ⟨hread, hrun⟩ := names_read_back {}
  obtain ⟨start, _, _, _, hout⟩ := hrun [] [] _ _ noFiles (fun _ => repeatedLinks) hoptions rfl rfl hgiven hlines
  exact ⟨hoptions, hgiven, ⟨start, hout⟩, (hread _).2.2 (by decide +kernel)⟩

end Tools

end ImportAtlas
