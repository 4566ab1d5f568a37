import ImportAtlas.Proofs.DependencyLines
import ImportAtlas.Proofs.Output

/-!
# Dependencies outside the standard library

The program that leaves the standard library out prints the other dependencies in their order. A root lies in the
library if it starts with the path of the library. What other packages have installed below the library was to stay,
but the place for it is looked for at the start of a root as well, where it never stands below the library.
-/

namespace ImportAtlas

namespace Depends

def values (text : String) : List Value := (readings text).filterMap fun r => r.value.toOption

def valuesOf (texts : List String) : List Value := texts.flatMap values

def roots (v : Value) : List String :=
  match v.ends with
  | .ok ((.str source, _), (.str target, _)) => [source, target]
  | .ok ((.str source, _), (.none, _)) => [source]
  | _ => []

def HasRoots (v : Value) : Prop :=
  ∃ source name target targetName, v.ends = .ok ((.str source, name), (Ref.part target, targetName))

theorem roots_of_ends {v name targetName : Value} {source : String} {target : Option String}
    (h : v.ends = .ok ((.str source, name), (Ref.part target, targetName))) : roots v = source :: target.toList := by
  unfold roots
  rw [h]
  cases target <;> rfl

theorem values_page {vs : List Value} (h : ∀ v ∈ vs, v.isLiteral = true) : values (page vs) = vs := by
  unfold values
  rw [readings_page h, List.filterMap_map]
  exact List.filterMap_some

theorem page_append (vs ws : List Value) : page (vs ++ ws) = page vs ++ page ws := by
  simp [page]

/-- Lines that are printed under a condition are the page of the values that meet it. -/
theorem page_filter (p : Value → Bool) (vs : List Value) :
    page (vs.filter p) = String.join (vs.map fun v => if p v then v.render ++ "\n" else "") := by
  induction vs with
  | nil => rfl
  | cons v vs ih =>
    rw [List.map_cons, String.join_cons, ← ih]
    by_cases hv : p v = true
    · rw [List.filter_cons_of_pos hv, if_pos hv]
      simp [page]
    · rw [List.filter_cons_of_neg hv, if_neg hv, String.empty_append]

theorem page_filter_valuesOf (p : Value → Bool) (texts : List String) :
    page ((valuesOf texts).filter p) = String.join (texts.map fun text => page ((values text).filter p)) := by
  induction texts with
  | nil => rfl
  | cons text texts ih =>
    rw [List.map_cons, String.join_cons, ← ih, ← page_append, ← List.filter_append]
    rfl

end Depends

namespace Tools

/-! ## Which dependencies stay -/

def inLibrary (roots : List String) : Bool := roots.any (Text.beginsWith · "/usr/lib/python")

def stays (roots : List String) : Bool := !inLibrary roots || roots.any (Text.beginsWith · "site-packages")

def isForeign (roots : List String) : Bool :=
  !inLibrary roots || roots.any fun root => decide ("site-packages" ∈ Path.segments root)

theorem rootBegins_eq {start : String} (h : start ≠ "") (source : String) (target : Option String) :
    rootBegins start (.str source) (Ref.part target) =
      .ok ((source :: target.toList).any (Text.beginsWith · start)) := by
  have hempty : Text.beginsWith "" start = false := by
    rw [← Bool.not_eq_true, Text.beginsWith_iff]
    intro hprefix
    have := List.prefix_nil.1 hprefix
    simp_all
  change (if Text.beginsWith source start = true then Except.ok true else _) = _
  by_cases hsource : Text.beginsWith source start = true
  · simp [hsource]
  · rw [if_neg hsource]
    cases target with
    | none =>
      simp [hsource, Ref.part, Value.truthy]
      rfl
    | some target =>
      by_cases htarget : target = ""
      · simp [hsource, Ref.part, Value.truthy, htarget, hempty]
        rfl
      · simp [hsource, Ref.part, Value.truthy, htarget, Value.onlyText]

theorem staysOutside_eq (source : String) (target : Option String) :
    staysOutside (.str source) (Ref.part target) = .ok (stays (source :: target.toList)) := by
  unfold staysOutside stays inLibrary
  rw [rootBegins_eq (by decide), rootBegins_eq (by decide)]
  change (if (source :: target.toList).any (Text.beginsWith · "/usr/lib/python") = true then _ else Except.ok true) = _
  cases (source :: target.toList).any (Text.beginsWith · "/usr/lib/python") <;> simp

/-- The two agree on a dependency if, should it lie in the library, the start of a root tells whether one of its parts
is the directory for other packages. -/
theorem stays_eq_isForeign_iff (roots : List String) : stays roots = isForeign roots ↔
    (inLibrary roots = true → ((∃ root ∈ roots, Text.beginsWith root "site-packages" = true) ↔
      ∃ root ∈ roots, "site-packages" ∈ Path.segments root)) := by
  unfold stays isForeign
  cases inLibrary roots with
  | false => simp
  | true =>
    rw [Bool.eq_iff_iff]
    simp

theorem stays_of_absolute {roots : List String} (h : ∀ root ∈ roots, Path.isAbsolute root = true) :
    stays roots = !inLibrary roots := by
  have hnone : roots.any (Text.beginsWith · "site-packages") = false := by
    rw [List.any_eq_false]
    intro root hroot hstart
    have habsolute := h root hroot
    obtain ⟨tail, htail⟩ := Text.beginsWith_iff.1 hstart
    obtain ⟨tail', htail'⟩ := Text.beginsWith_iff.1 habsolute
    rw [← htail] at htail'
    simp at htail'
  rw [stays, hnone, Bool.or_false]

theorem filter_eq_filter_iff {α : Type} {p q : α → Bool} {xs : List α} :
    xs.filter p = xs.filter q ↔ ∀ x ∈ xs, p x = q x := by
  constructor
  · intro h x hx
    have hmem : x ∈ xs.filter p ↔ x ∈ xs.filter q := by rw [h]
    rw [Bool.eq_iff_iff]
    simpa [hx] using hmem
  · exact List.filter_congr

/-! ## The program -/

section

variable {P : Session → Prop} (hP : ∀ s console, P s → P { s with console := console })
include hP

theorem prints_useValues {use : Value → Run Unit} {g : Value → String} {text : String}
    (hlines : ∀ r ∈ Depends.readings text, ∃ v, r.value = .ok v ∧ Prints P (use v) (g v) (.ok ())) :
    Prints P (useValues use text) (String.join ((Depends.values text).map g)) (.ok ()) := by
  have hvalues : (Depends.values text).map g = (Depends.readings text).map fun r =>
      (r.value.toOption.map g).getD "" := by
    unfold Depends.values
    revert hlines
    induction Depends.readings text with
    | nil => exact fun _ => rfl
    | cons r rest ih =>
      intro hlines
      obtain ⟨⟨v, hv, _⟩, hrest⟩ := List.forall_mem_cons.1 hlines
      have hsome : r.value.toOption = some v := by rw [hv]; rfl
      simp [hsome, ih hrest]
  rw [hvalues]
  apply prints_forM hP
  intro r hr
  obtain ⟨v, hv, hprints⟩ := hlines r hr
  rw [hv]
  exact hprints

end

def printOutside (v : Value) : Run Unit := do
  let (source, target) ← v.ends
  if ← staysOutside source.1 target.1 then Run.printLine v.render

theorem filterLibrary_eq (arguments : List String) :
    filterLibrary arguments = filter "sfood-filter-stdlib" printOutside arguments := rfl

theorem prints_printOutside {v : Value} (h : Depends.HasRoots v) :
    Prints (fun _ => True) (printOutside v) (if stays (Depends.roots v) then v.render ++ "\n" else "") (.ok ()) := by
  obtain ⟨source, name, target, targetName, hends⟩ := h
  rw [Depends.roots_of_ends hends]
  intro s _
  unfold printOutside
  rw [lift_bind_of_ok hends]
  dsimp only
  rw [lift_bind_of_ok (staysOutside_eq source target)]
  cases stays (source :: target.toList) with
  | true => rfl
  | false =>
    rw [if_neg Bool.false_ne_true, if_neg Bool.false_ne_true, s.after_empty]
    rfl

theorem execute_filterLibrary {arguments paths texts : List String} {input : String} {s : Session}
    (hoptions : Options.read ([] : List (Flag Unit)) arguments () = .ok paths ())
    (hgiven : s.files.given input (readPaths paths) = .ok texts)
    (hlines : ∀ text ∈ texts, ∀ r ∈ Depends.readings text, ∃ v, r.value = .ok v ∧ Depends.HasRoots v) :
    (Program.filterLibrary.execute arguments input s).1.status = .code 0 ∧
      (Program.filterLibrary.execute arguments input s).1.fault = none ∧
      (Program.filterLibrary.execute arguments input s).1.console.out =
        Depends.page ((Depends.valuesOf texts).filter fun v => stays (Depends.roots v)) := by
  let start : Session := { s with console := { input := input } }
  have huse : ∀ text ∈ texts, Prints (fun _ => True) (useValues printOutside text)
      (Depends.page ((Depends.values text).filter fun v => stays (Depends.roots v))) (.ok ()) := by
    intro text htext
    rw [Depends.page_filter]
    apply prints_useValues (fun _ _ _ => trivial)
    intro r hr
    obtain ⟨v, hv, hroots⟩ := hlines text htext r hr
    exact ⟨v, hv, prints_printOutside hroots⟩
  have hread : Run.ownOptions { program := "sfood-filter-stdlib", text := filterText } [] () arguments start =
      .ok ((), paths) start := by
    unfold Run.ownOptions Run.options
    rw [hoptions]
    rfl
  have htool : filterLibrary arguments start = ((readPaths paths).forM fun path => do
      useValues printOutside (← Run.rawText path) : Run Unit) start := by
    rw [filterLibrary_eq, filter, bind_of_ok hread]
    rfl
  rw [Depends.page_filter_valuesOf]
  exact Program.execute_given (fun _ _ _ => trivial) rfl htool huse trivial hgiven rfl

/-- **The standard library is left out.** The program prints, in order, the dependencies of which no root starts with
the path of the library, or some root starts with the name of the place for other packages. This is what a search for
that place among the parts of the roots would keep if and only if the two tests agree wherever a root lies in the
library; with absolute roots nothing in the library stays. -/
theorem library_left_out {arguments paths texts : List String} {input : String} {s : Session}
    (hoptions : Options.read ([] : List (Flag Unit)) arguments () = .ok paths ())
    (hgiven : s.files.given input (readPaths paths) = .ok texts)
    (hlines : ∀ text ∈ texts, ∀ r ∈ Depends.readings text, ∃ v, r.value = .ok v ∧ Depends.HasRoots v) :
    (Program.filterLibrary.execute arguments input s).1.status = .code 0 ∧
    (Program.filterLibrary.execute arguments input s).1.fault = none ∧
    ∃ kept, (Program.filterLibrary.execute arguments input s).1.console.out = Depends.page kept ∧
      kept = (Depends.valuesOf texts).filter (fun v => stays (Depends.roots v)) ∧
      (kept = (Depends.valuesOf texts).filter (fun v => isForeign (Depends.roots v)) ↔
        ∀ v ∈ Depends.valuesOf texts, inLibrary (Depends.roots v) = true →
          ((∃ root ∈ Depends.roots v, Text.beginsWith root "site-packages" = true) ↔
            ∃ root ∈ Depends.roots v, "site-packages" ∈ Path.segments root)) ∧
      ((∀ v ∈ Depends.valuesOf texts, ∀ root ∈ Depends.roots v, Path.isAbsolute root = true) →
        kept = (Depends.valuesOf texts).filter fun v => !inLibrary (Depends.roots v)) := by
  obtain ⟨hstatus, hfault, hout⟩ := execute_filterLibrary hoptions hgiven hlines
  refine ⟨hstatus, hfault, _, hout, rfl, ?_, ?_⟩
  · rw [filter_eq_filter_iff]
    exact forall₂_congr fun v _ => stays_eq_isForeign_iff (Depends.roots v)
  · intro habsolute
    rw [filter_eq_filter_iff]
    exact fun v hv => stays_of_absolute (habsolute v hv)

/-- A file that another package has installed below the library. -/
def installed : Value := .tuple [.tuple [.str "/usr/lib/python2.7/site-packages", .str "a.py"], .tuple [.none, .none]]

theorem hasRoots_installed : ∀ text ∈ [Depends.page [installed]], ∀ r ∈ Depends.readings text,
    ∃ v, r.value = .ok v ∧ Depends.HasRoots v := by
  intro text htext r hr
  rw [List.mem_singleton.1 htext, Depends.readings_page (by decide)] at hr
  rw [List.mem_singleton.1 hr]
  exact ⟨installed, rfl, _, _, none, _, rfl⟩

theorem given_installed :
    noFiles.files.given (Depends.page [installed]) (readPaths []) = .ok [Depends.page [installed]] := rfl

/-- The installed file has the place for other packages in its root, and is left out. -/
theorem installed_left_out : isForeign (Depends.roots installed) = true ∧
    (Program.filterLibrary.execute [] (Depends.page [installed]) noFiles).1.console.out = "" := by
  have hoptions : Options.read ([] : List (Flag Unit)) [] () = .ok [] () := rfl
  obtain ⟨_, _, hout⟩ := execute_filterLibrary hoptions given_installed hasRoots_installed
  have hvalues : Depends.valuesOf [Depends.page [installed]] = [installed] := by
    unfold Depends.valuesOf
    rw [List.flatMap_singleton, Depends.values_page (by decide)]
  rw [hout, hvalues]
  decide +kernel

theorem library_left_out_installed :
    Options.read ([] : List (Flag Unit)) [] () = .ok [] () ∧
      noFiles.files.given (Depends.page [installed]) (readPaths []) = .ok [Depends.page [installed]] ∧
      (∀ text ∈ [Depends.page [installed]], ∀ r ∈ Depends.readings text, ∃ v, r.value = .ok v ∧ Depends.HasRoots v) ∧
      (Program.filterLibrary.execute [] (Depends.page [installed]) noFiles).1.status = .code 0 := by
  have hoptions : Options.read ([] : List (Flag Unit)) [] () = .ok [] () := rfl
  exact ⟨hoptions, given_installed, hasRoots_installed,
    (library_left_out hoptions given_installed hasRoots_installed).1⟩

end Tools

end ImportAtlas
