import ImportAtlas.Proofs.Equality
import ImportAtlas.Proofs.Sessions
import Mathlib.Data.List.Basic

/-!
# The files of imports

Of the imports with the same module and symbol only the first is looked up, whatever their levels. The files of a
source are those of its first imports. The file of a later one is among them unless the later one starts from
another directory than the first.
-/

namespace ImportAtlas

/-- By what an import is known again. -/
def ImportRecord.sign (r : ImportRecord) : Value := .tuple [r.module, r.symbol]

def SearchOptions.keeps (options : SearchOptions) (r : ImportRecord) : Bool :=
  !(options.pragmas && r.pragma.same (.str "OPTIONAL"))

def IsFirst (records : List ImportRecord) (r : ImportRecord) : Prop :=
  ∃ before after, records = before ++ r :: after ∧ ∀ q ∈ before, r.sign.same q.sign = false

theorem ImportRecord.same_of_sign {r q : ImportRecord} (h : r.sign.same q.sign = true) :
    r.module.same q.module = true ∧ r.symbol.same q.symbol = true := by
  simpa [sign, Value.same, Value.sameAll] using h

namespace Session

def Gives (s : Session) (path : String) (r : ImportRecord) (result : Option String × Option (List Problem)) : Prop :=
  ∃ cache, s.lookups.importedFile r.module r.symbol (some (Path.parent path)) r.level s.cache = .ok result cache

/-- The import means the file, of which the links are taken out. -/
def Means (s : Session) (path : String) (r : ImportRecord) (file : String) : Prop :=
  ∃ found problems, s.Gives path r (some found, problems) ∧ file = s.files.realPath found

theorem Alike.gives {s t : Session} (h : Alike s t) {path : String} {r : ImportRecord}
    {result : Option String × Option (List Problem)} (hs : s.Gives path r result) : t.Gives path r result := by
  obtain ⟨cache, hs⟩ := hs
  obtain ⟨cache', ht, _, _⟩ := (Finder.respects_importedFile s.lookups _ _ _ _).ok h.cache hs
  unfold Gives
  rw [← h.lookups_eq]
  exact ⟨cache', ht⟩

theorem Gives.means_iff {s : Session} {path : String} {r : ImportRecord} {file : Option String}
    {problems : Option (List Problem)} (h : s.Gives path r (file, problems)) {f : String} :
    s.Means path r f ↔ f ∈ (file.map s.files.realPath).toList := by
  obtain ⟨cache, h⟩ := h
  rw [Option.mem_toList, Option.map_eq_some_iff]
  constructor
  · rintro ⟨found, problems', ⟨cache', h'⟩, rfl⟩
    cases h.symm.trans h'
    exact ⟨found, rfl, rfl⟩
  · rintro ⟨found, rfl, rfl⟩
    exact ⟨found, problems, ⟨cache, h⟩, rfl⟩

end Session

open Session

/-! ## First imports -/

theorem isFirst_snoc {records : List ImportRecord} {q r : ImportRecord} :
    IsFirst (records ++ [q]) r ↔
      IsFirst records r ∨ r = q ∧ ∀ x ∈ records, q.sign.same x.sign = false := by
  constructor
  · rintro ⟨before, after, he, hb⟩
    rcases List.eq_nil_or_concat after with rfl | ⟨after, last, rfl⟩
    · obtain ⟨rfl, hr⟩ := List.append_inj' he rfl
      cases hr
      exact .inr ⟨rfl, hb⟩
    · rw [List.concat_eq_append, ← List.cons_append, ← List.append_assoc] at he
      obtain ⟨rfl, _⟩ := List.append_inj' he rfl
      exact .inl ⟨before, after, rfl, hb⟩
  · rintro (⟨before, after, rfl, hb⟩ | ⟨rfl, hb⟩)
    · exact ⟨before, after ++ [q], by rw [List.append_assoc]; rfl, hb⟩
    · exact ⟨records, [], rfl, hb⟩

theorem IsFirst.mem {records : List ImportRecord} {r : ImportRecord} (h : IsFirst records r) : r ∈ records := by
  obtain ⟨before, after, rfl, _⟩ := h
  simp

theorem exists_isFirst_before {before after : List ImportRecord} {r : ImportRecord} :
    IsFirst (before ++ r :: after) r ∨
      ∃ q ∈ before, IsFirst (before ++ r :: after) q ∧ r.sign.same q.sign = true := by
  -- the earliest one like `r` is first, because equality can be chained
  cases hf : before.find? fun q => r.sign.same q.sign with
  | none =>
    refine .inl ⟨before, after, rfl, fun q hq => ?_⟩
    simpa using List.find?_eq_none.1 hf q hq
  | some q =>
    obtain ⟨hq, as, bs, rfl, has⟩ := List.find?_eq_some_iff_append.1 hf
    refine .inr ⟨q, by simp, ⟨as, bs ++ r :: after, by simp, fun x hx => ?_⟩, hq⟩
    have hrx : r.sign.same x.sign = false := by simpa using has x hx
    rw [Bool.eq_false_iff]
    intro hqx
    rw [Value.same_trans hq hqx] at hrx
    cases hrx

theorem exists_isFirst {records : List ImportRecord} {r : ImportRecord} (hr : r ∈ records) :
    IsFirst records r ∨ ∃ q, IsFirst records q ∧ r.sign.same q.sign = true := by
  obtain ⟨before, after, rfl⟩ := List.append_of_mem hr
  exact exists_isFirst_before.imp_right fun ⟨q, _, hq⟩ => ⟨q, hq⟩

/-- What is first among some of the imports is first among all or comes after one that was left out. -/
theorem IsFirst.of_filter {records : List ImportRecord} {p : ImportRecord → Bool} {r : ImportRecord}
    (h : IsFirst (records.filter p) r) :
    IsFirst records r ∨ ∃ q, IsFirst records q ∧ p q = false ∧ r.sign.same q.sign = true := by
  obtain ⟨before, after, he, hb⟩ := h
  obtain ⟨front, back, rfl, rfl, hback⟩ := List.filter_eq_append_iff.1 he
  obtain ⟨left, rest, rfl, hleft, _, rfl⟩ := List.filter_eq_cons_iff.1 hback
  rw [← List.append_assoc]
  refine exists_isFirst_before.imp_right fun ⟨q, hq, hfirst, hrq⟩ => ⟨q, hfirst, ?_, hrq⟩
  rw [Bool.eq_false_iff]
  intro hp
  rcases List.mem_append.1 hq with hq | hq
  · rw [hb q (List.mem_filter.2 ⟨hq, hp⟩)] at hrq
    cases hrq
  · exact hleft q hq hp

/-! ## The loop over the imports -/

theorem Run.lookUp_inv {α : Type} {c : EStateM Fault ModuleCache α} {s s' : Session} {a : α}
    (h : Run.lookUp c s = .ok a s') : ∃ cache, c s.cache = .ok a cache ∧ { s with cache } = s' := by
  unfold Run.lookUp at h
  rw [bind_of_ok (Run.get_eq s)] at h
  cases hc : c s.cache with
  | ok b cache => rw [hc] at h; cases h; exact ⟨cache, rfl, rfl⟩
  | error e cache => rw [hc] at h; cases h

section

variable {options : SearchOptions} {path : String} {lines : Option (List String)} {state state' : Needs × List Value}
  {r : ImportRecord} {s t t' : Session}

theorem needsOf_inv {record : Value} (hr : ImportRecord.ofValue record = .ok r)
    (h : Run.needsOf options (Path.parent path) lines state record t = .ok state' t') :
    state' = state ∧ (options.keeps r = false ∨ r.sign.among state.2 = true) ∨
      options.keeps r = true ∧ r.sign.among state.2 = false ∧ state'.2 = state.2 ++ [r.sign] ∧
        ∃ file problems, t.Gives path r (file, problems) ∧
          state'.1.files = state.1.files ++ (file.map t.files.realPath).toList ∧
          state'.1.problems = state.1.problems ++ problems.getD [] := by
  obtain ⟨needs, seen⟩ := state
  unfold Run.needsOf at h
  obtain ⟨q, hq, h⟩ := lift_bind_inv h
  obtain rfl : r = q := Except.ok.inj (hr.symm.trans hq)
  split at h
  · rename_i hp
    obtain ⟨_, _, _, h⟩ := bind_inv h
    obtain ⟨rfl, _⟩ := pure_inv h
    exact .inl ⟨rfl, .inl (by rw [SearchOptions.keeps, hp]; rfl)⟩
  · rename_i hp
    obtain ⟨sign, hsign, h⟩ := lift_bind_inv h
    obtain rfl : sign = r.sign := Value.eq_of_asKey hsign
    split at h
    · rename_i hseen
      obtain ⟨rfl, _⟩ := pure_inv h
      exact .inl ⟨rfl, .inr hseen⟩
    · rename_i hseen
      rw [bind_of_ok (Run.finder_eq t)] at h
      obtain ⟨⟨file, problems⟩, t₁, hlook, h⟩ := bind_inv h
      obtain ⟨cache, hfile, rfl⟩ := Run.lookUp_inv hlook
      obtain ⟨_, t₂, hreport, h⟩ := bind_inv h
      have hreports := respects_forM alike_equivalence (Run.respects_reportProblem lines r.line) (problems.getD [])
      obtain ⟨_, _, halike, _⟩ := hreports.ok (alike_equivalence.refl _) hreport
      refine .inr ⟨by rw [SearchOptions.keeps, Bool.eq_false_iff.2 hp]; rfl, Bool.eq_false_iff.2 hseen, ?_⟩
      cases file with
      | none =>
        obtain ⟨rfl, _⟩ := pure_inv h
        exact ⟨rfl, none, problems, ⟨cache, hfile⟩, (List.append_nil _).symm, rfl⟩
      | some file =>
        change (Run.files >>= _) t₂ = _ at h
        rw [bind_of_ok (Run.files_eq t₂)] at h
        obtain ⟨rfl, _⟩ := pure_inv h
        refine ⟨rfl, some file, problems, ⟨cache, hfile⟩, ?_, rfl⟩
        rw [← halike.files]
        rfl

/-- What is known in a session like `s` when the imports `kept` have been looked up. -/
structure Searched (path : String) (s : Session) (kept : List ImportRecord) (state : Needs × List Value)
    (t : Session) : Prop where
  alike : Alike s t
  seen (v : Value) : v.among state.2 = true ↔ ∃ q ∈ kept, v.same q.sign = true
  files (f : String) : f ∈ state.1.files ↔ ∃ q, IsFirst kept q ∧ s.Means path q f
  found (q : ImportRecord) : IsFirst kept q → ∃ result, s.Gives path q result

variable {kept : List ImportRecord}

theorem Searched.start (path : String) (problems : List Problem) (h : Alike s t) :
    Searched path s [] ({ problems }, []) t :=
  ⟨h, by simp [Value.among], by simp [IsFirst], by simp [IsFirst]⟩

theorem Searched.again (h : Searched path s kept state t) (hold : r.sign.among state.2 = true) :
    Searched path s (kept ++ [r]) state t := by
  obtain ⟨q, hq, hrq⟩ := (h.seen r.sign).1 hold
  have hfirst : ∀ x, IsFirst (kept ++ [r]) x ↔ IsFirst kept x := by
    intro x
    rw [isFirst_snoc]
    refine or_iff_left fun ⟨_, hx⟩ => ?_
    rw [hx q hq] at hrq
    cases hrq
  refine ⟨h.alike, fun v => ?_, fun f => ?_, fun x hx => h.found x ((hfirst x).1 hx)⟩
  · rw [h.seen]
    constructor
    · rintro ⟨x, hx, hv⟩
      exact ⟨x, List.mem_append_left _ hx, hv⟩
    · rintro ⟨x, hx, hv⟩
      rcases List.mem_append.1 hx with hx | hx
      · exact ⟨x, hx, hv⟩
      · rw [List.mem_singleton.1 hx] at hv
        exact ⟨q, hq, Value.same_trans hv hrq⟩
  · rw [h.files]
    simp only [hfirst]

theorem Searched.new (h : Searched path s kept state t) (hnew : r.sign.among state.2 = false)
    (hseen : state'.2 = state.2 ++ [r.sign]) {file : Option String} {problems : Option (List Problem)}
    (hgives : s.Gives path r (file, problems))
    (hfiles : state'.1.files = state.1.files ++ (file.map s.files.realPath).toList) :
    Searched path s (kept ++ [r]) state' t := by
  have hfirst : ∀ x, IsFirst (kept ++ [r]) x ↔ IsFirst kept x ∨ x = r := by
    intro x
    rw [isFirst_snoc]
    refine or_congr_right (and_iff_left_of_imp fun _ q hq => ?_)
    rw [Bool.eq_false_iff]
    intro hrq
    rw [(h.seen r.sign).2 ⟨q, hq, hrq⟩] at hnew
    cases hnew
  refine ⟨h.alike, fun v => ?_, fun f => ?_, fun x hx => ?_⟩
  · rw [hseen, Value.among, List.any_append, Bool.or_eq_true]
    change v.among state.2 = true ∨ _ ↔ _
    rw [h.seen]
    simp [or_and_right, exists_or]
  · rw [hfiles, List.mem_append, h.files, ← hgives.means_iff]
    simp only [hfirst, or_and_right, exists_or, exists_eq_left]
  · rcases (hfirst x).1 hx with hx | rfl
    · exact h.found x hx
    · exact ⟨_, hgives⟩

theorem Searched.alike_right (h : Searched path s kept state t) (ht : Alike t t') :
    Searched path s kept state t' :=
  ⟨alike_equivalence.trans h.alike ht, h.seen, h.files, h.found⟩

theorem Searched.step (h : Searched path s kept state t)
    (hrun : Run.needsOf options (Path.parent path) lines state r.toValue t = .ok state' t') :
    Searched path s (kept ++ [r].filter options.keeps) state' t' := by
  obtain ⟨_, _, hlike, _⟩ := (Run.respects_needsOf _ _ _ _ _).ok (alike_equivalence.refl t) hrun
  refine Searched.alike_right (t := t) ?_ hlike
  rcases needsOf_inv r.ofValue_toValue hrun with ⟨rfl, hskip⟩ | ⟨hkeep, hnew, hseen, file, problems, hgives, hfiles, _⟩
  · by_cases hkeep : options.keeps r = true
    · rw [List.filter_cons_of_pos hkeep]
      exact h.again (hskip.resolve_left (by simp [hkeep]))
    · rw [List.filter_cons_of_neg hkeep, List.filter_nil, List.append_nil]
      exact h
  · rw [List.filter_cons_of_pos hkeep]
    rw [← h.alike.files] at hfiles
    exact h.new hnew hseen ((alike_equivalence.symm h.alike).gives hgives) hfiles

theorem Searched.run {records : List ImportRecord} (h : Searched path s [] state t)
    (hrun : records.foldlM (fun state r => Run.needsOf options (Path.parent path) lines state r.toValue) state t =
      .ok state' t') : Searched path s (records.filter options.keeps) state' t' := by
  refine foldlM_run (fun done state t => Searched path s (done.filter options.keeps) state t) ?_ h hrun
  intro done r rest state t state' t' _ h hstep
  rw [List.filter_append]
  exact h.step hstep

end

/-! ## When the loop comes to an end -/

/-- The import is of the kinds that a program text gives it: names are texts, and its line is one of `count`. -/
structure ImportRecord.Written (count : Nat) (r : ImportRecord) : Prop where
  module : ∃ name, r.module = .str name
  symbol : r.symbol = .none ∨ ∃ name, r.symbol = .str name
  line : ∃ n : Nat, r.line = .int n ∧ 1 ≤ n ∧ n ≤ count

section

variable {options : SearchOptions} {path : String} {lines : Option (List String)} {state : Needs × List Value}
  {r : ImportRecord} {t : Session} {count : Nat}

theorem atPlace_ok {α : Type} {items : List α} {n : Nat} (hpos : 1 ≤ n) (hn : n ≤ items.length) :
    ∃ item, atPlace items ((n : Int) - 1) = .ok item := by
  have hplace : ((n : Int) - 1).toNat < items.length := by omega
  unfold atPlace
  dsimp only
  rw [if_neg (by omega), if_neg (by omega), List.getElem?_eq_getElem hplace]
  exact ⟨_, rfl⟩

theorem ImportRecord.Written.reportProblem_ok (hr : r.Written count) (hlines : ∀ ls ∈ lines, ls.length = count)
    (p : Problem) (s : Session) : ∃ s', Run.reportProblem lines r.line p s = .ok ⟨⟩ s' := by
  obtain ⟨n, hline, hpos, hn⟩ := hr.line
  rw [hline]
  unfold Run.reportProblem
  rw [lift_bind_of_ok (rfl : (Value.int n).lineNumber = .ok (toString (n : Int))), bind_of_ok (by rfl)]
  cases lines with
  | none => exact ⟨_, rfl⟩
  | some ls =>
    obtain ⟨item, hitem⟩ := atPlace_ok hpos (by rw [hlines ls rfl]; exact hn)
    exact ⟨_, lift_bind_of_ok hitem _ _⟩

theorem ImportRecord.Written.reportOptional_ok (hr : r.Written count) (s : Session) :
    ∃ s', Run.reportOptional r s = .ok ⟨⟩ s' := by
  obtain ⟨n, hline, _, _⟩ := hr.line
  unfold Run.reportOptional
  split
  · rw [hline, lift_bind_of_ok (rfl : (Value.int n).lineNumber = .ok (toString (n : Int)))]
    exact ⟨_, rfl⟩
  · exact ⟨_, rfl⟩

theorem ImportRecord.Written.asKey_eq (hr : r.Written count) :
    (Value.tuple [r.module, r.symbol]).asKey = .ok r.sign := by
  obtain ⟨name, hm⟩ := hr.module
  rcases hr.symbol with hs | ⟨symbol, hs⟩
  · rw [sign, hm, hs]; rfl
  · rw [sign, hm, hs]; rfl

theorem ImportRecord.Written.needsOf_ok (hr : r.Written count) (hlines : ∀ ls ∈ lines, ls.length = count)
    (hlook : options.keeps r = true → r.sign.among state.2 = false → ∃ result, t.Gives path r result) :
    ∃ state' t', Run.needsOf options (Path.parent path) lines state r.toValue t = .ok state' t' := by
  obtain ⟨needs, seen⟩ := state
  unfold Run.needsOf
  dsimp only
  rw [lift_bind_of_ok r.ofValue_toValue]
  split
  · obtain ⟨t', ht⟩ := hr.reportOptional_ok t
    rw [bind_of_ok ht]
    exact ⟨_, _, rfl⟩
  · rename_i hp
    rw [lift_bind_of_ok hr.asKey_eq]
    split
    · exact ⟨_, _, rfl⟩
    · rename_i hseen
      obtain ⟨⟨file, problems⟩, cache, hgives⟩ :=
        hlook (by rw [SearchOptions.keeps, Bool.eq_false_iff.2 hp]; rfl) (Bool.eq_false_iff.2 hseen)
      have hlookUp : Run.lookUp (t.lookups.importedFile r.module r.symbol (some (Path.parent path)) r.level) t =
          .ok (file, problems) { t with cache } := by
        unfold Run.lookUp
        rw [bind_of_ok (Run.get_eq t), hgives]
        rfl
      obtain ⟨t₂, hreport⟩ := forM_total (fun problem (_ : problem ∈ problems.getD []) =>
        hr.reportProblem_ok hlines problem) { t with cache }
      rw [bind_of_ok (Run.finder_eq t), bind_of_ok hlookUp, bind_of_ok hreport]
      cases file with
      | none => exact ⟨_, _, rfl⟩
      | some file => exact ⟨_, _, rfl⟩

end

/-! ## Imports that start from the same directory -/

namespace Finder

variable {finder : Finder} {name : String} {module module' symbol symbol' level level' : Value} {dir : Option String}
  {cache cache' : ModuleCache} {result : Option String × Option (List Problem)}

theorem meant_congr (hs : symbol.same symbol' = true) {own : Option String}
    (h : finder.meant name symbol own = .ok result) : finder.meant name symbol' own = .ok result := by
  cases own with
  | none => exact h
  | some own =>
    by_cases ht : symbol.truthy = true
    · have hstr : ∃ text, symbol = .str text := by
        rw [meant, ht] at h
        obtain ⟨_, hd, _⟩ := except_bind_inv h
        cases symbol with
        | str text => exact ⟨text, rfl⟩
        | _ => cases hd
      obtain ⟨text, rfl⟩ := hstr
      rwa [Value.same_str hs]
    · rw [Bool.not_eq_true] at ht
      rw [meant, ht] at h
      rw [meant, ← Value.truthy_of_same hs, ht]
      exact h

theorem importedFile_congr (hm : module.same module' = true) (hs : symbol.same symbol' = true)
    (hl : startDir dir level = startDir dir level')
    (h : finder.importedFile module symbol dir level cache = .ok result cache') :
    finder.importedFile module' symbol' dir level' cache = .ok result cache' := by
  obtain ⟨name, rfl, ⟨hb, rfl, rfl⟩ | ⟨hb, own, hown, hmeant⟩⟩ := importedFile_inv h
  · rw [Value.same_str hm]
    unfold importedFile
    rw [lift_bind_of_ok (rfl : (Value.str name).text = .ok name), if_pos hb]
    rfl
  · rw [Value.same_str hm]
    unfold importedFile
    rw [lift_bind_of_ok (rfl : (Value.str name).text = .ok name), if_neg hb]
    have hsame : finder.ownFile name dir level' cache = .ok own cache' := by
      rw [← hown, ownFile, ownFile, hl]
    rw [bind_of_ok hsame, meant_congr hs hmeant]
    rfl

end Finder

/-! ## The files of a source -/

section

variable {options : SearchOptions} {path : String} {s : Session} {source : Source} {t : Tree}
  {records : List ImportRecord} (hunused : options.ignoreUnused = false) (hread : s.files.read path = .ok source)
  (hparse : source.parse = .tree t) (himports : t.imports = .ok records)
include hunused hread hparse himports

theorem dependenciesOf_eq : ∃ lines, (∀ ls ∈ lines, ls = Text.splitLines (Text.unifyNewlines source.text)) ∧
    Run.dependenciesOf options path s = (records.foldlM
      (fun state r => Run.needsOf options (Path.parent path) lines state r.toValue) ({}, []) >>=
        fun state => pure state.1) s := by
  let lines := Text.splitLines (Text.unifyNewlines source.text)
  have hsource : Run.readSource path s = .ok { tree := some t, lines := some lines } s := by
    unfold Run.readSource
    rw [bind_of_ok (Run.files_eq s), hread]
    dsimp only
    rw [hparse]
    rfl
  have hconsidered : Run.consideredImports options t = .ok (records.map ImportRecord.toValue, []) := by
    rw [Run.consideredImports, himports, hunused]
    rfl
  refine ⟨if options.verbosity ≥ 2 then some lines else none, fun ls hls => ?_, ?_⟩
  · split at hls
    · cases hls; rfl
    · cases hls
  · unfold Run.dependenciesOf
    rw [bind_of_ok hsource]
    dsimp only
    rw [lift_bind_of_ok hconsidered]
    dsimp only
    rw [List.foldlM_map]

theorem searched_dependenciesOf {needs : Needs} {s' : Session}
    (hrun : Run.dependenciesOf options path s = .ok needs s') :
    ∃ seen, Searched path s (records.filter options.keeps) (needs, seen) s' := by
  obtain ⟨lines, _, heq⟩ := dependenciesOf_eq hunused hread hparse himports
  rw [heq] at hrun
  obtain ⟨⟨needs', seen⟩, t₁, hloop, hrun⟩ := bind_inv hrun
  obtain ⟨rfl, rfl⟩ := pure_inv hrun
  exact ⟨seen, .run (.start path [] (alike_equivalence.refl s)) hloop⟩

theorem dependenciesOf_ok
    (hwritten : ∀ r ∈ records, r.Written (Text.splitLines (Text.unifyNewlines source.text)).length)
    (hlook : ∀ r, IsFirst (records.filter options.keeps) r → ∃ result, s.Gives path r result) :
    ∃ needs s', Run.dependenciesOf options path s = .ok needs s' := by
  obtain ⟨lines, hlines, heq⟩ := dependenciesOf_eq hunused hread hparse himports
  rw [heq]
  suffices hloop : ∃ state s', records.foldlM
      (fun state r => Run.needsOf options (Path.parent path) lines state r.toValue) ({}, []) s = .ok state s' ∧
        Searched path s (records.filter options.keeps) state s' by
    obtain ⟨state, s', hloop, _⟩ := hloop
    exact ⟨state.1, s', bind_of_ok hloop _⟩
  refine foldlM_ends (fun done state t => Searched path s (done.filter options.keeps) state t) ?_
    (.start path [] (alike_equivalence.refl s))
  intro done r rest state t hrecords h
  have hr : r ∈ records := by rw [← hrecords]; simp
  have hgives : options.keeps r = true → r.sign.among state.2 = false → ∃ result, t.Gives path r result := by
    intro hkeep hnew
    have hfirst : IsFirst (records.filter options.keeps) r := by
      refine ⟨done.filter options.keeps, rest.filter options.keeps, ?_, fun q hq => ?_⟩
      · rw [← hrecords, List.filter_append, List.filter_cons_of_pos hkeep]
      · rw [Bool.eq_false_iff]
        intro hrq
        rw [(h.seen r.sign).2 ⟨q, hq, hrq⟩] at hnew
        cases hnew
    obtain ⟨result, hresult⟩ := hlook r hfirst
    exact ⟨result, h.alike.gives hresult⟩
  obtain ⟨state', t', hstep⟩ := (hwritten r hr).needsOf_ok (fun ls hls => by rw [hlines ls hls]) hgives
  refine ⟨state', t', hstep, ?_⟩
  rw [List.filter_append]
  exact h.step hstep

/-- **First imports.** A source that can be read and parsed has its files if its first imports can be looked up,
and it has exactly the files that its first imports mean. A later import with the same module and symbol loses
its file only if it starts from another directory. -/
theorem files_of_first_imports :
    ((∀ r ∈ records, r.Written (Text.splitLines (Text.unifyNewlines source.text)).length) →
      (∀ r, IsFirst (records.filter options.keeps) r → ∃ result, s.Gives path r result) →
      ∃ needs s', Run.dependenciesOf options path s = .ok needs s') ∧
    ∀ needs s', Run.dependenciesOf options path s = .ok needs s' →
      (∀ f, f ∈ needs.files ↔ ∃ r, IsFirst (records.filter options.keeps) r ∧ s.Means path r f) ∧
      ∀ r ∈ records.filter options.keeps, ∀ f, s.Means path r f → f ∉ needs.files →
        ∃ q, IsFirst (records.filter options.keeps) q ∧ r.sign.same q.sign = true ∧
          Finder.startDir (some (Path.parent path)) r.level ≠ Finder.startDir (some (Path.parent path)) q.level := by
  refine ⟨dependenciesOf_ok hunused hread hparse himports, fun needs s' hrun => ?_⟩
  obtain ⟨seen, h⟩ := searched_dependenciesOf hunused hread hparse himports hrun
  refine ⟨h.files, fun r hr f hf hlost => ?_⟩
  rcases exists_isFirst hr with hfirst | ⟨q, hfirst, hrq⟩
  · exact absurd ((h.files f).2 ⟨r, hfirst, hf⟩) hlost
  · refine ⟨q, hfirst, hrq, fun hstart => hlost ((h.files f).2 ⟨q, hfirst, ?_⟩)⟩
    obtain ⟨found, problems, ⟨cache, hgives⟩, rfl⟩ := hf
    obtain ⟨hm, hs⟩ := ImportRecord.same_of_sign hrq
    exact ⟨found, problems, ⟨cache, Finder.importedFile_congr hm hs hstart hgives⟩, rfl⟩

end

/-! ## A file that is lost -/

def relativeImport (line level : Int) (other : Value) : Tree :=
  .node .fromImport (.int line)
    [.plain (.str ""), .list [.tuple [.plain (.str "x"), .plain other]], .plain (.int level)]

def twoLevels : Tree :=
  .node .program .none [.plain .none,
    .node .block .none [.list [relativeImport 1 1 .none, relativeImport 2 2 (.str "y")]]]

def relativeRecord (line level : Int) (binding : String) : ImportRecord where
  module := .str ""
  symbol := .str "x"
  binding := .str binding
  line := .int line
  level := .int level
  pragma := .none

theorem twoLevels_imports : twoLevels.imports = .ok [relativeRecord 1 1 "x", relativeRecord 2 2 "y"] := rfl

def nested : Session where
  files := {
    root := .dir [("pkg", .dir [
      ("__init__.py", .file (.plain "")),
      ("sub", .dir [
        ("__init__.py", .file (.plain "")),
        ("m.py", .file { text := "from . import x\nfrom .. import x as y\n", parse := .tree twoLevels }),
        ("x.py", .file (.plain ""))]),
      ("x.py", .file (.plain ""))])]
    cwd := "/" }

def allImports : SearchOptions := { verbosity := 0, pragmas := true, ignoreUnused := false }

theorem nested_run : ∃ needs s', Run.dependenciesOf allImports "/pkg/sub/m.py" nested = .ok needs s' ∧
    needs.files = ["/pkg/sub/x.py"] :=
  exists_of_run' (by decide +kernel)

theorem nested_means : nested.Means "/pkg/sub/m.py" (relativeRecord 2 2 "y") "/pkg/x.py" := by
  have hrun : ((nested.lookups.importedFile (.str "") (.str "x") (some (Path.parent "/pkg/sub/m.py"))
      (.int 2)).run' []).map Prod.fst = some (some "/pkg/x.py") := by decide +kernel
  obtain ⟨⟨found, problems⟩, cache, hrun, rfl⟩ := exists_of_run' hrun
  exact ⟨"/pkg/x.py", problems, ⟨cache, hrun⟩, by decide +kernel⟩

theorem nested_read : nested.files.read "/pkg/sub/m.py" =
    .ok { text := "from . import x\nfrom .. import x as y\n", parse := .tree twoLevels } := rfl

theorem nested_kept : relativeRecord 2 2 "y" ∈
    [relativeRecord 1 1 "x", relativeRecord 2 2 "y"].filter allImports.keeps :=
  List.mem_filter.2 ⟨by simp, rfl⟩

/-- Both imports are kept, and the file of the second one is not among the files of the source. -/
theorem file_of_other_level_lost : ∃ records needs s', twoLevels.imports = .ok records ∧
    Run.dependenciesOf allImports "/pkg/sub/m.py" nested = .ok needs s' ∧
    ∃ r ∈ records.filter allImports.keeps, nested.Means "/pkg/sub/m.py" r "/pkg/x.py" ∧
      "/pkg/x.py" ∉ needs.files := by
  obtain ⟨needs, s', hrun, hfiles⟩ := nested_run
  refine ⟨_, needs, s', twoLevels_imports, hrun, relativeRecord 2 2 "y", nested_kept, nested_means, ?_⟩
  rw [hfiles]
  decide

theorem nested_first_imports :
    (∃ needs s', Run.dependenciesOf allImports "/pkg/sub/m.py" nested = .ok needs s') ∧
      ∃ q, IsFirst ([relativeRecord 1 1 "x", relativeRecord 2 2 "y"].filter allImports.keeps) q ∧
        Finder.startDir (some (Path.parent "/pkg/sub/m.py")) (.int 2) ≠
          Finder.startDir (some (Path.parent "/pkg/sub/m.py")) q.level := by
  obtain ⟨hreturns, hfiles⟩ :=
    @files_of_first_imports allImports "/pkg/sub/m.py" nested _ _ _ rfl nested_read rfl twoLevels_imports
  constructor
  · apply hreturns
    · have hcount : (Text.splitLines (Text.unifyNewlines "from . import x\nfrom .. import x as y\n")).length = 2 := by
        decide +kernel
      intro r hr
      rw [hcount]
      rcases List.mem_pair.1 hr with rfl | rfl
      · exact ⟨⟨"", rfl⟩, .inr ⟨"x", rfl⟩, 1, rfl, by decide, by decide⟩
      · exact ⟨⟨"", rfl⟩, .inr ⟨"x", rfl⟩, 2, rfl, by decide, by decide⟩
    · intro r hr
      rcases List.mem_pair.1 (List.mem_filter.1 hr.mem).1 with rfl | rfl
      · have hrun : ((nested.lookups.importedFile (.str "") (.str "x") (some (Path.parent "/pkg/sub/m.py"))
            (.int 1)).run' []).map Prod.fst = some (some "/pkg/sub/x.py") := by decide +kernel
        obtain ⟨result, cache, hrun, _⟩ := exists_of_run' hrun
        exact ⟨result, cache, hrun⟩
      · obtain ⟨found, problems, hgives, _⟩ := nested_means
        exact ⟨_, hgives⟩
  · obtain ⟨needs, s', hrun, hneeds⟩ := nested_run
    obtain ⟨q, hq, _, hstart⟩ := (hfiles needs s' hrun).2 (relativeRecord 2 2 "y") nested_kept "/pkg/x.py" nested_means
      (by rw [hneeds]; decide)
    exact ⟨q, hq, hstart⟩

end ImportAtlas
