import ImportAtlas.Analysis.Dependencies
import ImportAtlas.Proofs.ModuleCache

/-!
# Sessions that are alike

Two sessions are alike if nothing that a search for dependencies asks is answered differently in them: the files,
the search path, the names passed over, and what the search path gives for a module. Their messages may differ,
and so may what their caches hold. The dependencies of a file are the same in sessions that are alike, and looking
for them leads from one such session to another and prints nothing. Messages alone change even less: what comes
after them is the same session, with another console.
-/

namespace ImportAtlas

namespace Session

def lookups (s : Session) : Finder :=
  { files := s.files, searchPath := s.searchPath, installation := s.installation }

structure Alike (s t : Session) : Prop where
  files : s.files = t.files
  searchPath : s.searchPath = t.searchPath
  installation : s.installation = t.installation
  ignores : s.ignores = t.ignores
  out : s.console.out = t.console.out
  cache : s.lookups.Agree s.cache t.cache

theorem Alike.lookups_eq {s t : Session} (h : Alike s t) : s.lookups = t.lookups := by
  unfold lookups
  rw [h.files, h.searchPath, h.installation]

theorem alike_equivalence : Equivalence Alike where
  refl s := ⟨rfl, rfl, rfl, rfl, rfl, fun _ => rfl⟩
  symm h := by
    refine ⟨h.files.symm, h.searchPath.symm, h.installation.symm, h.ignores.symm, h.out.symm, ?_⟩
    rw [← h.lookups_eq]
    exact (Finder.agree_equivalence _).symm h.cache
  trans h k := by
    refine ⟨h.files.trans k.files, h.searchPath.trans k.searchPath, h.installation.trans k.installation,
      h.ignores.trans k.ignores, h.out.trans k.out, ?_⟩
    have hk := k.cache
    rw [← h.lookups_eq] at hk
    exact (Finder.agree_equivalence _).trans h.cache hk

/-- Nothing but messages lies between the sessions. -/
structure Quiet (s t : Session) : Prop where
  out : s.console.out = t.console.out
  eq : { s with console := t.console } = t

theorem quiet_equivalence : Equivalence Quiet where
  refl s := ⟨rfl, rfl⟩
  symm h := ⟨h.out.symm, by rw [← h.eq]⟩
  trans h k := by
    refine ⟨h.out.trans k.out, ?_⟩
    rw [← k.eq, ← h.eq]

theorem Quiet.alike {s t : Session} (h : Quiet s t) : Alike s t := by
  rw [← h.eq]
  exact ⟨rfl, rfl, rfl, rfl, h.out, fun _ => rfl⟩

theorem Quiet.cache {s t : Session} (h : Quiet s t) : s.cache = t.cache := by
  rw [← h.eq]

theorem Quiet.searchingFirst {s t : Session} (h : Quiet s t) (entries : List Value) :
    Quiet { s with searchPath := entries ++ s.searchPath } { t with searchPath := entries ++ t.searchPath } := by
  rw [← h.eq]
  exact ⟨h.out, rfl⟩

end Session

open Session

namespace Run

theorem get_eq (s : Session) : (get : Run Session) s = .ok s s := rfl

theorem files_eq (s : Session) : files s = .ok s.files s := rfl

theorem finder_eq (s : Session) : finder s = .ok s.lookups s := rfl

theorem message_quiet (level : Level) (text : String) (s : Session) :
    ∃ s', message level text s = .ok () s' ∧ Quiet s s' :=
  ⟨_, rfl, rfl, rfl⟩

theorem respects_of_quiet {R : Session → Session → Prop} (hR : Equivalence R) (hquiet : ∀ s t, Quiet s t → R s t)
    {α : Type} {x : Run α} {a : α} (hx : ∀ s, ∃ s', x s = .ok a s' ∧ Quiet s s') : Respects R x := by
  intro s t h
  obtain ⟨s', hs, hss⟩ := hx s
  obtain ⟨t', ht, htt⟩ := hx t
  rw [hs, ht]
  exact .ok a (hquiet s s' hss) (hR.trans (hR.symm (hquiet s s' hss)) (hR.trans h (hquiet t t' htt)))

theorem respects_message (level : Level) (text : String) : Respects Alike (message level text) :=
  respects_of_quiet alike_equivalence (fun _ _ => Quiet.alike) (message_quiet level text)

theorem respects_files_of {R : Session → Session → Prop} (hR : Equivalence R)
    (hfiles : ∀ s t, R s t → s.files = t.files) : Respects R files := by
  intro s t h
  change SameEnd R s (.ok s.files s) (.ok t.files t)
  rw [hfiles s t h]
  exact .ok _ (hR.refl s) h

theorem respects_files : Respects Alike files :=
  respects_files_of alike_equivalence fun _ _ => Alike.files

theorem respects_lookUp (module symbol : Value) (dir : Option String) (level : Value) :
    Respects Alike (finder >>= fun f => lookUp (f.importedFile module symbol dir level)) := by
  intro s t h
  have hend := Finder.respects_importedFile s.lookups module symbol dir level s.cache t.cache h.cache
  change SameEnd Alike s (lookUp (s.lookups.importedFile module symbol dir level) s)
    (lookUp (t.lookups.importedFile module symbol dir level) t)
  rw [← h.lookups_eq]
  unfold lookUp
  rw [bind_of_ok (get_eq s), bind_of_ok (get_eq t)]
  generalize s.lookups.importedFile module symbol dir level s.cache = rs at hend ⊢
  generalize s.lookups.importedFile module symbol dir level t.cache = rt at hend ⊢
  cases hend with
  | ok a hs ht =>
    exact .ok a ⟨rfl, rfl, rfl, rfl, rfl, hs⟩ ⟨h.files, h.searchPath, h.installation, h.ignores, h.out, ht⟩
  | error e hs ht =>
    exact .error e ⟨rfl, rfl, rfl, rfl, rfl, hs⟩ ⟨h.files, h.searchPath, h.installation, h.ignores, h.out, ht⟩

theorem readSource_eq {path : String} {s : Session} {source : Source} {t : Tree}
    (hread : s.files.read path = .ok source) (hparse : source.parse = .tree t) : readSource path s =
      .ok { tree := some t, lines := some (Text.splitLines (Text.unifyNewlines source.text)) } s := by
  unfold readSource
  rw [bind_of_ok (files_eq s), hread]
  dsimp only
  rw [hparse]
  rfl

theorem respects_readSource (path : String) : Respects Alike (readSource path) := by
  have hE := alike_equivalence
  have hreport : ∀ (text : String) (p : ParsedFile), Respects Alike (do message .error text; return p) :=
    fun text p => respects_bind hE (respects_message .error text) fun _ => respects_pure hE p
  refine respects_bind hE respects_files fun fs => ?_
  split
  · exact hreport _ _
  · dsimp only
    split
    · exact respects_pure hE _
    · exact hreport _ _
    · exact hreport _ _
    · exact hreport _ _
    · exact hreport _ _
    · exact respects_throw hE _

theorem respects_reportOptional (r : ImportRecord) : Respects Alike (reportOptional r) := by
  have hE := alike_equivalence
  unfold reportOptional
  split
  · exact respects_bind hE (respects_lift hE _) fun _ => respects_message _ _
  · exact respects_message _ _

theorem respects_reportProblem (lines : Option (List String)) (line : Value) (p : Problem) :
    Respects Alike (reportProblem lines line p) := by
  have hE := alike_equivalence
  refine respects_bind hE (respects_lift hE _) fun _ => respects_bind hE (respects_message _ _) fun _ => ?_
  split
  · exact respects_bind hE (respects_lift hE _) fun _ => respects_message _ _
  · exact respects_throw hE _
  · exact respects_pure hE _

theorem respects_needsOf (options : SearchOptions) (dir : String) (lines : Option (List String))
    (state : Needs × List Value) (record : Value) : Respects Alike (needsOf options dir lines state record) := by
  have hE := alike_equivalence
  unfold needsOf
  refine respects_bind hE (respects_lift hE _) fun r => ?_
  split
  · exact respects_bind hE (respects_reportOptional r) fun _ => respects_pure hE _
  · refine respects_bind hE (respects_lift hE _) fun sign => ?_
    split
    · exact respects_pure hE _
    · dsimp only
      rw [← bind_assoc]
      refine respects_bind hE (respects_lookUp _ _ _ _) fun found => ?_
      refine respects_bind hE (respects_forM hE (respects_reportProblem lines r.line) _) fun _ => ?_
      split
      · exact respects_pure hE _
      · exact respects_bind hE respects_files fun _ => respects_pure hE _

theorem respects_dependenciesOf (options : SearchOptions) (path : String) :
    Respects Alike (dependenciesOf options path) := by
  have hE := alike_equivalence
  refine respects_bind hE (respects_readSource path) fun source => ?_
  split
  · exact respects_pure hE _
  · refine respects_bind hE (respects_lift hE _) fun considered => ?_
    exact respects_bind hE (respects_foldlM hE (respects_needsOf _ _ _) _ _) fun _ => respects_pure hE _

end Run

end ImportAtlas
