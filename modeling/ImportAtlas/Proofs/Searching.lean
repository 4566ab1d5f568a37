import ImportAtlas.Proofs.DependencyTable
import ImportAtlas.Proofs.FoundFiles
import ImportAtlas.Tools.Deps
import Mathlib.Data.Finset.Card

/-!
# Searches

A search processes the given files and, if targets are followed, in further rounds the targets that it accepts. Which
sources it shows and which targets it accepts depends on the side of the roots on which they lie. Whatever is asked
for, the rounds come to an end, because every round but the last processes a candidate that was not processed before.
What has been found then is said without the order in which the files were processed.
-/

namespace ImportAtlas.Tools

open Session

/-! ## Targets and references of a file -/

def targets (settings : DepsSettings) (s : Session) (file : String) : Except Fault (List String) :=
  match needsOf settings file s with
  | .ok needs _ => .ok needs.files
  | .error fault _ => .error fault

def node (settings : DepsSettings) (s : Session) (file : String) : Except Fault Ref :=
  (fun place => ⟨some place.1, some place.2⟩) <$> s.files.relativeTo (.names settings.ignores) (withoutInit file)

section

variable {settings : DepsSettings} {s t s' : Session} {file : String} {ds : List String} {needs : Needs}

theorem node_alike (h : Alike s t) : node settings t = node settings s := by
  funext file
  rw [node, node, h.files]

theorem node_inv {r : Ref} (h : node settings s file = .ok r) : ∃ root name, r = ⟨some root, some name⟩ ∧
    s.files.relativeTo (.names settings.ignores) (withoutInit file) = .ok (root, name) := by
  unfold node at h
  cases hrel : s.files.relativeTo (.names settings.ignores) (withoutInit file) with
  | error fault =>
    rw [hrel] at h
    cases h
  | ok place =>
    rw [hrel] at h
    cases h
    exact ⟨place.1, place.2, rfl, rfl⟩

theorem respects_needsOf (settings : DepsSettings) (file : String) : Respects Alike (needsOf settings file) := by
  refine respects_bind alike_equivalence Run.respects_files fun fs => ?_
  split
  · exact Run.respects_dependenciesOf _ _
  · exact respects_pure alike_equivalence _

theorem targets_alike (h : Alike s t) : targets settings t = targets settings s := by
  funext file
  have hend := respects_needsOf settings file s t h
  unfold targets
  generalize needsOf settings file s = rs at hend ⊢
  generalize needsOf settings file t = rt at hend ⊢
  cases hend with
  | ok needs _ _ => rfl
  | error fault _ _ => rfl

theorem targets_eq (h : needsOf settings file s = .ok needs s') : targets settings s file = .ok needs.files := by
  rw [targets, h]

theorem exists_needs (h : targets settings s file = .ok ds) :
    ∃ needs s', needsOf settings file s = .ok needs s' ∧ needs.files = ds := by
  unfold targets at h
  cases hn : needsOf settings file s with
  | ok needs s' => rw [hn] at h; cases h; exact ⟨needs, s', rfl, rfl⟩
  | error fault s' => rw [hn] at h; cases h

theorem findable_of_targets (h : targets settings s file = .ok ds) {d : String} (hd : d ∈ ds) : s.Findable d := by
  obtain ⟨needs, s', hn, rfl⟩ := exists_needs h
  unfold needsOf at hn
  rw [bind_of_ok (Run.files_eq s)] at hn
  split at hn
  · exact (needs_of_dependenciesOf hn).1 d hd
  · obtain ⟨rfl, _⟩ := pure_inv hn
    cases hd

theorem needsOf_named (hunused : settings.ignoreUnused = false) (h : needsOf settings file s = .ok needs s') :
    ∀ p ∈ needs.problems, p.Named := by
  unfold needsOf at h
  rw [bind_of_ok (Run.files_eq s)] at h
  split at h
  · exact (needs_of_dependenciesOf h).2 hunused
  · obtain ⟨rfl, _⟩ := pure_inv h
    exact List.forall_mem_nil _

end

/-! ## What is shown and what is accepted -/

def Inside (roots : List String) (r : Ref) : Prop := ∃ root ∈ roots, r.root = some root

namespace DepsSettings

variable (settings : DepsSettings) (roots : List String) (r : Ref)

/-- Sources outside the roots are not shown if only inner dependencies are wanted. -/
def Shows : Prop := 0 < settings.internal → Inside roots r

def Accepts : Prop := (0 < settings.internal → Inside roots r) ∧ (settings.external = true → ¬ Inside roots r)

instance : Decidable (Inside roots r) := inferInstanceAs (Decidable (∃ root ∈ roots, r.root = some root))

instance : Decidable (settings.Shows roots r) := inferInstanceAs (Decidable (_ → _))

instance : Decidable (settings.Accepts roots r) := inferInstanceAs (Decidable (_ ∧ _))

end DepsSettings

section

variable (settings : DepsSettings) (roots : List String) (s : Session)

def Brings (f d : String) : Prop :=
  (∃ n, node settings s f = .ok n ∧ settings.Shows roots n) ∧
    ∃ ds, targets settings s f = .ok ds ∧ d ∈ ds ∧ ∃ r, node settings s d = .ok r ∧ settings.Accepts roots r

def Draws (f : String) (p : Dependency) : Prop :=
  node settings s f = .ok p.source ∧ settings.Shows roots p.source ∧
    (settings.external = false ∧ p.target = Ref.nothing ∨
      ∃ ds, targets settings s f = .ok ds ∧
        ∃ d ∈ ds, node settings s d = .ok p.target ∧ settings.Accepts roots p.target)

instance (f : String) (p : Dependency) : Decidable (Draws settings roots s f p) := by
  unfold Draws
  infer_instance

/-- The file has its targets and its reference and, if it is shown, so do its targets theirs. -/
def Fit (f : String) : Prop :=
  ∃ ds n, targets settings s f = .ok ds ∧ node settings s f = .ok n ∧
    (settings.Shows roots n → ∀ d ∈ ds, ∃ r, node settings s d = .ok r)

/-- The file is given or, if targets are followed, brought by such a file, and so on. -/
inductive Visited (given : Set String) : String → Prop
  | given {f : String} : f ∈ given → Visited given f
  | target {f d : String} : settings.follow = true → Visited given f → Brings settings roots s f d → Visited given d

end

/-! ## Adding one source -/

def cited (settings : DepsSettings) (s : Session) (d : String) : Except Fault (String × Ref) :=
  (fun r => (d, r)) <$> node settings s d

theorem cited_eq_ok {settings : DepsSettings} {s : Session} {d : String} {k : String × Ref} :
    cited settings s d = .ok k ↔ d = k.1 ∧ node settings s d = .ok k.2 := by
  unfold cited
  cases node settings s d with
  | error fault => simp [Functor.map, Except.map]
  | ok r =>
    obtain ⟨d', r'⟩ := k
    simp [Functor.map, Except.map]

theorem cited_eq_error {settings : DepsSettings} {s : Session} {d : String} {fault : Fault} :
    cited settings s d = .error fault ↔ node settings s d = .error fault := by
  unfold cited
  cases node settings s d <;> simp [Functor.map, Except.map]

theorem cited_alike {settings : DepsSettings} {s t : Session} (h : Alike s t) :
    cited settings t = cited settings s := by
  funext d
  rw [cited, cited, node_alike h]

namespace Found

def noted (found : Found) (path : String) (problems : List Problem) : Found :=
  { found with problems := found.problems ++ problems, processed := found.processed ++ [path] }

def withSource (found : Found) (settings : DepsSettings) (n : Ref) : Found :=
  if settings.external then found else { found with table := Depends.add found.table n.value Ref.nothing.value }

def withTargets (found : Found) (n : Ref) (ks : List (String × Ref)) : Found :=
  { found with
    table := (ks.map (·.2)).foldl (fun table r => Depends.add table n.value r.value) found.table
    fresh := found.fresh ++ ks.map (·.1) }

@[simp] theorem withSource_processed (found : Found) (settings : DepsSettings) (n : Ref) :
    (found.withSource settings n).processed = found.processed := by
  unfold withSource
  split <;> rfl

@[simp] theorem withSource_fresh (found : Found) (settings : DepsSettings) (n : Ref) :
    (found.withSource settings n).fresh = found.fresh := by
  unfold withSource
  split <;> rfl

@[simp] theorem withSource_problems (found : Found) (settings : DepsSettings) (n : Ref) :
    (found.withSource settings n).problems = found.problems := by
  unfold withSource
  split <;> rfl

theorem withTargets_nil (found : Found) (n : Ref) : found.withTargets n [] = found := by
  simp [withTargets]

theorem withTargets_append (found : Found) (n : Ref) (ks ks' : List (String × Ref)) :
    found.withTargets n (ks ++ ks') = (found.withTargets n ks).withTargets n ks' := by
  simp [withTargets]

end Found

section

variable (settings : DepsSettings) (roots : List String)

theorem shows_iff (root name : String) : settings.Shows roots ⟨some root, some name⟩ ↔
    ¬ (decide (0 < settings.internal) && decide (root ∉ roots)) = true := by
  simp [DepsSettings.Shows, Inside]

theorem accepts_iff (root name : String) : settings.Accepts roots ⟨some root, some name⟩ ↔
    ¬ ((decide (0 < settings.internal) && !decide (root ∈ roots)) ||
      (settings.external && decide (root ∈ roots))) = true := by
  simp [DepsSettings.Accepts, Inside]

theorem addTarget_eq (found : Found) (n : Ref) (d : String) (t : Session) :
    addTarget settings roots n.value found d t = (liftM (cited settings t d) >>= fun k =>
      pure (found.withTargets n ([k].filter fun k => settings.Accepts roots k.2)) : Run Found) t := by
  unfold addTarget referenceTo cited node
  rw [bind_assoc, bind_of_ok (Run.files_eq t)]
  cases t.files.relativeTo (.names settings.ignores) (withoutInit d) with
  | error fault => rfl
  | ok place =>
    obtain ⟨root, name⟩ := place
    change (if _ then pure found else _ : Run Found) t = (pure (found.withTargets n ([(d, _)].filter _)) : Run Found) t
    by_cases h : settings.Accepts roots ⟨some root, some name⟩
    · rw [List.filter_cons_of_pos (by simpa using h), if_neg ((accepts_iff settings roots root name).1 h)]
      rfl
    · rw [List.filter_cons_of_neg (by simpa using h),
        if_pos (not_not.1 (mt (accepts_iff settings roots root name).2 h)), List.filter_nil, Found.withTargets_nil]

theorem addTargets_eq (n : Ref) (ds : List String) (t : Session) :
    ∀ found, ds.foldlM (addTarget settings roots n.value) found t = (liftM (ds.mapM (cited settings t)) >>= fun ks =>
      pure (found.withTargets n (ks.filter fun k => settings.Accepts roots k.2)) : Run Found) t := by
  induction ds with
  | nil =>
    intro found
    change EStateM.Result.ok found t = .ok (found.withTargets n []) t
    rw [Found.withTargets_nil]
  | cons d ds ih =>
    intro found
    have hadd := addTarget_eq settings roots found n d t
    rw [List.foldlM_cons, List.mapM_cons]
    cases hk : cited settings t d with
    | error fault =>
      rw [hk] at hadd
      change EStateM.bind _ _ t = _
      rw [EStateM.bind, hadd]
      rfl
    | ok k =>
      rw [hk] at hadd
      rw [bind_of_ok hadd, ih]
      cases ds.mapM (cited settings t) with
      | error fault => rfl
      | ok ks =>
        change EStateM.Result.ok ((found.withTargets n ([k].filter _)).withTargets n (ks.filter _)) t =
          .ok (found.withTargets n (([k] ++ ks).filter _)) t
        rw [List.filter_append, Found.withTargets_append]

theorem addNeeds_eq (found : Found) (path : String) (needs : Needs) (t : Session) :
    addNeeds settings roots found path needs t = (liftM (node settings t path) >>= fun n =>
      if settings.Shows roots n then liftM (needs.files.mapM (cited settings t)) >>= fun ks =>
        pure (((found.noted path needs.problems).withSource settings n).withTargets n
          (ks.filter fun k => settings.Accepts roots k.2))
      else pure (found.noted path needs.problems) : Run Found) t := by
  unfold addNeeds referenceTo
  dsimp only
  rw [bind_assoc, bind_of_ok (Run.files_eq t)]
  cases hr : t.files.relativeTo (.names settings.ignores) (withoutInit path) with
  | error fault =>
    have hn : node settings t path = .error fault := by rw [node, hr]; rfl
    rw [hn]
    rfl
  | ok place =>
    obtain ⟨root, name⟩ := place
    have hn : node settings t path = .ok ⟨some root, some name⟩ := by rw [node, hr]; rfl
    have hshows := shows_iff settings roots root name
    rw [lift_bind_of_ok hn]
    change (if _ then _ else _ : Run Found) t = _
    by_cases h : settings.Shows roots ⟨some root, some name⟩
    · rw [if_pos h, if_neg (hshows.1 h), ← addTargets_eq]
      unfold Found.withSource
      split
      · rfl
      · rfl
    · rw [if_neg h, if_pos (not_not.1 (mt hshows.2 h))]
      rfl

end

structure Adds (settings : DepsSettings) (roots : List String) (s : Session) (path : String) (found found' : Found) :
    Prop where
  processed : found'.processed = found.processed ++ [path]
  fresh (d : String) : d ∈ found'.fresh ↔ d ∈ found.fresh ∨ Brings settings roots s path d
  table {P : Dependency → Prop} : Holds found.table P → Holds found'.table fun p => P p ∨ Draws settings roots s path p
  filled : Filled found.table → Filled found'.table
  named : settings.ignoreUnused = false → (∀ p ∈ found.problems, p.Named) → ∀ p ∈ found'.problems, p.Named

section

variable {settings : DepsSettings} {roots : List String} {found found' : Found} {path : String} {needs : Needs}
  {n : Ref} {ks : List (String × Ref)} {start s s' t t' : Session}

theorem adds_hidden (hnamed : settings.ignoreUnused = false → ∀ p ∈ needs.problems, p.Named)
    (hn : node settings s path = .ok n) (hhidden : ¬ settings.Shows roots n) :
    Adds settings roots s path found (found.noted path needs.problems) := by
  have hbrings : ∀ d, ¬ Brings settings roots s path d := by
    rintro d ⟨⟨n', hn', hshows⟩, _⟩
    cases hn.symm.trans hn'
    exact hhidden hshows
  have hdraws : ∀ p, ¬ Draws settings roots s path p := by
    rintro p ⟨hn', hshows, _⟩
    cases hn.symm.trans hn'
    exact hhidden hshows
  refine ⟨rfl, fun d => (or_iff_left (hbrings d)).symm, fun h => h.congr fun p => (or_iff_left (hdraws p)).symm, id, ?_⟩
  exact fun hunused h => List.forall_mem_append.2 ⟨h, hnamed hunused⟩

theorem holds_withSource {P : Dependency → Prop} (found : Found) (h : Holds found.table P) :
    Holds (found.withSource settings n).table fun p => P p ∨ settings.external = false ∧ p = ⟨n, Ref.nothing⟩ := by
  unfold Found.withSource
  split
  · rename_i hexternal
    simpa [hexternal] using h
  · rename_i hexternal
    exact h.add ⟨n, Ref.nothing⟩ fun p => by simp [hexternal]

theorem filled_withSource (found : Found) (h : Filled found.table) : Filled (found.withSource settings n).table := by
  unfold Found.withSource
  split
  · exact h
  · exact h.add _ _

theorem mem_accepted (roots : List String) {ds : List String} (hks : ds.mapM (cited settings s) = .ok ks)
    (k : String × Ref) :
    k ∈ (ks.filter fun k => settings.Accepts roots k.2) ↔
      k.1 ∈ ds ∧ node settings s k.1 = .ok k.2 ∧ settings.Accepts roots k.2 := by
  rw [List.mem_filter, mem_of_mapM hks, decide_eq_true_iff, ← and_assoc]
  refine and_congr_left fun _ => ?_
  simp only [cited_eq_ok]
  constructor
  · rintro ⟨d, hd, rfl, hr⟩
    exact ⟨hd, hr⟩
  · rintro ⟨hd, hr⟩
    exact ⟨k.1, hd, rfl, hr⟩

theorem adds_shown (hnamed : settings.ignoreUnused = false → ∀ p ∈ needs.problems, p.Named)
    (hds : targets settings s path = .ok needs.files) (hn : node settings s path = .ok n)
    (hshows : settings.Shows roots n) (hks : needs.files.mapM (cited settings s) = .ok ks) :
    Adds settings roots s path found (((found.noted path needs.problems).withSource settings n).withTargets n
      (ks.filter fun k => settings.Accepts roots k.2)) := by
  have hmem := mem_accepted roots hks
  generalize (ks.filter fun k => settings.Accepts roots k.2) = accepted at hmem ⊢
  refine ⟨?_, fun d => ?_, fun h => ?_, fun h => ?_, fun hunused h => ?_⟩
  · simp [Found.withTargets, Found.noted]
  · have hbrings : Brings settings roots s path d ↔ d ∈ accepted.map (·.1) := by
      simp [Brings, hn, hshows, hds, hmem]
    simp [Found.withTargets, Found.noted, hbrings]
  · refine ((holds_withSource (found.noted path needs.problems) h).foldl_add n _).congr fun p => ?_
    have hp : p = ⟨n, Ref.nothing⟩ ↔ p.source = n ∧ p.target = Ref.nothing := by
      cases p; simp
    have hsource : node settings s path = .ok p.source ↔ p.source = n := by
      rw [hn, Except.ok.injEq, eq_comm]
    have htarget : (∃ ds, targets settings s path = .ok ds ∧ ∃ d ∈ ds, node settings s d = .ok p.target ∧
        settings.Accepts roots p.target) ↔ p.target ∈ accepted.map (·.2) := by
      simp [hds, hmem]
    rw [Draws, hsource, hp, htarget, or_assoc, and_left_comm, ← and_or_left]
    refine or_congr_right (and_congr_right fun hpn => ?_)
    rw [hpn]
    exact (and_iff_right hshows).symm
  · exact Filled.foldl_add (filled_withSource (found.noted path needs.problems) h) n _
  · rw [Found.withTargets, Found.withSource_problems]
    exact List.forall_mem_append.2 ⟨h, hnamed hunused⟩

theorem addNeeds_inv (hnamed : settings.ignoreUnused = false → ∀ p ∈ needs.problems, p.Named) (hlike : Alike start t)
    (hds : targets settings start path = .ok needs.files)
    (h : addNeeds settings roots found path needs t = .ok found' t') :
    t = t' ∧ Fit settings roots start path ∧ Adds settings roots start path found found' := by
  rw [addNeeds_eq, node_alike hlike, cited_alike hlike] at h
  obtain ⟨n, hn, h⟩ := lift_bind_inv h
  split at h
  · rename_i hshows
    obtain ⟨ks, hks, h⟩ := lift_bind_inv h
    obtain ⟨rfl, rfl⟩ := pure_inv h
    refine ⟨rfl, ⟨_, n, hds, hn, fun _ d hd => ?_⟩, adds_shown hnamed hds hn hshows hks⟩
    obtain ⟨k, hk⟩ := of_mapM_ok hks d hd
    exact ⟨k.2, (cited_eq_ok.1 hk).2⟩
  · rename_i hhidden
    obtain ⟨rfl, rfl⟩ := pure_inv h
    exact ⟨rfl, ⟨_, n, hds, hn, fun hshows => absurd hshows hhidden⟩, adds_hidden hnamed hn hhidden⟩

theorem addNeeds_ok (found : Found) (hlike : Alike start t) (hds : targets settings start path = .ok needs.files)
    (hfit : Fit settings roots start path) : ∃ found', addNeeds settings roots found path needs t = .ok found' t := by
  obtain ⟨ds, n, hds', hn, hnodes⟩ := hfit
  cases hds.symm.trans hds'
  rw [addNeeds_eq, node_alike hlike, cited_alike hlike, lift_bind_of_ok hn]
  split
  · rename_i hshows
    obtain ⟨ks, hks⟩ : ∃ ks, needs.files.mapM (cited settings start) = .ok ks := by
      refine mapM_ok fun d hd => ?_
      obtain ⟨r, hr⟩ := hnodes hshows d hd
      exact ⟨(d, r), cited_eq_ok.2 ⟨rfl, hr⟩⟩
    rw [lift_bind_of_ok hks]
    exact ⟨_, rfl⟩
  · exact ⟨_, rfl⟩

/-- A source that has been processed changes nothing. -/
theorem addSource_inv (hlike : Alike start t) (h : addSource settings roots found path t = .ok found' t') :
    Alike start t' ∧ (path ∈ found.processed ∧ found' = found ∨
      path ∉ found.processed ∧ Fit settings roots start path ∧ Adds settings roots start path found found') := by
  unfold addSource at h
  split at h
  · rename_i hold
    obtain ⟨rfl, rfl⟩ := pure_inv h
    exact ⟨hlike, .inl ⟨hold, rfl⟩⟩
  · rename_i hnew
    obtain ⟨t₁, hmessage, hquiet⟩ := Run.message_quiet .info ("  " ++ path) t
    rw [bind_of_ok hmessage] at h
    obtain ⟨needs, t₂, hneeds, h⟩ := bind_inv h
    have hlike₁ := alike_equivalence.trans hlike hquiet.alike
    obtain ⟨_, hneeds', hlike₂, _⟩ := (respects_needsOf settings path).ok (alike_equivalence.symm hlike₁) hneeds
    have hlike₂ := alike_equivalence.trans hlike₁ hlike₂
    obtain ⟨rfl, hfit, hadds⟩ := addNeeds_inv (needsOf_named · hneeds) hlike₂ (targets_eq hneeds') h
    exact ⟨hlike₂, .inr ⟨hnew, hfit, hadds⟩⟩

theorem addSource_ok (hlike : Alike start t) (hfit : Fit settings roots start path) :
    ∃ found' t', addSource settings roots found path t = .ok found' t' := by
  unfold addSource
  split
  · exact ⟨found, t, rfl⟩
  · obtain ⟨t₁, hmessage, hquiet⟩ := Run.message_quiet .info ("  " ++ path) t
    have hlike₁ := alike_equivalence.trans hlike hquiet.alike
    obtain ⟨ds, n, hds, _, _⟩ := id hfit
    obtain ⟨needs, s', hneeds, rfl⟩ := exists_needs hds
    obtain ⟨t₂, hneeds', hlike₂, hlike₃⟩ := (respects_needsOf settings path).ok hlike₁ hneeds
    obtain ⟨found', hadd⟩ := addNeeds_ok found (alike_equivalence.trans hlike₂ hlike₃) hds hfit
    rw [bind_of_ok hmessage, bind_of_ok hneeds']
    exact ⟨found', t₂, hadd⟩

/-- A source stops the search where it has no targets, or where it or one of its targets has no reference. -/
theorem addSource_error {fault : Fault} (hlike : Alike start t)
    (h : addSource settings roots found path t = .error fault t') :
    targets settings start path = .error fault ∨ ∃ f, node settings start f = .error fault := by
  unfold addSource at h
  split at h
  · cases h
  · obtain ⟨t₁, hmessage, hquiet⟩ := Run.message_quiet .info ("  " ++ path) t
    have hlike₁ := alike_equivalence.trans hlike hquiet.alike
    rw [bind_of_ok hmessage] at h
    rcases bind_error_inv h with hneeds | ⟨needs, t₂, hneeds, h⟩
    · left
      rw [← targets_alike hlike₁, targets, hneeds]
    · right
      obtain ⟨_, _, hlike₂, _⟩ := (respects_needsOf settings path).ok (alike_equivalence.refl t₁) hneeds
      have hlike₂ := alike_equivalence.trans hlike₁ hlike₂
      rw [addNeeds_eq, node_alike hlike₂, cited_alike hlike₂] at h
      rcases lift_bind_error_inv h with hnode | ⟨n, _, h⟩
      · exact ⟨path, hnode⟩
      · split at h
        · rcases lift_bind_error_inv h with hcited | ⟨_, _, h⟩
          · obtain ⟨d, _, hd⟩ := mapM_error hcited
            exact ⟨d, cited_eq_error.1 hd⟩
          · cases h
        · cases h

end

/-! ## What has been found on the way -/

/-- Files in `todo` are still to be processed in this round, and fresh targets in the next one. -/
structure Progress (settings : DepsSettings) (roots : List String) (start : Session) (given todo : Set String)
    (found : Found) (t : Session) : Prop where
  alike : Alike start t
  nodup : found.processed.Nodup
  given_mem : ∀ f ∈ given, f ∈ found.processed ∨ f ∈ todo
  visited : ∀ f, f ∈ found.processed ∨ f ∈ todo → Visited settings roots start given f
  fit : ∀ f ∈ found.processed, Fit settings roots start f
  done : ∀ f ∈ found.processed, ∀ d, Brings settings roots start f d →
    d ∈ found.processed ∨ d ∈ found.fresh ∨ d ∈ todo
  fresh : ∀ d ∈ found.fresh, ∃ f ∈ found.processed, Brings settings roots start f d
  table : Holds found.table fun p => ∃ f ∈ found.processed, Draws settings roots start f p
  filled : Filled found.table
  named : settings.ignoreUnused = false → ∀ p ∈ found.problems, p.Named

section

variable {settings : DepsSettings} {roots : List String} {start t t' : Session} {given todo : Set String}
  {found found' : Found} {path : String}

theorem Progress.again (h : Progress settings roots start given (insert path todo) found t)
    (hold : path ∈ found.processed) : Progress settings roots start given todo found t := by
  have hleave : ∀ {f}, f ∈ insert path todo → f ∈ found.processed ∨ f ∈ todo := by
    rintro f (rfl | hf)
    · exact .inl hold
    · exact .inr hf
  refine { h with given_mem := fun f hf => ?_, visited := fun f hf => ?_, done := fun f hf d hd => ?_ }
  · exact (h.given_mem f hf).elim .inl hleave
  · exact h.visited f (hf.imp_right (Set.mem_insert_of_mem path))
  · rcases h.done f hf d hd with hd | hd | hd
    · exact .inl hd
    · exact .inr (.inl hd)
    · exact (hleave hd).imp_right .inr

theorem Progress.new (h : Progress settings roots start given (insert path todo) found t)
    (hnew : path ∉ found.processed) (hfit : Fit settings roots start path)
    (hadds : Adds settings roots start path found found') : Progress settings roots start given todo found' t := by
  have hmem : ∀ f, f ∈ found'.processed ↔ f ∈ found.processed ∨ f = path := by
    intro f
    rw [hadds.processed, List.mem_append, List.mem_singleton]
  have hleave : ∀ {f}, f ∈ insert path todo → f ∈ found'.processed ∨ f ∈ todo := by
    rintro f (rfl | hf)
    · exact .inl ((hmem f).2 (.inr rfl))
    · exact .inr hf
  refine ⟨h.alike, ?_, fun f hf => ?_, fun f hf => ?_, fun f hf => ?_, fun f hf d hd => ?_, fun d hd => ?_, ?_,
    hadds.filled h.filled, fun hunused => hadds.named hunused (h.named hunused)⟩
  · rw [hadds.processed, ← List.concat_eq_append]
    exact List.Nodup.concat hnew h.nodup
  · exact (h.given_mem f hf).elim (fun hf => .inl ((hmem f).2 (.inl hf))) hleave
  · rw [hmem, or_assoc] at hf
    exact h.visited f hf
  · rcases (hmem f).1 hf with hf | rfl
    · exact h.fit f hf
    · exact hfit
  · rcases (hmem f).1 hf with hf | rfl
    · rcases h.done f hf d hd with hd | hd | hd
      · exact .inl ((hmem d).2 (.inl hd))
      · exact .inr (.inl ((hadds.fresh d).2 (.inl hd)))
      · exact (hleave hd).imp_right .inr
    · exact .inr (.inl ((hadds.fresh d).2 (.inr hd)))
  · rcases (hadds.fresh d).1 hd with hd | hd
    · obtain ⟨f, hf, hfd⟩ := h.fresh d hd
      exact ⟨f, (hmem f).2 (.inl hf), hfd⟩
    · exact ⟨path, (hmem path).2 (.inr rfl), hd⟩
  · refine (hadds.table h.table).congr fun p => ?_
    simp only [hmem, or_and_right, exists_or, exists_eq_left]

theorem Progress.step (h : Progress settings roots start given (insert path todo) found t)
    (hrun : addSource settings roots found path t = .ok found' t') :
    Progress settings roots start given todo found' t' := by
  obtain ⟨hlike, ⟨hold, rfl⟩ | ⟨hnew, hfit, hadds⟩⟩ := addSource_inv h.alike hrun
  · exact { h.again hold with alike := hlike }
  · exact { h.new hnew hfit hadds with alike := hlike }

end

/-! ## Rounds -/

def asked (items : List FileSystem.Found) : Set String := {f | FileSystem.Found.file f ∈ items}

theorem asked_file (path : String) (items : List FileSystem.Found) :
    asked (.file path :: items) = insert path (asked items) := by
  ext f
  simp [asked]

theorem asked_missing (path : String) (items : List FileSystem.Found) :
    asked (.missing path :: items) = asked items := by
  ext f
  simp [asked]

theorem foldlM_file (settings : DepsSettings) (roots next : List String) (found : Found) :
    (next.map .file).foldlM (addFound settings roots) found = next.foldlM (addSource settings roots) found :=
  List.foldlM_map

section

variable {settings : DepsSettings} {roots : List String} {start t t' : Session} {given : Set String}
  {found found' : Found} {item : FileSystem.Found} {items : List FileSystem.Found} {next : List String}

theorem Progress.addFound (h : Progress settings roots start given (asked (item :: items)) found t)
    (hrun : addFound settings roots found item t = .ok found' t') :
    Progress settings roots start given (asked items) found' t' := by
  cases item with
  | file path =>
    rw [asked_file] at h
    exact h.step hrun
  | missing path =>
    rw [asked_missing] at h
    obtain ⟨t₁, hmessage, hquiet⟩ := Run.message_quiet .warning ("File '" ++ path ++ "' does not exist.") t
    change (Run.message _ _ >>= _) t = _ at hrun
    rw [bind_of_ok hmessage] at hrun
    obtain ⟨rfl, rfl⟩ := pure_inv hrun
    exact { h with alike := alike_equivalence.trans h.alike hquiet.alike }

def Stops (settings : DepsSettings) (roots : List String) (start : Session) (given : Set String) (fault : Fault) :
    Prop :=
  ∃ found path t t', Visited settings roots start given path ∧ Alike start t ∧
    addSource settings roots found path t = .error fault t'

theorem Progress.round (h : Progress settings roots start given (asked items) found t) :
    (∃ found' t', items.foldlM (Tools.addFound settings roots) found t = .ok found' t' ∧
      Progress settings roots start given ∅ found' t') ∨
    ∃ fault t', items.foldlM (Tools.addFound settings roots) found t = .error fault t' ∧
      Stops settings roots start given fault := by
  -- the invariant speaks of the items still to come, of which nothing is left in the end
  have hstep : ∀ done x rest b s b' s', done ++ x :: rest = items →
      (∀ rest, done ++ rest = items → Progress settings roots start given (asked rest) b s) →
      Tools.addFound settings roots b x s = .ok b' s' →
      ∀ rest, done ++ [x] ++ rest = items → Progress settings roots start given (asked rest) b' s' := by
    intro done x _ b s b' s' _ hb hstep rest hrest
    refine (hb (x :: rest) ?_).addFound hstep
    rw [← hrest, List.append_assoc]
    rfl
  have hstart : ∀ rest, [] ++ rest = items → Progress settings roots start given (asked rest) found t := by
    rintro rest rfl
    exact h
  rcases foldlM_cases _ hstep hstart with
    ⟨found', t', hrun, hall⟩ | ⟨done, x, rest, b, s, fault, t', hrest, hb, hx, hrun⟩
  · have hend := hall [] (List.append_nil items)
    rw [show asked [] = ∅ by simp [asked]] at hend
    exact .inl ⟨found', t', hrun, hend⟩
  · have hnow := hb (x :: rest) hrest
    cases x with
    | missing path => cases hx
    | file path =>
      rw [asked_file] at hnow
      exact .inr ⟨fault, t', hrun, b, path, s, t', hnow.visited path (.inr (.inl rfl)), hnow.alike, hx⟩

theorem Progress.run (h : Progress settings roots start given (asked items) found t)
    (hrun : items.foldlM (Tools.addFound settings roots) found t = .ok found' t') :
    Progress settings roots start given ∅ found' t' := by
  rcases h.round with ⟨_, _, hrun', hend⟩ | ⟨_, _, hrun', _⟩
  · cases hrun'.symm.trans hrun
    exact hend
  · cases hrun'.symm.trans hrun

theorem mem_processed_of_addSource (hlike : Alike start t) {path : String}
    (hrun : addSource settings roots found path t = .ok found' t') (f : String) :
    f ∈ found'.processed ↔ f ∈ found.processed ∨ f = path := by
  obtain ⟨_, ⟨hold, rfl⟩ | ⟨_, _, hadds⟩⟩ := addSource_inv hlike hrun
  · refine (or_iff_left_of_imp ?_).symm
    rintro rfl
    exact hold
  · rw [hadds.processed, List.mem_append, List.mem_singleton]

theorem mem_processed_of_round (hlike : Alike start t)
    (hrun : next.foldlM (addSource settings roots) found t = .ok found' t') (f : String) :
    f ∈ found'.processed ↔ f ∈ found.processed ∨ f ∈ next := by
  suffices hall : Alike start t' ∧ ∀ f, f ∈ found'.processed ↔ f ∈ found.processed ∨ f ∈ next from hall.2 f
  refine foldlM_run (fun done b s => Alike start s ∧ ∀ f, f ∈ b.processed ↔ f ∈ found.processed ∨ f ∈ done) ?_ ?_ hrun
  · rintro done x rest b s b' s' _ ⟨hlike, hb⟩ hstep
    refine ⟨(addSource_inv hlike hstep).1, fun f => ?_⟩
    rw [mem_processed_of_addSource hlike hstep, hb, List.mem_append, List.mem_singleton, or_assoc]
  · exact ⟨hlike, by simp⟩

theorem round_of_processed (hold : ∀ f ∈ next, f ∈ found.processed)
    (hrun : next.foldlM (addSource settings roots) found t = .ok found' t') : found' = found := by
  refine foldlM_run (fun _ b _ => b = found) ?_ rfl hrun
  rintro done x rest b s b' s' hnext rfl hstep
  unfold addSource at hstep
  rw [if_pos (hold x (by rw [← hnext]; simp))] at hstep
  exact (pure_inv hstep).1.symm

def unprocessed (start : Session) (found : Found) : Nat :=
  (start.candidates.toFinset \ found.processed.toFinset).card

theorem Progress.turn (hfollow : settings.follow = true) (h : Progress settings roots start given ∅ found t)
    (hnext : ∀ f, f ∈ next ↔ f ∈ found.fresh) :
    Progress settings roots start given (asked (next.map .file)) { found with fresh := [] } t := by
  have hasked : ∀ f, f ∈ asked (next.map .file) ↔ f ∈ found.fresh := by
    intro f
    rw [← hnext]
    simp [asked]
  refine { h with given_mem := fun f hf => ?_, visited := fun f hf => ?_, done := fun f hf d hd => ?_, fresh := ?_ }
  · exact .inl ((h.given_mem f hf).resolve_right (Set.notMem_empty f))
  · -- what was fresh in the last round is what this one begins with
    rcases hf with hf | hf
    · exact h.visited f (.inl hf)
    · obtain ⟨g, hg, hbrings⟩ := h.fresh f ((hasked f).1 hf)
      exact .target hfollow (h.visited g (.inl hg)) hbrings
  · rcases h.done f hf d hd with hd | hd | hd
    · exact .inl hd
    · exact .inr (.inr ((hasked d).2 hd))
    · cases hd
  · exact List.forall_mem_nil _

theorem unprocessed_lt (h : Progress settings roots start given ∅ found t) {f : String} (hf : f ∈ found.fresh)
    (hnew : f ∉ found.processed) (hnext : ∀ f, f ∈ next ↔ f ∈ found.fresh)
    (hrun : next.foldlM (addSource settings roots) { found with fresh := [] } t = .ok found' t') :
    unprocessed start found' < unprocessed start found := by
  have hmem := mem_processed_of_round h.alike hrun
  apply Finset.card_lt_card
  rw [Finset.ssubset_iff_of_subset]
  · obtain ⟨g, _, _, ds, hds, hd, _⟩ := h.fresh f hf
    refine ⟨f, ?_, ?_⟩
    · rw [Finset.mem_sdiff, List.mem_toFinset, List.mem_toFinset]
      exact ⟨(findable_of_targets hds hd).mem_candidates, hnew⟩
    · rw [Finset.mem_sdiff, List.mem_toFinset, List.mem_toFinset, hmem, hnext]
      exact fun hout => hout.2 (.inr hf)
  · intro g hg
    rw [Finset.mem_sdiff, List.mem_toFinset, List.mem_toFinset, hmem] at hg
    rw [Finset.mem_sdiff, List.mem_toFinset, List.mem_toFinset]
    exact ⟨hg.1, fun hold => hg.2 (.inl hold)⟩

theorem followTargets_inv {fuel : Nat} (h : Progress settings roots start given ∅ found t)
    (hrun : followTargets settings roots fuel found t = .ok found' t') :
    Progress settings roots start given ∅ found' t' ∧ (settings.follow = true → found'.fresh = []) := by
  induction fuel generalizing found t with
  | zero => cases hrun
  | succ fuel ih =>
    rw [followTargets] at hrun
    split at hrun
    · rename_i hstop
      obtain ⟨rfl, rfl⟩ := pure_inv hrun
      refine ⟨h, fun hfollow => ?_⟩
      simpa [hfollow] using hstop
    · rename_i hgo
      obtain ⟨hfollow, _⟩ : settings.follow = true ∧ found.fresh ≠ [] := by simpa using hgo
      obtain ⟨found₁, t₁, hround, hrun⟩ := bind_inv hrun
      have hnext : ∀ f, f ∈ Text.sort (Text.distinct found.fresh) ↔ f ∈ found.fresh := by simp
      have hturn := h.turn hfollow hnext
      exact ih (hturn.run ((congrFun (foldlM_file settings roots _ _) t).trans hround)) hrun

/-- **Rounds.** With enough of them a search that follows targets comes to its end, or a file stops it. -/
theorem followTargets_cases {fuel : Nat} (h : Progress settings roots start given ∅ found t)
    (hfuel : unprocessed start found + 1 < fuel ∨ 0 < fuel ∧ found.fresh = []) :
    (∃ found' t', followTargets settings roots fuel found t = .ok found' t') ∨
      ∃ fault t', followTargets settings roots fuel found t = .error fault t' ∧
        Stops settings roots start given fault := by
  induction fuel generalizing found t with
  | zero => omega
  | succ fuel ih =>
    rw [followTargets]
    split
    · exact .inl ⟨found, t, rfl⟩
    · rename_i hgo
      obtain ⟨hfollow, hfresh⟩ : settings.follow = true ∧ found.fresh ≠ [] := by simpa using hgo
      have hnext : ∀ f, f ∈ Text.sort (Text.distinct found.fresh) ↔ f ∈ found.fresh := by simp
      have hturn := h.turn hfollow hnext
      have hfuel := hfuel.resolve_right fun hnil => hfresh hnil.2
      dsimp only
      rcases hturn.round with ⟨found₁, t₁, hround, hnow⟩ | ⟨fault, t', hround, hstops⟩
      · rw [foldlM_file] at hround
        rw [bind_of_ok hround]
        refine ih hnow ?_
        by_cases hold : ∀ f ∈ found.fresh, f ∈ found.processed
        · -- nothing new was processed, so no target is left for a further round
          right
          have hsame : found₁ = { found with fresh := [] } :=
            round_of_processed (fun f hf => hold f ((hnext f).1 hf)) hround
          exact ⟨by omega, by rw [hsame]⟩
        · -- one more candidate was processed
          left
          obtain ⟨f, hf, hnew⟩ : ∃ f ∈ found.fresh, f ∉ found.processed := by simpa using hold
          have hlt := unprocessed_lt h hf hnew hnext hround
          omega
      · rw [foldlM_file] at hround
        exact .inr ⟨fault, t', bind_of_error hround _, hstops⟩

end

/-! ## The whole search -/

section

variable {settings : DepsSettings} {roots paths : List String} {start t stop : Session} {given : Set String}
  {found : Found}

theorem progress_start (settings : DepsSettings) (roots : List String) (given : Set String) (h : Alike start t) :
    Progress settings roots start given given {} t where
  alike := h
  nodup := List.nodup_nil
  given_mem _ hf := .inr hf
  visited _ hf := .given (hf.resolve_left List.not_mem_nil)
  fit := List.forall_mem_nil _
  done := List.forall_mem_nil _
  fresh := List.forall_mem_nil _
  table := holds_nil fun _ ⟨_, hf, _⟩ => List.not_mem_nil hf
  filled := List.forall_mem_nil _
  named _ := List.forall_mem_nil _

/-- Once nothing is left to be followed, the processed files are the visited ones. -/
theorem Progress.mem_processed_iff (h : Progress settings roots start given ∅ found t)
    (hfresh : settings.follow = true → found.fresh = []) (f : String) :
    f ∈ found.processed ↔ Visited settings roots start given f := by
  refine ⟨fun hf => h.visited f (.inl hf), fun hf => ?_⟩
  induction hf with
  | given hf => exact (h.given_mem _ hf).resolve_right (Set.notMem_empty _)
  | target hfollow _ hbrings ih =>
    rcases h.done _ ih _ hbrings with hd | hd | hd
    · exact hd
    · rw [hfresh hfollow] at hd
      cases hd
    · cases hd

theorem findAll_eq (settings : DepsSettings) (roots paths : List String) (start : Session) : ∃ t, Quiet start t ∧
    findAll settings roots paths start =
      ((start.files.pythonFiles settings.ignores paths).foldlM (addFound settings roots) {} >>= fun found =>
        followTargets settings roots
          (start.files.root.size + start.installation.builtinNames.length + start.cache.length + 2) found >>= fun all =>
            pure (if 2 ≤ settings.internal then { all with table := amongSources all.table } else all)) t := by
  obtain ⟨t₁, h₁, hq₁⟩ := Run.message_quiet .info "" start
  obtain ⟨t₂, h₂, hq₂⟩ := Run.message_quiet .info "Processing files:" t₁
  obtain ⟨t₃, h₃, hq₃⟩ := Run.message_quiet .info "" t₂
  have hquiet := quiet_equivalence.trans hq₁ (quiet_equivalence.trans hq₂ hq₃)
  refine ⟨t₃, hquiet, ?_⟩
  unfold findAll info
  rw [bind_of_ok h₁, bind_of_ok h₂, bind_of_ok h₃, bind_of_ok (Run.get_eq t₃), ← hquiet.alike.files,
    ← hquiet.alike.installation, ← hquiet.cache]

theorem findAll_progress (hrun : findAll settings roots paths start = .ok found stop) : ∃ all : Found,
    Progress settings roots start (asked (start.files.pythonFiles settings.ignores paths)) ∅ all stop ∧
      (settings.follow = true → all.fresh = []) ∧
        found = if 2 ≤ settings.internal then { all with table := amongSources all.table } else all := by
  obtain ⟨t, hquiet, heq⟩ := findAll_eq settings roots paths start
  rw [heq] at hrun
  obtain ⟨found₁, t₁, hloop, hrun⟩ := bind_inv hrun
  obtain ⟨all, t₂, hfollow, hrun⟩ := bind_inv hrun
  obtain ⟨rfl, rfl⟩ := pure_inv hrun
  obtain ⟨hall, hfresh⟩ := followTargets_inv ((progress_start settings roots _ hquiet.alike).run hloop) hfollow
  exact ⟨all, hall, hfresh, rfl⟩

/-- A search returns, or a file that it visits stops it. -/
theorem findAll_cases (settings : DepsSettings) (roots paths : List String) (start : Session) :
    (∃ found stop, findAll settings roots paths start = .ok found stop) ∨
      ∃ fault t, findAll settings roots paths start = .error fault t ∧
        Stops settings roots start (asked (start.files.pythonFiles settings.ignores paths)) fault := by
  obtain ⟨t, hquiet, heq⟩ := findAll_eq settings roots paths start
  rw [heq]
  have hstart := progress_start settings roots (asked (start.files.pythonFiles settings.ignores paths)) hquiet.alike
  rcases hstart.round with ⟨found₁, t₁, hloop, hnow⟩ | ⟨fault, t', hloop, hstops⟩
  · have hfuel : unprocessed start found₁ + 1 <
        start.files.root.size + start.installation.builtinNames.length + start.cache.length + 2 := by
      apply Nat.succ_lt_succ
      calc unprocessed start found₁ ≤ start.candidates.toFinset.card := Finset.card_le_card Finset.sdiff_subset
        _ ≤ start.candidates.length := List.toFinset_card_le _
        _ ≤ start.files.root.size + start.installation.builtinNames.length + start.cache.length :=
          start.length_candidates_le
        _ < _ := Nat.lt_succ_self _
    rw [bind_of_ok hloop]
    rcases followTargets_cases hnow (.inl hfuel) with ⟨found₂, t₂, hfollow⟩ | ⟨fault, t', hfollow, hstops⟩
    · rw [bind_of_ok hfollow]
      exact .inl ⟨_, _, rfl⟩
    · exact .inr ⟨fault, t', bind_of_error hfollow _, hstops⟩
  · exact .inr ⟨fault, t', bind_of_error hloop _, hstops⟩

/-- A search returns if every file that it visits is fit for it. -/
theorem findAll_ok (hfit : ∀ f, Visited settings roots start
    (asked (start.files.pythonFiles settings.ignores paths)) f → Fit settings roots start f) :
    ∃ found stop, findAll settings roots paths start = .ok found stop := by
  refine (findAll_cases settings roots paths start).resolve_right ?_
  rintro ⟨fault, _, _, found, path, t, t', hvisited, hlike, hstop⟩
  obtain ⟨_, _, hok⟩ : ∃ found' t₁, addSource settings roots found path t = .ok found' t₁ :=
    addSource_ok hlike (hfit path hvisited)
  cases hok.symm.trans hstop

end

end ImportAtlas.Tools
