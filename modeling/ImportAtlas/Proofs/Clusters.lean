import ImportAtlas.Proofs.ArrangedTables
import ImportAtlas.Proofs.DependencyRuns
import ImportAtlas.Proofs.Histories
import ImportAtlas.Tools.Program

/-!
# Clustering again

The first cluster that fits a name is the first one that fits itself, so clusters do not change what is clustered
already. A table that was clustered once holds only such references, and no source of it depends on itself. What the
program writes is therefore read back, clustered and written again without any change.
-/

namespace ImportAtlas

namespace Depends

/-! ## References -/

def IsReference (r : Value × Value) : Prop :=
  r.1 = .none ∧ r.2.isLiteral = true ∨ ∃ root name, r = (.str root, .str name)

def IsDependency (v : Value) : Prop :=
  ∃ source target, v.ends = .ok (source, target) ∧ IsReference source ∧ IsReference target

theorem IsReference.isLiteral {r : Value × Value} (h : IsReference r) : (Value.ofPair r).isLiteral = true := by
  obtain ⟨root, name⟩ := r
  rcases h with ⟨hroot, hname⟩ | ⟨_, _, he⟩
  · simp only at hroot hname
    simp [Value.ofPair, Value.isLiteral, Value.allLiteral, hroot, hname]
  · cases he
    rfl

theorem eq_str_of_onlyText {v : Value} {text : String} (h : v.onlyText = .ok text) : v = .str text := by
  cases v with
  | str s => cases h; rfl
  | _ => cases h

theorem clusterOf_cons (name cluster : String) (rest : List Value) :
    clusterOf (.str name) (.str cluster :: rest) =
      if Text.beginsWith name cluster then .ok (.str cluster) else clusterOf (.str name) rest := rfl

/-- Clusters and names that are compared are texts. -/
theorem clusterOf_inv {name c first : Value} {rest : List Value} (h : clusterOf name (first :: rest) = .ok c) :
    ∃ s t, name = .str s ∧ first = .str t := by
  obtain ⟨s, hs, h⟩ := except_bind_inv h
  obtain ⟨t, ht, _⟩ := except_bind_inv h
  cases name with
  | str _ => exact ⟨_, t, rfl, eq_str_of_onlyText ht⟩
  | _ => cases hs

theorem clusterOf_str {name : String} {clusters : List Value} {c : Value}
    (h : clusterOf (.str name) clusters = .ok c) : ∃ text, c = .str text ∧ text.toList <+: name.toList := by
  induction clusters with
  | nil =>
    cases h
    exact ⟨name, rfl, List.prefix_refl _⟩
  | cons first rest ih =>
    obtain ⟨_, t, _, rfl⟩ := clusterOf_inv h
    rw [clusterOf_cons] at h
    split at h
    · rename_i hfits
      cases h
      exact ⟨t, rfl, Text.beginsWith_iff.1 hfits⟩
    · exact ih h

/-- A cluster that fits what is left of a name has fitted the name. -/
theorem clusterOf_clusterOf {name c : Value} {clusters : List Value} (h : clusterOf name clusters = .ok c) :
    clusterOf c clusters = .ok c := by
  induction clusters with
  | nil => rfl
  | cons first rest ih =>
    obtain ⟨s, t, rfl, rfl⟩ := clusterOf_inv h
    rw [clusterOf_cons] at h
    split at h
    · cases h
      rw [clusterOf_cons, if_pos (Text.beginsWith_iff.2 (List.prefix_refl _))]
    · rename_i hfits
      obtain ⟨u, rfl, hu⟩ := clusterOf_str h
      have hstill : ¬ Text.beginsWith u t = true := by
        intro hu'
        exact hfits (Text.beginsWith_iff.2 ((Text.beginsWith_iff.1 hu').trans hu))
      rw [clusterOf_cons, if_neg hstill]
      exact ih h

theorem cluster_cluster {clusters : List Value} {root name : Value} {r : Value × Value}
    (h : cluster clusters root name = .ok r) : cluster clusters r.1 r.2 = .ok r := by
  unfold cluster at h
  split at h
  · cases h
    rfl
  · rename_i hroot
    obtain ⟨c, hc, h⟩ := except_bind_inv h
    cases h
    rw [cluster]
    · change (clusterOf c clusters >>= _) = _
      rw [clusterOf_clusterOf hc]
      rfl
    · exact hroot

theorem IsReference.cluster {clusters : List Value} {r r' : Value × Value} (h : IsReference r)
    (hr : cluster clusters r.1 r.2 = .ok r') : IsReference r' := by
  rcases h with ⟨hroot, hname⟩ | ⟨root, name, rfl⟩
  · rw [hroot] at hr
    cases hr
    exact .inl ⟨rfl, hname⟩
  · obtain ⟨c, hc, h⟩ := except_bind_inv hr
    cases h
    obtain ⟨text, rfl, _⟩ := clusterOf_str hc
    exact .inr ⟨root, text, rfl⟩

theorem exists_clusterOf (name : String) (clusters : List String) :
    ∃ c, clusterOf (.str name) (clusters.map .str) = .ok c := by
  induction clusters with
  | nil => exact ⟨_, rfl⟩
  | cons first rest ih =>
    rw [List.map_cons, clusterOf_cons]
    split
    · exact ⟨_, rfl⟩
    · exact ih

theorem IsReference.exists_cluster {r : Value × Value} (h : IsReference r) (clusters : List String) :
    ∃ r', Depends.cluster (clusters.map .str) r.1 r.2 = .ok r' := by
  rcases h with ⟨hroot, _⟩ | ⟨root, name, rfl⟩
  · rw [hroot]
    exact ⟨_, rfl⟩
  · obtain ⟨c, hc⟩ := exists_clusterOf name clusters
    refine ⟨(.str root, c), ?_⟩
    change (clusterOf (.str name) (clusters.map .str) >>= _) = _
    rw [hc]
    rfl

/-! ## Clustered tables -/

structure Settled (clusters : List Value) (r : Value × Value) : Prop where
  reference : IsReference r
  key : (Value.ofPair r).isKey = true
  stays : cluster clusters r.1 r.2 = .ok r

structure Clustered (clusters : List Value) (table : Table) : Prop where
  distinct : Distinct table
  each : Each (fun s => ∃ r, s = .ofPair r ∧ Settled clusters r)
    (fun s t => ∃ r, t = .ofPair r ∧ Settled clusters r ∧ (s.same t = true → r = (.none, .none))) table

theorem settled_nothing (clusters : List Value) : Settled clusters (.none, .none) where
  reference := .inl ⟨rfl, rfl⟩
  key := rfl
  stays := rfl

def addDependency (clusters : List Value) (table : Table) (dependency : Value) : Except Fault Table := do
  let (source, target) ← dependency.ends
  let source ← cluster clusters source.1 source.2
  let target ← cluster clusters target.1 target.2
  addClustered table source target

variable {clusters : List Value} {table table' : Table} {v : Value}

theorem asKey_inv {v key : Value} (h : v.asKey = .ok key) : key = v ∧ v.isKey = true := by
  unfold Value.asKey at h
  split at h
  · rename_i hkey
    cases h
    exact ⟨rfl, hkey⟩
  · cases h

theorem Clustered.step (h : Clustered clusters table) (hv : IsDependency v)
    (hadd : addDependency clusters table v = .ok table') : Clustered clusters table' := by
  obtain ⟨source, target, hends, hsource, htarget⟩ := hv
  unfold addDependency at hadd
  rw [hends] at hadd
  change (cluster clusters source.1 source.2 >>= _) = _ at hadd
  obtain ⟨s, hs, hadd⟩ := except_bind_inv hadd
  obtain ⟨t, ht, hadd⟩ := except_bind_inv hadd
  obtain ⟨_, hs', hadd⟩ := except_bind_inv hadd
  obtain ⟨_, ht', hadd⟩ := except_bind_inv hadd
  obtain ⟨rfl, hskey⟩ := asKey_inv hs'
  obtain ⟨rfl, htkey⟩ := asKey_inv ht'
  cases hadd
  have hsettled : Settled clusters s := ⟨hsource.cluster hs, hskey, cluster_cluster hs⟩
  refine ⟨h.distinct.add _ _, h.each.add ⟨s, rfl, hsettled⟩ fun s' _ hsame => ?_⟩
  unfold withoutLoop at htkey ⊢
  split
  · exact ⟨_, rfl, settled_nothing clusters, fun _ => rfl⟩
  · rename_i hloop
    rw [if_neg hloop] at htkey
    refine ⟨t, rfl, ⟨htarget.cluster ht, htkey, cluster_cluster ht⟩, fun hself => ?_⟩
    -- a source equal to the one in the table would depend on itself
    exact absurd (Value.same_trans hsame hself) hloop

theorem clustered_nil (clusters : List Value) : Clustered clusters [] := ⟨distinct_nil, each_nil _ _⟩

theorem Clustered.arranged (h : Clustered clusters table) : Clustered clusters (arranged table) :=
  ⟨h.distinct.arranged, h.each.arranged⟩

theorem Clustered.isPair (h : Clustered clusters table) : Each IsPair (fun _ t => IsPair t) table where
  source row hrow := by
    obtain ⟨r, hr, _⟩ := h.each.source row hrow
    exact ⟨r, hr⟩
  target row hrow t ht := by
    obtain ⟨r, hr, _⟩ := h.each.target row hrow t ht
    exact ⟨r, hr⟩

theorem Clustered.of_mem_pairs (h : Clustered clusters table) {p : Value × Value} (hp : p ∈ pairs table) :
    ∃ s t, p = (.ofPair s, .ofPair t) ∧ Settled clusters s ∧ Settled clusters t ∧ withoutLoop s t = t := by
  obtain ⟨row, hrow, hp⟩ := List.mem_flatMap.1 hp
  obtain ⟨u, hu, rfl⟩ := List.mem_map.1 hp
  obtain ⟨s, hs, hsettled⟩ := h.each.source row hrow
  obtain ⟨t, ht, htsettled, hloop⟩ := h.each.target row hrow u hu
  refine ⟨s, t, by rw [hs, ht], hsettled, htsettled, ?_⟩
  unfold withoutLoop
  split
  · rename_i hsame
    rw [← hs, ← ht] at hsame
    exact (hloop hsame).symm
  · rfl

theorem Clustered.isLiteral (h : Clustered clusters table) {v : Value} (hv : v ∈ (pairs table).map pairValue) :
    v.isLiteral = true := by
  obtain ⟨p, hp, rfl⟩ := List.mem_map.1 hv
  obtain ⟨s, t, rfl, hs, ht, _⟩ := h.of_mem_pairs hp
  simp [pairValue, Value.isLiteral, Value.allLiteral, hs.reference.isLiteral, ht.reference.isLiteral]

theorem addDependency_settled {s t : Value × Value} (hs : Settled clusters s) (ht : Settled clusters t)
    (hloop : withoutLoop s t = t) (table : Table) :
    addDependency clusters table (pairValue (.ofPair s, .ofPair t)) = .ok (add table (.ofPair s) (.ofPair t)) := by
  have hends : (pairValue (.ofPair s, .ofPair t)).ends = .ok (s, t) := rfl
  unfold addDependency
  rw [hends]
  change (cluster clusters s.1 s.2 >>= _) = _
  rw [hs.stays]
  change (cluster clusters t.1 t.2 >>= _) = _
  rw [ht.stays]
  change addClustered table s t = _
  unfold addClustered
  simp only [hloop, Value.asKey, hs.key, ht.key, if_true]
  rfl

/-- Clustering the dependencies of a clustered table builds the table again. -/
theorem Clustered.rebuild (h : Clustered clusters table) :
    ((pairs table).map pairValue).foldlM (addDependency clusters) [] = .ok table := by
  have run : ∀ (ps : List (Value × Value)) (start : Table), (∀ p ∈ ps, p ∈ pairs table) →
      (ps.map pairValue).foldlM (addDependency clusters) start =
        .ok (ps.foldl (fun table p => add table p.1 p.2) start) := by
    intro ps
    induction ps with
    | nil => intro start _; rfl
    | cons p ps ih =>
      intro start hps
      obtain ⟨hp, hrest⟩ := List.forall_mem_cons.1 hps
      obtain ⟨s, t, rfl, hs, ht, hloop⟩ := h.of_mem_pairs hp
      rw [List.map_cons, List.foldlM_cons, addDependency_settled hs ht hloop]
      exact ih _ hrest
  rw [run _ _ fun _ hp => hp, foldl_add_pairs h.distinct]

end Depends

namespace Tools

open Session

/-! ## The program -/

def givenClusters (arguments : List String) : Run (List Value) := do
  let (settings, clusters) ← Run.ownOptions clusterManual clusterFlags {} arguments
  let more ← if settings.fromFile = "" then pure [] else Run.clustersFrom settings.fromFile
  return (clusters ++ more).map Value.str

def clusterTable (clusters : List Value) (input : String) : Run Depends.Table :=
  Run.foldValues (fun table v => liftM (Depends.addDependency clusters table v)) [] input

def clusterInput (clusters : List Value) : Run Unit := do
  let table ← clusterTable clusters (← Run.takeInput)
  Run.print (← Depends.written table)

theorem cluster_eq (arguments : List String) :
    cluster arguments = givenClusters arguments >>= clusterInput := by
  have hstep : ∀ (clusters : List Value) (table : Depends.Table) (v : Value),
      (do
        let (source, target) ← v.ends
        let source ← Depends.cluster clusters source.1 source.2
        let target ← Depends.cluster clusters target.1 target.2
        Depends.addClustered table source target : Run Depends.Table) =
          liftM (Depends.addDependency clusters table v) := by
    intro clusters table v
    rw [Depends.addDependency, lift_bind]
    refine bind_congr fun ends => ?_
    rw [lift_bind]
    refine bind_congr fun s => ?_
    rw [lift_bind]
  unfold cluster givenClusters clusterInput clusterTable
  simp only [hstep, bind_assoc]
  refine bind_congr fun read => ?_
  by_cases hfile : read.1.fromFile = ""
  · simp only [hfile, if_true, pure_bind]
  · simp only [hfile, if_false, bind_assoc, pure_bind]

/-- Options are read or refused in the same way in every session. -/
theorem ownOptions_cases {σ : Type} (manual : Manual) (flags : List (Flag σ)) (start : σ) (arguments : List String) :
    (∃ answer, ∀ s, Run.ownOptions manual flags start arguments s = .ok answer s) ∨
      ∃ text, ∀ s, ∃ fault s', Run.ownOptions manual flags start arguments s = .error fault s' ∧
        s'.console.out = s.console.out ++ text := by
  unfold Run.ownOptions Run.options
  cases Options.read flags arguments start with
  | ok rest settings => exact .inl ⟨(settings, rest), fun s => rfl⟩
  | error misuse settings =>
    right
    by_cases hhelp : misuse = .asksHelp
    · refine ⟨"Usage: " ++ manual.text ++ "\n", fun s =>
        ⟨.exit (.code 0), { s with console := s.console.print _ }, ?_, rfl⟩⟩
      simp only [hhelp, if_true]
      rfl
    · let complaint := "Usage: " ++ manual.text ++ "\n\n" ++ manual.program ++ ": error: " ++ misuse.message ++ "\n"
      refine ⟨"", fun s => ⟨.exit (.code 2), { s with console := s.console.printError complaint }, ?_, ?_⟩⟩
      rotate_left
      · exact String.append_empty.symm
      simp only [hhelp, if_false]
      rfl

/-- Which clusters are given depends on the arguments and the files alone, and so does what is printed instead. -/
theorem givenClusters_cases (arguments : List String) (fs : FileSystem) :
    (∃ clusters, ∀ s : Session, s.files = fs → givenClusters arguments s = .ok clusters s) ∨
      ∃ text, ∀ s : Session, s.files = fs → ∃ fault s', givenClusters arguments s = .error fault s' ∧
        s'.console.out = s.console.out ++ text := by
  unfold givenClusters
  rcases ownOptions_cases clusterManual clusterFlags {} arguments with ⟨⟨settings, clusters⟩, hopts⟩ | ⟨text, hopts⟩
  · by_cases hfile : settings.fromFile = ""
    · refine .inl ⟨(clusters ++ []).map Value.str, fun s _ => ?_⟩
      rw [bind_of_ok (hopts s)]
      simp only [hfile, if_true]
      rfl
    · have hfrom : ∀ s : Session, s.files = fs →
          Run.clustersFrom settings.fromFile s = (liftM (fs.read settings.fromFile) >>= fun file =>
            pure (Depends.clusterNames file.text) : Run (List String)) s := by
        rintro s rfl
        rfl
      cases hfound : fs.read settings.fromFile with
      | ok file =>
        refine .inl ⟨(clusters ++ Depends.clusterNames file.text).map Value.str, fun s hs => ?_⟩
        have hmore := hfrom s hs
        rw [lift_bind_of_ok hfound] at hmore
        rw [bind_of_ok (hopts s)]
        simp only [hfile, if_false]
        rw [bind_of_ok hmore]
        rfl
      | error fault =>
        refine .inr ⟨"", fun s hs => ⟨fault, s, ?_, (String.append_empty).symm⟩⟩
        have hmore := hfrom s hs
        rw [hfound] at hmore
        rw [bind_of_ok (hopts s)]
        simp only [hfile, if_false]
        exact bind_of_error hmore _
  · refine .inr ⟨text, fun s _ => ?_⟩
    obtain ⟨fault, s', hs', hout⟩ := hopts s
    exact ⟨fault, s', bind_of_error hs' _, hout⟩

theorem clusterTable_respects (clusters : List Value) (input : String) :
    Respects Quiet (clusterTable clusters input) := by
  have hE := quiet_equivalence
  refine respects_foldlM hE (fun table r => ?_) _ _
  obtain ⟨line, value⟩ := r
  cases value with
  | ok v => exact respects_lift hE _
  | error _ => exact respects_bind hE (respects_message _ _) fun _ => respects_pure hE _

theorem clusterTable_clustered {clusters : List Value} {input : String}
    (hinput : ∀ r ∈ Depends.readings input, ∀ v, r.value = .ok v → Depends.IsDependency v) {table : Depends.Table}
    {s s' : Session} (h : clusterTable clusters input s = .ok table s') : Depends.Clustered clusters table := by
  refine foldlM_run (fun _ table _ => Depends.Clustered clusters table) ?_ (Depends.clustered_nil clusters) h
  intro done r rest table s table' s' hsplit htable hstep
  have hr : r ∈ Depends.readings input := by simp [← hsplit]
  obtain ⟨line, value⟩ := r
  cases value with
  | ok v =>
    obtain ⟨hadd, _⟩ := lift_inv hstep
    exact htable.step (hinput _ hr v rfl) hadd
  | error _ =>
    obtain ⟨_, s₁, _, hstep⟩ := bind_inv hstep
    obtain ⟨rfl, _⟩ := pure_inv hstep
    exact htable

def clusteredText (table : Depends.Table) : String :=
  Depends.page ((Depends.pairs (Depends.arranged table)).map Depends.pairValue)

theorem clusteredText_nil : clusteredText [] = "" := by
  simp [clusteredText, Depends.pairs, Depends.arranged, Depends.sources, Depends.page]

def started (s : Session) (input : String) : Session := { s with console := { input } }

/-- Either nothing is printed, which is the text of the empty table, or a table has been clustered. -/
theorem clusterInput_out (clusters : List Value) {input : String}
    (hinput : ∀ r ∈ Depends.readings input, ∀ v, r.value = .ok v → Depends.IsDependency v) (s : Session) :
    ∃ table, Depends.Clustered clusters table ∧
      (stateAfter (clusterInput clusters) (started s input)).console.out = clusteredText table := by
  have htake : Run.takeInput (started s input) = .ok input (started s "") := rfl
  have hresp := (clusterTable_respects clusters input).stateAfter (quiet_equivalence.refl (started s ""))
  cases hrun : clusterTable clusters input (started s "") with
  | error fault s' =>
    refine ⟨[], Depends.clustered_nil clusters, ?_⟩
    have hfail : clusterInput clusters (started s input) = .error fault s' := by
      unfold clusterInput
      rw [bind_of_ok htake]
      exact bind_of_error hrun _
    unfold stateAfter at hresp ⊢
    rw [hrun] at hresp
    rw [hfail, clusteredText_nil]
    exact hresp.out.symm
  | ok table s' =>
    have htable := clusterTable_clustered hinput hrun
    refine ⟨table, htable, ?_⟩
    have hdone : clusterInput clusters (started s input) = Run.print (clusteredText table) s' := by
      unfold clusterInput
      rw [bind_of_ok htake, bind_of_ok hrun, lift_bind_of_ok (Depends.written_pairs htable.isPair)]
      rfl
    unfold stateAfter at hresp ⊢
    rw [hrun] at hresp
    rw [hdone]
    change s'.console.out ++ clusteredText table = _
    rw [← hresp.out]
    exact String.empty_append

theorem clusterInput_again {clusters : List Value} {table : Depends.Table} (h : Depends.Clustered clusters table)
    (s : Session) :
    (stateAfter (clusterInput clusters) (started s (clusteredText table))).console.out = clusteredText table := by
  have htake : Run.takeInput (started s (clusteredText table)) = .ok (clusteredText table) (started s "") := rfl
  have hrun : clusterTable clusters (clusteredText table) (started s "") =
      .ok (Depends.arranged table) (started s "") := by
    unfold clusterTable clusteredText
    rw [Depends.foldValues_page _ _ fun v hv => h.arranged.isLiteral hv, foldlM_lift, h.arranged.rebuild]
    rfl
  have hdone : clusterInput clusters (started s (clusteredText table)) =
      Run.print (clusteredText (Depends.arranged table)) (started s "") := by
    unfold clusterInput
    rw [bind_of_ok htake, bind_of_ok hrun, lift_bind_of_ok (Depends.written_pairs h.arranged.isPair)]
    rfl
  unfold stateAfter
  rw [hdone]
  change "" ++ clusteredText (Depends.arranged table) = _
  unfold clusteredText
  rw [Depends.arranged_arranged]
  exact String.empty_append

theorem execute_out (arguments : List String) (input : String) (s : Session) :
    (Program.cluster.execute arguments input s).1.console.out =
      (stateAfter (cluster arguments) (started s input)).console.out := by
  unfold Program.execute stateAfter
  cases h : cluster arguments (started s input) with
  | ok _ s' =>
    have hrun : Program.cluster.run arguments (started s input) = .ok none s' := bind_of_ok h _
    unfold started at hrun
    simp only [hrun]
  | error fault s' =>
    have hrun : Program.cluster.run arguments (started s input) = .error fault s' := bind_of_error h _
    unfold started at hrun
    cases fault <;> simp only [hrun]

/-- Clustering what is clustered changes nothing. Whatever the clusters are, also if they overlap, stand twice or are
empty, a reference in its cluster stays there, and the program writes its own output again. -/
theorem cluster_of_clustered (arguments : List String) (input : String) (s t : Session) (hfiles : t.files = s.files)
    (hinput : ∀ r ∈ Depends.readings input, ∀ v, r.value = .ok v → Depends.IsDependency v) :
    (∀ (clusters : List String) (root name : Value), Depends.IsReference (root, name) →
      ∃ r, Depends.cluster (clusters.map .str) root name = .ok r ∧
        Depends.cluster (clusters.map .str) r.1 r.2 = .ok r) ∧
      (Program.cluster.execute arguments (Program.cluster.execute arguments input s).1.console.out t).1.console.out =
        (Program.cluster.execute arguments input s).1.console.out := by
  refine ⟨fun clusters root name href => ?_, ?_⟩
  · obtain ⟨r, hr⟩ := href.exists_cluster clusters
    exact ⟨r, hr, Depends.cluster_cluster hr⟩
  · rw [execute_out arguments _ t, execute_out arguments input s]
    rcases givenClusters_cases arguments s.files with ⟨clusters, hgiven⟩ | ⟨text, hrefused⟩
    · have hafter : ∀ (u : Session) (v : String), u.files = s.files →
          stateAfter (cluster arguments) (started u v) = stateAfter (clusterInput clusters) (started u v) := by
        intro u v hu
        unfold stateAfter
        rw [cluster_eq, bind_of_ok (hgiven (started u v) hu)]
      obtain ⟨table, htable, hout⟩ := clusterInput_out clusters hinput s
      rw [hafter t _ hfiles, hafter s _ rfl, hout, clusterInput_again htable]
    · -- the program has not come to its input, and what it prints instead is the same again
      have hafter : ∀ (u : Session) (v : String), u.files = s.files →
          (stateAfter (cluster arguments) (started u v)).console.out = "" ++ text := by
        intro u v hu
        obtain ⟨fault, s', hs', hout⟩ := hrefused (started u v) hu
        unfold stateAfter
        rw [cluster_eq, bind_of_error hs']
        exact hout
      rw [hafter t _ hfiles, hafter s _ rfl]

/-- A name that lies in two clusters, a source that falls together with its target, and a name in no cluster. -/
def overlappingInput : String :=
  Depends.page [.tuple [.tuple [.str "/r", .str "a/b/c.py"], .tuple [.str "/r", .str "a/d.py"]],
    .tuple [.tuple [.str "/r", .str "a/b/c.py"], .tuple [.str "/r", .str "a/b/e.py"]],
    .tuple [.tuple [.str "/r", .str "x.py"], .tuple [.none, .none]]]

theorem cluster_overlapping :
    (∀ r ∈ Depends.readings overlappingInput, ∀ v, r.value = .ok v → Depends.IsDependency v) ∧
      (Program.cluster.execute ["a/b", "a/", "a/b", ""]
        (Program.cluster.execute ["a/b", "a/", "a/b", ""] overlappingInput circle).1.console.out circle).1.console.out =
        (Program.cluster.execute ["a/b", "a/", "a/b", ""] overlappingInput circle).1.console.out := by
  have hinput : ∀ r ∈ Depends.readings overlappingInput, ∀ v, r.value = .ok v → Depends.IsDependency v := by
    intro r hr v hv
    rw [overlappingInput, Depends.readings_page (by decide)] at hr
    simp only [List.map_cons, List.map_nil, List.mem_cons, List.not_mem_nil, or_false] at hr
    rcases hr with rfl | rfl | rfl <;> cases hv
    · exact ⟨_, _, rfl, .inr ⟨_, _, rfl⟩, .inr ⟨_, _, rfl⟩⟩
    · exact ⟨_, _, rfl, .inr ⟨_, _, rfl⟩, .inr ⟨_, _, rfl⟩⟩
    · exact ⟨_, _, rfl, .inr ⟨_, _, rfl⟩, .inl ⟨rfl, rfl⟩⟩
  exact ⟨hinput, (cluster_of_clustered _ _ circle circle rfl hinput).2⟩

end Tools

end ImportAtlas
