import ImportAtlas.Proofs.Clusters
import Mathlib.Data.List.Sort

/-!
# Clusters of a set of dependencies

What the program that clusters dependencies writes is a function of the set of the dependencies on its lines: every
one of them is taken to its clusters, and the images are written in strict order, each once. So neither the order of
the lines matters, nor how often one of them stands there, nor what stands between them without being a value.
-/

namespace ImportAtlas

/-! ## References in their clusters -/

namespace Ref

def parts (r : Ref) : Value × Value := (part r.root, part r.name)

/-- A root does not stand without a name. -/
def Named (r : Ref) : Prop := r.root.isSome = true → r.name.isSome = true

/-- The first cluster with which the name starts takes its place. A reference without a root stays. -/
def inCluster (clusters : List String) (r : Ref) : Ref :=
  match r.root, r.name with
  | some root, some name => ⟨some root, some ((clusters.find? (Text.beginsWith name)).getD name)⟩
  | _, _ => r

theorem isKey_value (r : Ref) : r.value.isKey = true := by
  obtain ⟨root, name⟩ := r
  cases root <;> cases name <;> rfl

end Ref

namespace Dependency

/-- Both sides in their clusters. If they fall together, nothing is left to depend on. -/
def inClusters (clusters : List String) (d : Dependency) : Dependency where
  source := d.source.inCluster clusters
  target := if d.source.inCluster clusters = d.target.inCluster clusters then .nothing else d.target.inCluster clusters

def Named (d : Dependency) : Prop := d.source.Named ∧ d.target.Named

end Dependency

namespace Depends

theorem clusterOf_eq (name : String) (clusters : List String) :
    clusterOf (.str name) (clusters.map .str) = .ok (.str ((clusters.find? (Text.beginsWith name)).getD name)) := by
  induction clusters with
  | nil => rfl
  | cons first rest ih =>
    rw [List.map_cons, clusterOf_cons, List.find?_cons]
    cases Text.beginsWith name first with
    | true => rfl
    | false => exact ih

theorem cluster_parts {r : Ref} (h : r.Named) (clusters : List String) :
    cluster (clusters.map .str) r.parts.1 r.parts.2 = .ok (r.inCluster clusters).parts := by
  obtain ⟨root, name⟩ := r
  cases root with
  | none => cases name <;> rfl
  | some root =>
    cases name with
    | none => exact absurd (h rfl) (by simp)
    | some name =>
      change (clusterOf (.str name) (clusters.map .str) >>= fun c => Except.ok (Value.str root, c)) = _
      rw [clusterOf_eq]
      rfl

theorem addClustered_parts (table : Table) (source target : Ref) :
    addClustered table source.parts target.parts =
      .ok (add table source.value (if source = target then Ref.nothing else target).value) := by
  have hloop : Value.ofPair (withoutLoop source.parts target.parts) =
      (if source = target then Ref.nothing else target).value := by
    have hsame : (Value.ofPair source.parts).same (.ofPair target.parts) = decide (source = target) :=
      Ref.same_value source target
    unfold withoutLoop
    rw [hsame]
    by_cases he : source = target
    · simp only [he, decide_true, if_true]
      rfl
    · simp only [he, decide_false, if_false, Bool.false_eq_true]
      rfl
  have hkey : ∀ r : Ref, r.value.asKey = .ok r.value := fun r => if_pos r.isKey_value
  unfold addClustered
  simp only [hloop, hkey]
  change (source.value.asKey >>= _) = _
  rw [hkey]
  rfl

/-! ## Lines -/

/-- The value is the dependency, as a group of two groups of two. -/
def States (v : Value) (d : Dependency) : Prop := v.ends = .ok (d.source.parts, d.target.parts)

def Lists (input : String) (d : Dependency) : Prop := ∃ v, Reads input v ∧ States v d

/-- Every line is a dependency or no value at all. -/
def WellFormed (input : String) : Prop := ∀ v, Reads input v → ∃ d, States v d ∧ d.Named

theorem addDependency_states {v : Value} {d : Dependency} (hv : States v d) (hd : d.Named) (clusters : List String)
    (table : Table) : addDependency (clusters.map .str) table v =
      .ok (add table (d.inClusters clusters).source.value (d.inClusters clusters).target.value) := by
  unfold addDependency
  rw [hv]
  change (cluster _ d.source.parts.1 d.source.parts.2 >>= _) = _
  rw [cluster_parts hd.1]
  change (cluster _ d.target.parts.1 d.target.parts.2 >>= _) = _
  rw [cluster_parts hd.2]
  exact addClustered_parts table _ _

theorem States.unique {v : Value} {d e : Dependency} (h : States v d) (k : States v e) : d = e := by
  have hends := Except.ok.inj (h.symm.trans k)
  have hvalue : d.value = e.value := by
    change Value.tuple [.ofPair d.source.parts, .ofPair d.target.parts] = _
    rw [(Prod.mk.inj hends).1, (Prod.mk.inj hends).2]
    rfl
  exact Dependency.value_injective hvalue

theorem states_value (d : Dependency) : States d.value d := rfl

theorem reads_dependencies {ds : List Dependency} {v : Value} :
    Reads (page (ds.map Dependency.value)) v ↔ ∃ d ∈ ds, d.value = v := by
  rw [reads_page (Dependency.isLiteral_values ds), List.mem_map]

theorem lists_dependencies {ds : List Dependency} {d : Dependency} :
    Lists (page (ds.map Dependency.value)) d ↔ d ∈ ds := by
  constructor
  · rintro ⟨v, hv, hd⟩
    obtain ⟨d', hd', rfl⟩ := reads_dependencies.1 hv
    obtain rfl : d' = d := (states_value d').unique hd
    exact hd'
  · intro hd
    exact ⟨d.value, reads_dependencies.2 ⟨d, hd, rfl⟩, states_value d⟩

theorem wellFormed_page {ds : List Dependency} (h : ∀ d ∈ ds, d.Named) :
    WellFormed (page (ds.map Dependency.value)) := by
  intro v hv
  obtain ⟨d, hd, rfl⟩ := reads_dependencies.1 hv
  exact ⟨d, states_value d, h d hd⟩

end Depends

namespace Tools

open Session

/-! ## The table of the clustered dependencies -/

def Images (clusters : List String) (lines : List Depends.Reading) (p : Dependency) : Prop :=
  ∃ r ∈ lines, ∃ v d, r.value = .ok v ∧ Depends.States v d ∧ p = d.inClusters clusters

theorem images_append {clusters : List String} {lines : List Depends.Reading} {r : Depends.Reading} {p : Dependency} :
    Images clusters (lines ++ [r]) p ↔
      Images clusters lines p ∨ ∃ v d, r.value = .ok v ∧ Depends.States v d ∧ p = d.inClusters clusters := by
  simp only [Images, List.mem_append, List.mem_singleton, or_and_right, exists_or, exists_eq_left]

/-- One line more: its dependency is added, or it is reported. -/
theorem holds_line {clusters : List String} {lines : List Depends.Reading} {r : Depends.Reading}
    {table : Depends.Table} (h : Holds table (Images clusters lines))
    (hr : ∀ v, r.value = .ok v → ∃ d, Depends.States v d ∧ d.Named) (t : Session) :
    ∃ table' t', (match r.value with
        | .ok v => liftM (Depends.addDependency (clusters.map .str) table v)
        | .error _ => do
          Run.message .warning r.complaint
          return table : Run Depends.Table) t = .ok table' t' ∧
      Holds table' (Images clusters (lines ++ [r])) ∧ Quiet t t' := by
  obtain ⟨line, value⟩ := r
  cases value with
  | ok v =>
    obtain ⟨d, hd, hnamed⟩ := hr v rfl
    let image := d.inClusters clusters
    have hadd : (liftM (Depends.addDependency (clusters.map .str) table v) : Run Depends.Table) t =
        .ok (Depends.add table image.source.value image.target.value) t := by
      rw [Depends.addDependency_states hd hnamed]
      rfl
    refine ⟨_, t, hadd, h.add image fun p => ?_, quiet_equivalence.refl t⟩
    rw [images_append]
    refine or_congr_right ⟨?_, fun he => ⟨v, d, rfl, hd, he⟩⟩
    rintro ⟨_, d', hv, hd', rfl⟩
    cases hv
    rw [hd'.unique hd]
  | error e =>
    obtain ⟨t', ht', hsaid⟩ := Run.message_quiet .warning (Depends.Reading.complaint ⟨line, .error e⟩) t
    refine ⟨table, t', bind_of_ok ht' _, h.congr fun p => ?_, hsaid⟩
    rw [images_append]
    refine (or_iff_left ?_).symm
    rintro ⟨_, _, hv, _⟩
    cases hv

/-- The table holds the images of all dependencies on the lines. -/
theorem clusterTable_holds {clusters : List String} {input : String} (hinput : Depends.WellFormed input)
    (s : Session) : ∃ table s', clusterTable (clusters.map .str) input s = .ok table s' ∧
      Holds table (fun p => ∃ d, Depends.Lists input d ∧ p = d.inClusters clusters) ∧ Quiet s s' := by
  have hrun : ∃ table s', clusterTable (clusters.map .str) input s = .ok table s' ∧
      Holds table (Images clusters (Depends.readings input)) ∧ Quiet s s' := by
    refine foldlM_ends (fun done table t => Holds table (Images clusters done) ∧ Quiet s t) ?_
      ⟨holds_nil (by simp [Images]), quiet_equivalence.refl s⟩
    rintro done r rest table t hsplit ⟨htable, hquiet⟩
    have hr : r ∈ Depends.readings input := by simp [← hsplit]
    obtain ⟨table', t', hstep, hholds, hstepQuiet⟩ := holds_line htable (fun v hv => hinput v ⟨r, hr, hv⟩) t
    exact ⟨table', t', hstep, hholds, quiet_equivalence.trans hquiet hstepQuiet⟩
  obtain ⟨table, s', htable, hholds, hquiet⟩ := hrun
  refine ⟨table, s', htable, hholds.congr fun p => ?_, hquiet⟩
  constructor
  · rintro ⟨r, hr, v, d, hv, hd, rfl⟩
    exact ⟨d, ⟨v, ⟨r, hr, hv⟩, hd⟩, rfl⟩
  · rintro ⟨d, ⟨v, ⟨r, hr, hv⟩, hd⟩, rfl⟩
    exact ⟨r, hr, v, d, hv, hd, rfl⟩

/-- Every list of clusters can be given. -/
theorem givenClusters_dashes (clusters : List String) (s : Session) :
    givenClusters ("--" :: clusters) s = .ok (clusters.map .str) s := by
  have hoptions : Run.ownOptions clusterManual clusterFlags {} ("--" :: clusters) s = .ok ({}, clusters) s := by
    unfold Run.ownOptions Run.options Options.read
    rw [Options.readFrom]
    rfl
  unfold givenClusters
  rw [bind_of_ok hoptions]
  simp only [if_true, pure_bind, List.append_nil]
  rfl

structure ClusteredLines (clusters : List String) (input : String) (ps : List Dependency) : Prop where
  sorted : ps.Pairwise Dependency.Before
  mem_iff (p : Dependency) : p ∈ ps ↔ ∃ d, Depends.Lists input d ∧ p = d.inClusters clusters

theorem ClusteredLines.mem_page {clusters : List String} {ds ps : List Dependency}
    (h : ClusteredLines clusters (Depends.page (ds.map Dependency.value)) ps) (p : Dependency) :
    p ∈ ps ↔ ∃ d ∈ ds, p = d.inClusters clusters := by
  rw [h.mem_iff]
  simp only [Depends.lists_dependencies]

theorem ClusteredLines.unique {clusters : List String} {input input' : String} {ps ps' : List Dependency}
    (h : ClusteredLines clusters input ps) (h' : ClusteredLines clusters input' ps')
    (hsame : ∀ v, Depends.Reads input' v ↔ Depends.Reads input v) : ps' = ps := by
  refine h'.sorted.eq_of_mem_iff h.sorted fun p => ?_
  rw [h.mem_iff, h'.mem_iff]
  simp only [Depends.Lists, hsame]

theorem execute_clustered {arguments clusters : List String} {s : Session}
    (hgiven : givenClusters arguments s = .ok (clusters.map .str) s) {input : String}
    (hinput : Depends.WellFormed input) :
    ∃ ps, ClusteredLines clusters input ps ∧
      (Program.cluster.execute arguments input s).1.status = .code 0 ∧
      (Program.cluster.execute arguments input s).1.console.out = Depends.page (ps.map Dependency.value) := by
  -- which clusters are given does not depend on the input
  have hgiven' : givenClusters arguments (started s input) = .ok (clusters.map .str) (started s input) := by
    rcases givenClusters_cases arguments s.files with ⟨known, hknown⟩ | ⟨text, hrefused⟩
    · have hsame := hgiven.symm.trans (hknown s rfl)
      cases hsame
      exact hknown (started s input) rfl
    · obtain ⟨fault, s', hs', _⟩ := hrefused s rfl
      cases hgiven.symm.trans hs'
  have htake : Run.takeInput (started s input) = .ok input (started s "") := rfl
  obtain ⟨table, s', hrun, ⟨d, rfl, hd⟩, hquiet⟩ := @clusterTable_holds clusters input hinput (started s "")
  have hdone : cluster arguments (started s input) =
      Run.print (Depends.page (d.dependencies.map Dependency.value)) s' := by
    rw [cluster_eq, bind_of_ok hgiven']
    unfold clusterInput
    rw [bind_of_ok htake, bind_of_ok hrun, lift_bind_of_ok d.written_table]
  refine ⟨d.dependencies, ⟨d.pairwise_dependencies, fun p => (d.mem_dependencies p).trans (hd p)⟩, ?_, ?_⟩
  · have hprogram : Program.cluster.run arguments (started s input) = .ok none
        { s' with console := s'.console.print (Depends.page (d.dependencies.map Dependency.value)) } :=
      bind_of_ok hdone _
    unfold started at hprogram
    unfold Program.execute
    simp only [hprogram]
  · rw [execute_out]
    unfold stateAfter
    rw [hdone]
    change s'.console.out ++ _ = _
    rw [← hquiet.out]
    exact String.empty_append

/-- **Clusters of a set.** Whatever the clusters are, the program ends well on dependencies. It writes the images of the
dependencies in strict order, each once, and it writes the same for any other lines with the same values: for lines in
another order, for lines that stand there more often, and with lines between them that are no values. If the text is the
page of some dependencies, the images are theirs. -/
theorem clusters_of_set {arguments clusters : List String} {s : Session}
    (hgiven : givenClusters arguments s = .ok (clusters.map .str) s) :
    (∀ input, Depends.WellFormed input →
      (∃ ps : List Dependency, ps.Pairwise Dependency.Before ∧ ps.Nodup ∧
        (∀ p, p ∈ ps ↔ ∃ d, Depends.Lists input d ∧ p = d.inClusters clusters) ∧
        (Program.cluster.execute arguments input s).1.status = .code 0 ∧
        (Program.cluster.execute arguments input s).1.console.out = Depends.page (ps.map Dependency.value)) ∧
      ∀ input', (∀ v, Depends.Reads input' v ↔ Depends.Reads input v) →
        (Program.cluster.execute arguments input' s).1.console.out =
          (Program.cluster.execute arguments input s).1.console.out) ∧
    ∀ ds : List Dependency, (∀ d ∈ ds, d.Named) → ∃ ps : List Dependency, ps.Pairwise Dependency.Before ∧
      (∀ p, p ∈ ps ↔ ∃ d ∈ ds, p = d.inClusters clusters) ∧
      (Program.cluster.execute arguments (Depends.page (ds.map Dependency.value)) s).1.status = .code 0 ∧
      (Program.cluster.execute arguments (Depends.page (ds.map Dependency.value)) s).1.console.out =
        Depends.page (ps.map Dependency.value) := by
  constructor
  · intro input hinput
    obtain ⟨ps, hps, hstatus, hout⟩ := execute_clustered hgiven hinput
    refine ⟨⟨ps, hps.sorted, hps.sorted.imp Dependency.Before.ne, hps.mem_iff, hstatus, hout⟩, fun input' hsame => ?_⟩
    have hinput' : Depends.WellFormed input' := fun v hv => hinput v ((hsame v).1 hv)
    obtain ⟨ps', hps', _, hout'⟩ := execute_clustered hgiven hinput'
    rw [hout, hout', hps.unique hps' hsame]
  · intro ds hds
    obtain ⟨ps, hps, hstatus, hout⟩ := execute_clustered hgiven (Depends.wellFormed_page hds)
    exact ⟨ps, hps.sorted, hps.mem_page, hstatus, hout⟩

def shuffledInput : String :=
  (Value.tuple [.tuple [.str "/r", .str "x.py"], .tuple [.none, .none]]).render ++ "\n" ++ ("((" ++ "\n" ++
    Depends.page [.tuple [.tuple [.str "/r", .str "a/b/c.py"], .tuple [.str "/r", .str "a/b/e.py"]],
      .tuple [.tuple [.str "/r", .str "x.py"], .tuple [.none, .none]],
      .tuple [.tuple [.str "/r", .str "a/b/c.py"], .tuple [.str "/r", .str "a/d.py"]]])

theorem reads_shuffledInput (v : Value) : Depends.Reads shuffledInput v ↔ Depends.Reads overlappingInput v := by
  have hbroken : Value.read ("((" ++ "\n") ≠ .ok v := by
    have hnone : (Value.read ("((" ++ "\n")).toOption.isNone = true := by decide +kernel
    intro h
    rw [h] at hnone
    cases hnone
  rw [shuffledInput, Depends.reads_line (by decide), Depends.reads_line (by decide), Value.read_render (by decide),
    or_iff_right hbroken, overlappingInput, Depends.reads_page (by decide), Depends.reads_page (by decide)]
  simp only [Except.ok.injEq, List.mem_cons, List.not_mem_nil, or_false]
  tauto

theorem clusters_of_overlapping_set :
    (∀ v, Depends.Reads shuffledInput v ↔ Depends.Reads overlappingInput v) ∧
    (Program.cluster.execute ["--", "a/b", "a/", "a/b", ""] overlappingInput circle).1.status = .code 0 ∧
    (Program.cluster.execute ["--", "a/b", "a/", "a/b", ""] shuffledInput circle).1.console.out =
      (Program.cluster.execute ["--", "a/b", "a/", "a/b", ""] overlappingInput circle).1.console.out := by
  have hinput : Depends.WellFormed overlappingInput := by
    intro v hv
    rw [overlappingInput, Depends.reads_page (by decide)] at hv
    simp only [List.mem_cons, List.not_mem_nil, or_false] at hv
    rcases hv with rfl | rfl | rfl
    · exact ⟨⟨⟨some "/r", some "a/b/c.py"⟩, ⟨some "/r", some "a/d.py"⟩⟩, rfl, fun _ => rfl, fun _ => rfl⟩
    · exact ⟨⟨⟨some "/r", some "a/b/c.py"⟩, ⟨some "/r", some "a/b/e.py"⟩⟩, rfl, fun _ => rfl, fun _ => rfl⟩
    · exact ⟨⟨⟨some "/r", some "x.py"⟩, .nothing⟩, rfl, fun _ => rfl, fun h => h⟩
  obtain ⟨⟨_, _, _, _, hstatus, _⟩, hsame⟩ :=
    (clusters_of_set (givenClusters_dashes ["a/b", "a/", "a/b", ""] circle)).1 overlappingInput hinput
  exact ⟨reads_shuffledInput, hstatus, hsame shuffledInput reads_shuffledInput⟩

end Tools

end ImportAtlas
