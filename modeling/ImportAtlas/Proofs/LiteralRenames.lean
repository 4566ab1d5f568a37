import ImportAtlas.Proofs.ClusteredSets
import ImportAtlas.Proofs.LiteralPatterns

/-!
# Clusters as renames

Both clustering programs replace names, one by the first cluster with which a name starts, the other one by what goes
with the first pattern that matches it. A cluster that is a literal pattern and goes with itself does the same in both,
so the programs end alike, with the same texts written.
-/

namespace ImportAtlas

structure Dependency.Linked (d : Dependency) : Prop where
  source : ∃ root name, d.source = ⟨some root, some name⟩
  target : d.target = .nothing ∨ ∃ root name, d.target = ⟨some root, some name⟩ ∧ name ≠ ""

theorem Dependency.Linked.named {d : Dependency} (h : d.Linked) : d.Named := by
  constructor
  · obtain ⟨root, name, hsource⟩ := h.source
    rw [hsource]
    exact fun _ => rfl
  · rcases h.target with htarget | ⟨root, name, htarget, _⟩ <;> rw [htarget]
    · exact id
    · exact fun _ => rfl

theorem Options.readFrom_plain {σ : Type} (flags : List (Flag σ)) {arguments : List String}
    (h : ∀ a ∈ arguments, Text.beginsWith a "-" = false) (settings : σ) :
    Options.readFrom flags none arguments settings = .ok arguments settings := by
  induction arguments with
  | nil => rfl
  | cons a rest ih =>
    obtain ⟨ha, hrest⟩ := List.forall_mem_cons.1 h
    have hlong : ¬ Text.beginsWith a "--" = true := by
      intro hbegin
      have hdash : Text.beginsWith a "-" = true :=
        Text.beginsWith_iff.2 (List.IsPrefix.trans (by decide) (Text.beginsWith_iff.1 hbegin))
      rw [ha] at hdash
      cases hdash
    have hend : a ≠ "--" := by
      rintro rfl
      exact hlong (by decide)
    simp only [readFrom, hend, if_false, hlong, ha, Bool.false_and, Bool.false_eq_true]
    exact bind_of_ok (ih hrest) _

theorem foldlM_congr {α β ε σ : Type} {f g : β → α → EStateM ε σ β} {xs : List α}
    (h : ∀ x ∈ xs, ∀ b, f b x = g b x) (b : β) : xs.foldlM f b = xs.foldlM g b := by
  induction xs generalizing b with
  | nil => rfl
  | cons x xs ih =>
    obtain ⟨hx, hxs⟩ := List.forall_mem_cons.1 h
    rw [List.foldlM_cons, List.foldlM_cons, hx b]
    exact bind_congr fun b => ih hxs b

theorem Run.foldValues_congr {α : Type} {f g : α → Value → Run α} {input : String}
    (h : ∀ v, Depends.Reads input v → ∀ a, f a v = g a v) (start : α) :
    Run.foldValues f start input = Run.foldValues g start input := by
  refine foldlM_congr (fun r hr a => ?_) start
  cases hv : r.value with
  | ok v => exact h v ⟨r, hr, hv⟩ a
  | error _ => rfl

namespace Depends

def addRenamed (renames : List (Pattern × String)) (table : Table) (dependency : Value) : Except Fault Table := do
  let ((sourceRoot, source), (targetRoot, target)) ← dependency.ends
  let source ← Tools.renamed renames source
  let target ← if target.truthy then Tools.renamed renames target else pure target
  addClustered table (sourceRoot, source) (targetRoot, target)

theorem twoByTwo_doubled (clusters : List String) :
    twoByTwo (clusters.flatMap fun c => [c, c]) = clusters.map fun c => (c, c) := by
  induction clusters with
  | nil => rfl
  | cons c rest ih => exact congrArg ((c, c) :: ·) ih

end Depends

namespace Tools

def literalRenames (clusters : List String) : List (Pattern × String) :=
  clusters.map fun c => (Pattern.sequence (Pattern.literal c.toList), c)

theorem renamed_literal (clusters : List String) (name : String) :
    renamed (literalRenames clusters) (.str name) = Depends.clusterOf (.str name) (clusters.map .str) := by
  induction clusters with
  | nil => rfl
  | cons c rest ih =>
    have hmatch := Pattern.matchesStart_literal c.toList name
    rw [String.ofList_toList] at hmatch
    change (Pattern.matchesStart (Pattern.sequence (Pattern.literal c.toList)) name >>= fun found =>
      if found = true then pure (Value.str c) else renamed (literalRenames rest) (.str name)) = _
    rw [hmatch, ih, List.map_cons, Depends.clusterOf_cons]
    rfl

theorem addRenamed_literal {v : Value} {d : Dependency} (hv : Depends.States v d) (hd : d.Linked)
    (clusters : List String) (table : Depends.Table) :
    Depends.addRenamed (literalRenames clusters) table v =
      Depends.addDependency (clusters.map .str) table v := by
  obtain ⟨⟨_, _⟩, ⟨_, _⟩⟩ := d
  obtain ⟨⟨root, name, hsource⟩, htarget⟩ := hd
  cases hsource
  unfold Depends.addRenamed Depends.addDependency
  rw [hv]
  change (renamed (literalRenames clusters) (.str name) >>= _) =
    ((Depends.clusterOf (.str name) (clusters.map .str) >>= _) >>= _)
  rw [renamed_literal, bind_assoc]
  refine bind_congr fun source => ?_
  rcases htarget with htarget | ⟨targetRoot, target, htarget, hne⟩
  · cases htarget
    rfl
  · cases htarget
    have htruthy : (Value.str target).truthy = true := decide_eq_true hne
    change (if (Value.str target).truthy = true then renamed (literalRenames clusters) (.str target) >>= _ else _) =
      ((Depends.clusterOf (.str target) (clusters.map .str) >>= _) >>= _)
    rw [if_pos htruthy, renamed_literal, bind_assoc]
    rfl

/-! ## The programs -/

def givenRenames (arguments : List String) : Run (List (Pattern × String)) := do
  let (_, arguments) ← Run.ownOptions renameManual [] () arguments
  if arguments.length % 2 ≠ 0 then Run.misused renameManual "An odd number of renames was specified."
  (Depends.twoByTwo arguments).mapM fun (pattern, target) => do return (← Pattern.read pattern, target)

def renameInput (renames : List (Pattern × String)) : Run Unit := do
  let table ← Run.foldValues (fun table v => liftM (Depends.addRenamed renames table v)) [] (← Run.takeInput)
  Run.print (← Depends.written table)

theorem rename_eq (arguments : List String) : rename arguments = givenRenames arguments >>= renameInput := by
  have hstep : ∀ (renames : List (Pattern × String)) (table : Depends.Table) (v : Value),
      (do
        let ((sourceRoot, source), (targetRoot, target)) ← v.ends
        let source ← renamed renames source
        let target ← if target.truthy then renamed renames target else pure target
        Depends.addClustered table (sourceRoot, source) (targetRoot, target) : Run Depends.Table) =
          liftM (Depends.addRenamed renames table v) := by
    intro renames table v
    rw [Depends.addRenamed, lift_bind]
    refine bind_congr fun ends => ?_
    rw [lift_bind]
    refine bind_congr fun s => ?_
    by_cases htruthy : ends.2.2.truthy = true
    · simp only [htruthy, if_true]
      rw [lift_bind]
    · simp only [htruthy]
      rfl
  unfold rename givenRenames renameInput
  simp only [hstep, bind_assoc]
  refine bind_congr fun read => ?_
  by_cases hodd : read.2.length % 2 ≠ 0
  · rw [if_pos hodd, if_pos hodd, bind_assoc]
  · rw [if_neg hodd, if_neg hodd]

variable {clusters : List String}

/-- No cluster looks like an option. -/
theorem ownOptions_literal {σ : Type} (manual : Manual) (flags : List (Flag σ)) (start : σ)
    (h : ∀ c ∈ clusters, ∀ sign ∈ c.toList, Pattern.isLiteral sign = true) (s : Session) :
    Run.ownOptions manual flags start clusters s = .ok (start, clusters) s := by
  have hplain : ∀ c ∈ clusters, Text.beginsWith c "-" = false := by
    intro c hc
    rw [← Bool.not_eq_true, Text.beginsWith_iff]
    intro hdash
    exact absurd (h c hc '-' (hdash.subset (by decide))) (by decide +kernel)
  unfold Run.ownOptions Run.options Options.read
  rw [Options.readFrom_plain flags hplain]
  rfl

theorem givenClusters_literal (h : ∀ c ∈ clusters, ∀ sign ∈ c.toList, Pattern.isLiteral sign = true) (s : Session) :
    givenClusters clusters s = .ok (clusters.map .str) s := by
  unfold givenClusters
  rw [bind_of_ok (ownOptions_literal _ _ _ h s)]
  simp only [if_true, pure_bind, List.append_nil]
  rfl

theorem mapM_read_literal (h : ∀ c ∈ clusters, ∀ sign ∈ c.toList, Pattern.isLiteral sign = true) (s : Session) :
    (clusters.map fun c => (c, c)).mapM (fun r => do return (← Pattern.read r.1, r.2) : String × String → Run _) s =
      .ok (literalRenames clusters) s := by
  induction clusters with
  | nil => rfl
  | cons c rest ih =>
    obtain ⟨hc, hrest⟩ := List.forall_mem_cons.1 h
    have hread : (do return (← Pattern.read c, c) : Run (Pattern × String)) s =
        .ok (Pattern.sequence (Pattern.literal c.toList), c) s := by
      rw [Pattern.read_literal hc]
      rfl
    rw [List.map_cons, List.mapM_cons, bind_of_ok hread, bind_of_ok (ih hrest)]
    rfl

theorem givenRenames_literal (h : ∀ c ∈ clusters, ∀ sign ∈ c.toList, Pattern.isLiteral sign = true) (s : Session) :
    givenRenames (clusters.flatMap fun c => [c, c]) s = .ok (literalRenames clusters) s := by
  have hdoubled : ∀ c ∈ clusters.flatMap fun c => [c, c], ∀ sign ∈ c.toList, Pattern.isLiteral sign = true := by
    intro c hc
    obtain ⟨c', hc', hmem⟩ := List.mem_flatMap.1 hc
    simp only [List.mem_cons, List.not_mem_nil, or_false, or_self] at hmem
    exact hmem ▸ h c' hc'
  have heven : ¬ (clusters.flatMap fun c => [c, c]).length % 2 ≠ 0 := by
    simp [List.length_flatMap]
  unfold givenRenames
  rw [bind_of_ok (ownOptions_literal _ _ _ hdoubled s)]
  simp only [heven, if_false, Depends.twoByTwo_doubled]
  exact mapM_read_literal h s

theorem renameInput_literal {input : String} (hinput : ∀ v, Depends.Reads input v → ∃ d, Depends.States v d ∧ d.Linked)
    (s : Session) :
    renameInput (literalRenames clusters) (started s input) = clusterInput (clusters.map .str) (started s input) := by
  have htake : Run.takeInput (started s input) = .ok input (started s "") := rfl
  unfold renameInput clusterInput clusterTable
  rw [bind_of_ok htake, bind_of_ok htake, Run.foldValues_congr]
  intro v hv table
  obtain ⟨d, hd, hlinked⟩ := hinput v hv
  rw [addRenamed_literal hd hlinked]

theorem execute_literal (hclusters : ∀ c ∈ clusters, ∀ sign ∈ c.toList, Pattern.isLiteral sign = true) {input : String}
    (hinput : ∀ v, Depends.Reads input v → ∃ d, Depends.States v d ∧ d.Linked) (s : Session) :
    Program.rename.execute (clusters.flatMap fun c => [c, c]) input s = Program.cluster.execute clusters input s := by
  have hsame : rename (clusters.flatMap fun c => [c, c]) (started s input) = cluster clusters (started s input) := by
    rw [rename_eq, cluster_eq, bind_of_ok (givenRenames_literal hclusters _),
      bind_of_ok (givenClusters_literal hclusters _), renameInput_literal hinput]
  have hrun : Program.rename.run (clusters.flatMap fun c => [c, c]) (started s input) =
      Program.cluster.run clusters (started s input) := by
    change EStateM.bind (rename _) _ _ = EStateM.bind (cluster _) _ _
    rw [EStateM.bind, EStateM.bind, hsame]
  unfold started at hrun
  unfold Program.execute
  simp only [hrun]

/-- **Clusters as renames.** The clusters are texts of letters, digits, underscores and slashes, and all sources and
targets have roots and names, but for targets that are nothing. Then the program that renames by patterns, with every
cluster as a pattern and as the name that goes with it, ends as the program that clusters does: with the same status,
the same texts written and the same session. Both end well, and write the dependencies in their clusters. The page of
such dependencies is a text of that kind. -/
theorem renames_of_literals {clusters : List String}
    (hclusters : ∀ c ∈ clusters, ∀ sign ∈ c.toList, Pattern.isLiteral sign = true) (s : Session) :
    (∀ input, (∀ v, Depends.Reads input v → ∃ d, Depends.States v d ∧ d.Linked) →
      Program.rename.execute (clusters.flatMap fun c => [c, c]) input s = Program.cluster.execute clusters input s ∧
        (Program.cluster.execute clusters input s).1.status = .code 0 ∧
        ∃ ps, ClusteredLines clusters input ps ∧
          (Program.cluster.execute clusters input s).1.console.out = Depends.page (ps.map Dependency.value)) ∧
    ∀ ds : List Dependency, (∀ d ∈ ds, d.Linked) →
      Program.rename.execute (clusters.flatMap fun c => [c, c]) (Depends.page (ds.map Dependency.value)) s =
        Program.cluster.execute clusters (Depends.page (ds.map Dependency.value)) s ∧
      (Program.cluster.execute clusters (Depends.page (ds.map Dependency.value)) s).1.status = .code 0 ∧
      ∃ ps : List Dependency, ps.Pairwise Dependency.Before ∧ (∀ p, p ∈ ps ↔ ∃ d ∈ ds, p = d.inClusters clusters) ∧
        (Program.cluster.execute clusters (Depends.page (ds.map Dependency.value)) s).1.console.out =
          Depends.page (ps.map Dependency.value) := by
  have hgiven := givenClusters_literal hclusters s
  constructor
  · intro input hinput
    have hwell : Depends.WellFormed input := by
      intro v hv
      obtain ⟨d, hd, hlinked⟩ := hinput v hv
      exact ⟨d, hd, hlinked.named⟩
    obtain ⟨ps, hps, hstatus, hout⟩ := execute_clustered hgiven hwell
    exact ⟨execute_literal hclusters hinput s, hstatus, ps, hps, hout⟩
  · intro ds hds
    obtain ⟨ps, hps, hstatus, hout⟩ :=
      execute_clustered hgiven (Depends.wellFormed_page fun d hd => (hds d hd).named)
    refine ⟨execute_literal hclusters (fun v hv => ?_) s, hstatus, ps, hps.sorted, hps.mem_page, hout⟩
    obtain ⟨d, hd, rfl⟩ := Depends.reads_dependencies.1 hv
    exact ⟨d, Depends.states_value d, hds d hd⟩

theorem renames_of_overlapping_literals :
    (∀ c ∈ ["a/b", "a/", "x_1"], ∀ sign ∈ c.toList, Pattern.isLiteral sign = true) ∧
      (∀ v, Depends.Reads overlappingInput v → ∃ d, Depends.States v d ∧ d.Linked) ∧
      Program.rename.execute ["a/b", "a/b", "a/", "a/", "x_1", "x_1"] overlappingInput circle =
        Program.cluster.execute ["a/b", "a/", "x_1"] overlappingInput circle := by
  have hall : (["a/b", "a/", "x_1"].all fun c => c.toList.all Pattern.isLiteral) = true := by decide +kernel
  have hclusters : ∀ c ∈ ["a/b", "a/", "x_1"], ∀ sign ∈ c.toList, Pattern.isLiteral sign = true := by
    simpa only [List.all_eq_true] using hall
  have hinput : ∀ v, Depends.Reads overlappingInput v → ∃ d, Depends.States v d ∧ d.Linked := by
    intro v hv
    rw [overlappingInput, Depends.reads_page (by decide)] at hv
    simp only [List.mem_cons, List.not_mem_nil, or_false] at hv
    rcases hv with rfl | rfl | rfl
    · exact ⟨⟨⟨some "/r", some "a/b/c.py"⟩, ⟨some "/r", some "a/d.py"⟩⟩, rfl, ⟨_, _, rfl⟩, .inr ⟨_, _, rfl, by decide⟩⟩
    · exact ⟨⟨⟨some "/r", some "a/b/c.py"⟩, ⟨some "/r", some "a/b/e.py"⟩⟩, rfl, ⟨_, _, rfl⟩,
        .inr ⟨_, _, rfl, by decide⟩⟩
    · exact ⟨⟨⟨some "/r", some "x.py"⟩, .nothing⟩, rfl, ⟨_, _, rfl⟩, .inl rfl⟩
  exact ⟨hclusters, hinput, ((renames_of_literals hclusters circle).1 overlappingInput hinput).1⟩

end Tools

end ImportAtlas
