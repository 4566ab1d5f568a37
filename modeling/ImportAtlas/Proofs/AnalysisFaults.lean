import ImportAtlas.Analysis.Dependencies
import ImportAtlas.Proofs.Faults
import ImportAtlas.Proofs.Outlines

/-!
# Faults of analyses

The analyses of a source stop at plain faults only: its imports, the names that it uses, and the files that it needs.
-/

namespace ImportAtlas

/-! ## Trees -/

namespace Tree

theorem members_faults_and : (∀ t : Tree, Faults Fault.Plain t.members) ∧
    ∀ roles fields, Faults Fault.Plain (childrenFrom roles fields) := by
  refine members.mutual_induct (fun t => Faults Fault.Plain t.members)
    (fun roles fields => Faults Fault.Plain (childrenFrom roles fields)) ?_ ?_ ?_ ?_ ?_ ?_ ?_
  · intro v
    rw [members]
    exact faults_bind v.parts_faults fun _ => faults_ok _
  · intro kind line fields ih
    rw [members]
    exact faults_map _ ih
  · intro items
    rw [members]
    exact faults_ok _
  · intro items
    rw [members]
    exact faults_ok _
  · intro roles t fields ht ih
    rw [childrenFrom]
    exact faults_bind ht fun _ => faults_bind ih fun _ => faults_ok _
  · intro role roles t fields hrole ih
    rw [childrenFrom]
    · exact faults_bind ih fun _ => faults_ok _
    · exact hrole
  · intro fields roles hmany hone
    rw [childrenFrom]
    · exact faults_ok _
    · exact hmany
    · exact hone

theorem nodesBelow_faults (t : Tree) : Faults Fault.Plain t.nodesBelow := by
  have hfrom : ∀ roles fields, Faults Fault.Plain (nodesFrom roles fields) := by
    intro roles fields
    fun_induction nodesFrom roles fields with
    | case1 roles _ fields ih => exact ih
    | case2 roles fields ih => exact ih
    | case3 roles t fields ih =>
      exact faults_bind (members_faults_and.1 t) fun _ => faults_bind ih fun _ => faults_ok _
    | case4 role roles t fields _ _ _ ih => exact faults_bind ih fun _ => faults_ok _
    | case5 => exact faults_ok _
  cases t with
  | node kind line fields => exact hfrom _ _
  | _ => exact faults_error trivial

theorem children_faults (t : Tree) : Faults Fault.Plain t.children := by
  cases t with
  | node kind line fields => exact members_faults_and.2 _ _
  | _ => exact faults_ok _

end Tree

namespace Visitor

variable {σ : Type} (v : Visitor σ) (henter : ∀ t, FaultsIn Fault.Plain (v.enter t))
include henter

theorem walk_faults (t : Tree) : FaultsIn Fault.Plain (v.walk t) := by
  have hbelow := Tree.nodesBelow_faults
  have hpair : ∀ {x y : Walk σ Unit}, FaultsIn Fault.Plain x → FaultsIn Fault.Plain y →
      FaultsIn Fault.Plain (x >>= fun _ => y) :=
    fun hx hy => faultsIn_bind hx fun _ => hy
  refine (walk.mutual_induct (fun t => FaultsIn Fault.Plain (v.walk t))
    (fun roles fields => FaultsIn Fault.Plain (v.walkFields roles fields))
    (fun t => FaultsIn Fault.Plain (v.walkMembers t)) (fun items => FaultsIn Fault.Plain (v.walkItems items))
    (fun roles fields => FaultsIn Fault.Plain (v.walkChildren roles fields))
    ?_ ?_ ?_ ?_ ?_ ?_ ?_ ?_ ?_ ?_ ?_ ?_ ?_ ?_ ?_ ?_ ?_ ?_ ?_ ?_ ?_ ?_).1 t
  · intro kind line fields ih
    rw [walk]
    refine faultsIn_get_bind fun before => faultsIn_bind (henter _) fun _ => ?_
    split
    · exact faultsIn_bind (faultsIn_lift (hbelow _)) fun _ => hpair ih (faultsIn_modify _)
    · exact faultsIn_modify _
  · intro t hnode
    rw [walk]
    · exact faultsIn_bind (henter _) fun _ => faultsIn_bind (faultsIn_lift (hbelow _)) fun _ => faultsIn_pure _
    · exact hnode
  -- in all other cases the walk is one below, or two of them
  all_goals intros
  all_goals first | rw [walkFields] | rw [walkMembers] | rw [walkItems] | rw [walkChildren]
  all_goals first | exact faultsIn_pure _ | exact hpair ‹_› ‹_› | assumption

theorem collect_faults (start : σ) (t : Tree) : Faults Fault.Plain (v.collect start t) := by
  intro fault h
  unfold collect at h
  cases hwalk : v.walk t start with
  | ok u s =>
    rw [hwalk] at h
    cases h
  | error fault' s =>
    rw [hwalk] at h
    cases h
    exact v.walk_faults henter t start fault s hwalk

end Visitor

/-! ## Imports and names -/

namespace ImportScan

theorem keepAll_faults {importOf : Value → Except Fault Import} (h : ∀ entry, Faults Fault.Plain (importOf entry))
    (entries : Value) : FaultsIn Fault.Plain (keepAll importOf entries) :=
  faultsIn_bind (faultsIn_lift entries.parts_faults) fun _ =>
    faultsIn_forM fun entry _ => faultsIn_bind (faultsIn_lift (h entry)) fun _ => faultsIn_modify _

theorem moduleImport_faults (t : Tree) (entry : Value) : Faults Fault.Plain (moduleImport t entry) :=
  faults_bind (entry.part_faults 0) fun _ => faults_bind (entry.part_faults 1) fun _ => faults_ok _

theorem symbolImport_faults (t : Tree) (entry : Value) : Faults Fault.Plain (symbolImport t entry) := by
  refine faults_bind entry.pair_faults fun names => ?_
  dsimp only
  split
  · exact faults_ok _
  · exact faults_ok _

theorem listedModules_faults (t : Tree) : Faults Fault.Plain (listedModules t) := by
  have htargets : Faults Fault.Plain (targets t) := by
    unfold targets
    split
    · exact faults_ok _
    · exact faults_ok _
    · exact faults_bind (Value.parts_faults _) fun _ => faults_ok _
    · exact faults_error trivial
  refine faults_bind htargets fun targets => ?_
  split
  · exact faults_bind (Tree.children_faults _) fun _ => faults_ok _
  · exact faults_ok _

theorem enter_faults (settles : Bool) (t : Tree) : FaultsIn Fault.Plain ((visitor settles).enter t) := by
  unfold visitor
  dsimp only
  split
  · exact faultsIn_bind (faultsIn_modify _) fun _ => keepAll_faults (moduleImport_faults t) _
  · refine faultsIn_bind (faultsIn_modify _) fun _ => ?_
    split
    · exact keepAll_faults (symbolImport_faults t) _
    · exact faultsIn_pure _
  · exact faultsIn_bind (faultsIn_lift (listedModules_faults t)) fun _ => faultsIn_forM fun _ _ => faultsIn_modify _
  · split
    · exact faultsIn_modify _
    · exact faultsIn_pure _

end ImportScan

theorem Tree.imports_faults (t : Tree) : Faults Fault.Plain t.imports :=
  faults_bind (Visitor.collect_faults _ (ImportScan.enter_faults true) _ t) fun _ => faults_ok _

theorem ImportRecord.ofValue_faults (v : Value) : Faults Fault.Plain (ofValue v) := by
  refine faults_bind v.parts_faults fun parts => ?_
  split
  · exact faults_ok _
  · exact faults_error trivial

namespace Usage

theorem usedNames_faults (t : Tree) : Faults Fault.Plain (usedNames t) := by
  have hmeet : ∀ u, FaultsIn Fault.Plain (NameUses.visitor.enter u) := by
    intro u
    unfold NameUses.visitor
    dsimp only
    split
    · refine faultsIn_get_bind fun uses => ?_
      dsimp only
      split
      · exact faultsIn_of_ok fun s => ⟨_, _, rfl⟩
      · exact faultsIn_bind (faultsIn_of_ok fun s => ⟨_, _, rfl⟩) fun _ => faultsIn_throw trivial
    · exact faultsIn_modify _
    · exact faultsIn_pure _
  have hexports : ∀ u, FaultsIn Fault.Plain (Exports.visitor.enter u) := by
    intro u
    unfold Exports.visitor
    dsimp only
    split
    · exact faultsIn_modify _
    · exact faultsIn_modify _
    · exact faultsIn_modify _
    · exact faultsIn_pure _
  exact faults_bind (Visitor.collect_faults _ hmeet _ t) fun uses =>
    faults_bind (faults_bind (Visitor.collect_faults _ hexports _ t) fun _ => faults_ok _) fun exported =>
      faults_bind (faults_mapM (fun p => p.1.asKey_faults) _) fun _ => faults_ok _

theorem split_faults (t : Tree) (records : List Value) : Faults Fault.Plain (split t records) := by
  refine faults_bind (usedNames_faults t) fun names => faults_foldlM (fun usage v => ?_) _ _
  refine faults_bind (ImportRecord.ofValue_faults v) fun r => ?_
  split
  · exact faults_ok _
  · refine faults_bind r.binding.asKey_faults fun binding => ?_
    split
    · exact faults_ok _
    · exact faults_ok _

end Usage

/-! ## The files that a file needs -/

namespace Run

theorem faultsIn_message {Q : Fault → Prop} (level : Level) (text : String) : FaultsIn Q (message level text) :=
  faultsIn_modify _

theorem faultsIn_files {Q : Fault → Prop} : FaultsIn Q files := faultsIn_of_ok fun s => ⟨_, s, rfl⟩

theorem faultsIn_lookUp {Q : Fault → Prop} {α : Type} {c : EStateM Fault ModuleCache α} (hc : FaultsIn Q c) :
    FaultsIn Q (lookUp c) := by
  intro s fault t h
  unfold lookUp at h
  rw [bind_of_ok (rfl : (get : Run Session) s = .ok s s)] at h
  cases hrun : c s.cache with
  | ok a cache =>
    simp only [hrun] at h
    cases h
  | error fault' cache =>
    simp only [hrun] at h
    cases h
    exact hc s.cache fault cache hrun

theorem consideredImports_faults (options : SearchOptions) (t : Tree) :
    Faults Fault.Plain (consideredImports options t) := by
  refine faults_bind t.imports_faults fun records => ?_
  dsimp only
  split
  · refine faults_bind (Usage.split_faults t _) fun usage => faults_bind (faults_mapM (fun v => ?_) _) fun _ =>
      faults_ok _
    exact faults_bind (ImportRecord.ofValue_faults v) fun _ => faults_ok _
  · exact faults_ok _

theorem readSource_faults (path : String) : FaultsIn Fault.Plain (readSource path) := by
  refine faultsIn_bind faultsIn_files fun fs => ?_
  cases fs.read path with
  | error fault => exact faultsIn_bind (faultsIn_message _ _) fun _ => faultsIn_pure _
  | ok source =>
    dsimp only
    split
    · exact faultsIn_pure _
    · exact faultsIn_bind (faultsIn_message _ _) fun _ => faultsIn_pure _
    · exact faultsIn_bind (faultsIn_message _ _) fun _ => faultsIn_pure _
    · exact faultsIn_bind (faultsIn_message _ _) fun _ => faultsIn_pure _
    · exact faultsIn_bind (faultsIn_message _ _) fun _ => faultsIn_pure _
    · exact faultsIn_throw trivial

theorem reportOptional_faults (r : ImportRecord) : FaultsIn Fault.Plain (reportOptional r) := by
  unfold reportOptional
  split
  · exact faultsIn_bind (faultsIn_lift r.line.lineNumber_faults) fun _ => faultsIn_message _ _
  · exact faultsIn_message _ _

theorem reportProblem_faults (lines : Option (List String)) (line : Value) (p : Problem) :
    FaultsIn Fault.Plain (reportProblem lines line p) := by
  have hplace : ∀ (items : List String) place, Faults Fault.Plain (atPlace items place) := by
    intro items place
    unfold atPlace
    dsimp only
    generalize (if place < 0 then place + items.length else place) = place
    split
    · exact faults_error trivial
    · split
      · exact faults_ok _
      · exact faults_error trivial
  refine faultsIn_bind (faultsIn_lift line.lineNumber_faults) fun number =>
    faultsIn_bind (faultsIn_message _ _) fun _ => ?_
  split
  · exact faultsIn_bind (faultsIn_lift (hplace _ _)) fun _ => faultsIn_message _ _
  · exact faultsIn_throw trivial
  · exact faultsIn_pure _

theorem needsOf_faults (options : SearchOptions) (dir : String) (lines : Option (List String))
    (state : Needs × List Value) (record : Value) : FaultsIn Fault.Plain (needsOf options dir lines state record) := by
  refine faultsIn_bind (faultsIn_lift (ImportRecord.ofValue_faults record)) fun r => ?_
  split
  · exact faultsIn_bind (reportOptional_faults r) fun _ => faultsIn_pure _
  · refine faultsIn_bind (faultsIn_lift (Value.asKey_faults _)) fun sign => ?_
    split
    · exact faultsIn_pure _
    · refine faultsIn_bind (faultsIn_of_ok fun s => ⟨_, s, rfl⟩) fun finder =>
        faultsIn_bind (faultsIn_lookUp (finder.importedFile_faults _ _ _ _)) fun found =>
          faultsIn_bind (faultsIn_forM fun p _ => reportProblem_faults _ _ p) fun _ => ?_
      dsimp only
      split
      · exact faultsIn_pure _
      · exact faultsIn_bind faultsIn_files fun _ => faultsIn_pure _

theorem dependenciesOf_faults (options : SearchOptions) (path : String) :
    FaultsIn Fault.Plain (dependenciesOf options path) := by
  refine faultsIn_bind (readSource_faults path) fun source => ?_
  split
  · exact faultsIn_pure _
  · exact faultsIn_bind (faultsIn_lift (consideredImports_faults options _)) fun considered =>
      faultsIn_bind (faultsIn_foldlM (needsOf_faults _ _ _) _ _) fun _ => faultsIn_pure _

end Run

end ImportAtlas
