import ImportAtlas.Proofs.ImportStatements

/-!
# Remarks on imports

A remark is a constant that stands alone. The remark on an import is that of the first node after it that is no
assignment, first among the later statements of its block and then beyond the block.
-/

namespace ImportAtlas

open ImportScan ImportAtlas.Tree

def Tree.IsRemark (t : Tree) (v : Value) : Prop :=
  t.isA .discard = true ∧ (t.child 0).isA .const = true ∧ (t.child 0).datum 0 = v

theorem remark_eq_iff {t : Tree} {v : Value} (hv : v ≠ .none) : remark t = v ↔ t.IsRemark v := by
  unfold remark IsRemark
  by_cases hd : t.isA .discard = true
  · by_cases hc : (t.child 0).isA .const = true
    · simp [hd, hc]
    · simp [hd, hc, hv.symm]
  · simp [hd, hv.symm]

theorem nextRemark_eq_iff {nodes : List Tree} {v : Value} (hv : v ≠ .none) :
    nextRemark nodes = v ↔ ∃ next, nodes.find? (fun u => !u.isA .assign) = some next ∧ next.IsRemark v := by
  induction nodes with
  | nil => simp [nextRemark, hv.symm]
  | cons t rest ih =>
    by_cases ht : t.isA .assign = true
    · simp [nextRemark, ht, ih]
    · simp [nextRemark, ht, remark_eq_iff hv]

theorem recorded_append (before rest : List Tree) :
    ∃ front, recorded (before ++ rest) = front ++ recorded rest ∧
      front.map ImportRecord.toImport = before.flatMap broughtIn := by
  induction before with
  | nil => exact ⟨[], rfl, rfl⟩
  | cons t before ih =>
    obtain ⟨front, hfront, hbefore⟩ := ih
    refine ⟨t.broughtIn.map (withRemark (nextRemark (before ++ rest))) ++ front, ?_, ?_⟩
    · rw [List.cons_append, recorded, hfront, List.append_assoc]
    · simp [hbefore, withRemark, Function.comp_def]

/-! ## Blocks -/

theorem scanned_eq {t : Tree} (ht : t.isA .assign = false) : t.scanned = t :: t.subnodes.flatMap scanned := by
  rw [scanned, outline_eq, ht]
  rfl

theorem scanned_assign {t : Tree} (ht : t.isA .assign = true) : t.scanned = [t] := by
  rw [scanned, outline_eq, ht]
  rfl

theorem nextRemark_flatMap (later beyond : List Tree) :
    nextRemark (later.flatMap scanned ++ beyond) = nextRemark (later ++ beyond) := by
  induction later with
  | nil => rfl
  | cons u later ih =>
    by_cases hu : u.isA .assign = true
    · simp [scanned_assign hu, nextRemark, hu, ih]
    · rw [Bool.not_eq_true] at hu
      simp [scanned_eq hu, nextRemark, hu]

theorem scanned_import {t : Tree} (ht : (t.isA .importNames || t.isA .fromImport) = true) : t.scanned = [t] := by
  rw [Bool.or_eq_true] at ht
  rcases ht with ht | ht
  · rw [scanned_eq (isA_other ht (by decide)), subnodes_of_isA ht (by decide)]
    rfl
  · rw [scanned_eq (isA_other ht (by decide)), subnodes_of_isA ht (by decide)]
    rfl

/-- What stands in the outline around a statement of a block. -/
theorem scanned_block {t b : Tree} {before after : List Tree} (ht : t.scanned = before ++ b :: after)
    (hb : b.isA .block = true) : ∃ beyond, after = b.subnodes.flatMap scanned ++ beyond := by
  obtain ⟨beyond, hafter⟩ := outline_split ht
  refine ⟨beyond, ?_⟩
  have hscanned := scanned_eq (isA_other hb (by decide : Kind.block ≠ .assign))
  unfold scanned at hscanned
  rw [hscanned, List.cons_append] at hafter
  exact (List.cons.inj hafter).2

/-- **The next remark.** The imports of a statement in a block have one remark. It is that of the first node which is no
assignment among the later statements of the block and, behind them, the nodes beyond the block. So it is that of the
next statement if there is one which is no assignment. -/
theorem remark_of_statement {t : Tree} (h : t.wellFormed = true) :
    ∃ records, t.imports = .ok records ∧
      ∀ before b after, t.scanned = before ++ b :: after → b.isA .block = true →
      ∀ earlier i later, b.subnodes = earlier ++ i :: later → (i.isA .importNames || i.isA .fromImport) = true →
      ∃ front pragma back beyond,
        records = front ++ i.broughtIn.map (withRemark pragma) ++ back ∧
        front.map ImportRecord.toImport = (before ++ earlier.flatMap scanned).flatMap broughtIn ∧
        after = b.subnodes.flatMap scanned ++ beyond ∧
        ∀ v, v ≠ .none →
          (pragma = v ↔ ∃ next, (later ++ beyond).find? (fun u => !u.isA .assign) = some next ∧ next.IsRemark v) ∧
          ∀ next rest, later = next :: rest → next.isA .assign = false → (pragma = v ↔ next.IsRemark v) := by
  refine ⟨recorded t.scanned, imports_eq h, ?_⟩
  intro before b after ht hb earlier i later hsub hi
  obtain ⟨beyond, hafter⟩ := scanned_block ht hb
  -- the outline around the statement: what comes before it, itself, the later statements, and what is beyond
  have hsplit : t.scanned = (before ++ b :: earlier.flatMap scanned) ++ i :: (later.flatMap scanned ++ beyond) := by
    rw [ht, hafter, hsub]
    simp [scanned_import hi]
  obtain ⟨front, hfront, hbefore⟩ := recorded_append (before ++ b :: earlier.flatMap scanned)
    (i :: (later.flatMap scanned ++ beyond))
  have hnone : b.broughtIn = [] :=
    broughtIn_other (isA_other hb (by decide)) (isA_other hb (by decide)) (isA_other hb (by decide))
  refine ⟨front, nextRemark (later ++ beyond), recorded (later.flatMap scanned ++ beyond), beyond, ?_, ?_, hafter, ?_⟩
  · rw [hsplit, hfront, recorded, nextRemark_flatMap, List.append_assoc]
  · rw [hbefore]
    simp [hnone]
  · intro v hv
    refine ⟨nextRemark_eq_iff hv, ?_⟩
    rintro next rest rfl hnext
    rw [nextRemark_eq_iff hv]
    simp [hnext]

/-! ## Remarks that go astray

A remark after an assignment, and one after the block of an import, is taken for one on the import. -/

namespace Astray

def importOf (module : String) : Tree :=
  node .importNames (.int 1) [list [tuple [word module, plain .none]]]

def assignment : Tree :=
  node .assign (.int 2) [list [node .assignName (.int 2) [word "x", word "OP_ASSIGN"]],
    node .const (.int 2) [plain (.int 1)]]

def optional : Tree := node .discard (.int 3) [node .const (.int 3) [word "OPTIONAL"]]

def innerBlock : Tree := node .block .none [list [importOf "b"]]

def condition : Tree := node .branch (.int 4) [list [tuple [node .name (.int 4) [word "x"], innerBlock]], plain .none]

def outerBlock : Tree := node .block .none [list [importOf "a", assignment, optional, condition, optional]]

def program : Tree := node .program .none [plain .none, outerBlock]

end Astray

open Astray

/-- The statement after the first import is no remark, and the second import has none after it in its block. -/
theorem remarks_astray :
    program.wellFormed = true ∧
    program.imports = .ok (((importOf "a").broughtIn ++ (importOf "b").broughtIn).map (withRemark (.str "OPTIONAL"))) ∧
    outerBlock.subnodes = [importOf "a", assignment, optional, condition, optional] ∧
    ¬ assignment.IsRemark (.str "OPTIONAL") ∧ innerBlock.subnodes = [importOf "b"] := by
  refine ⟨by decide, rfl, by cbv, ?_, by cbv⟩
  rintro ⟨h, -⟩
  cases h

theorem remark_of_statement_astray : ∃ front back,
    program.imports = .ok (front ++ (importOf "a").broughtIn.map (withRemark (.str "OPTIONAL")) ++ back) := by
  obtain ⟨records, himports, hremarks⟩ := remark_of_statement (t := program) (by decide)
  obtain ⟨front, pragma, back, beyond, hrecords, -, -, hpragma⟩ := hremarks [program] outerBlock
    [importOf "a", assignment, optional, node .const (.int 3) [word "OPTIONAL"], condition,
      node .name (.int 4) [word "x"], innerBlock, importOf "b", optional, node .const (.int 3) [word "OPTIONAL"]]
    (by cbv) rfl [] (importOf "a") [assignment, optional, condition, optional] (by cbv) rfl
  have hoptional : pragma = .str "OPTIONAL" := by
    apply (hpragma (.str "OPTIONAL") (by simp)).1.2
    exact ⟨optional, rfl, rfl, rfl, rfl⟩
  exact ⟨front, back, by rw [himports, hrecords, hoptional]⟩

end ImportAtlas
