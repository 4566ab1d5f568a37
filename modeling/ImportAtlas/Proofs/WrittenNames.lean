import ImportAtlas.Proofs.NameChains

/-!
# Written names

The names written in a program are the chains that are as long as they can be, with all their parts from the root on.
Attributes of other expressions are met on the same walk. Each of them waits for the next chain and is reported as
a part of it, so that the names in use are the written ones if and only if no chain follows such an attribute.
-/

namespace ImportAtlas

namespace Tree

inductive Mark where
  /-- A chain that is no part of a longer one, with the line of its root. -/
  | chain (names : List String) (line : Value)
  /-- An attribute of something that is no chain. -/
  | stray (attr : String)

def Mark.isStray : Mark → Bool
  | chain _ _ => false
  | stray _ => true

def taken (t : Tree) : List Mark :=
  match t.isA .attribute, t.datum 1 with
  | true, .str attr => [.stray attr]
  | _, _ => []

/-- The marks of a tree, from the top. There is nothing but a chain in a chain. -/
def marks (t : Tree) : List Mark :=
  match t.chain? with
  | some names => [.chain names t.rootLine]
  | none => t.taken ++ t.subnodes.attach.flatMap fun ⟨c, _⟩ => marks c
termination_by sizeOf t
decreasing_by exact sizeOf_lt_of_mem_subnodes ‹_›

theorem marks_chain {t : Tree} {names : List String} (h : t.chain? = some names) :
    t.marks = [.chain names t.rootLine] := by
  rw [marks, h]

theorem marks_other {t : Tree} (h : t.chain? = none) : t.marks = t.taken ++ t.subnodes.flatMap marks := by
  rw [marks, h]
  simp only
  rw [List.flatMap_subtype (g := marks) (by simp), List.unattach_attach]

end Tree

namespace NameUses

open ImportAtlas.Tree

/-! ## What is reported -/

/-- The names reported at a mark while the given attributes wait, the last of which comes right behind the chain. -/
def reportedAt (waiting : List String) : Mark → List (String × Value)
  | .chain names line => (prefixes (names ++ waiting.reverse)).map fun n => (n, line)
  | .stray _ => []

def waitingAfter (waiting : List String) : Mark → List String
  | .chain _ _ => []
  | .stray attr => waiting ++ [attr]

def reported : List String → List Mark → List (String × Value)
  | _, [] => []
  | waiting, m :: ms => reportedAt waiting m ++ reported (waitingAfter waiting m) ms

theorem reported_append (waiting : List String) (ms ms' : List Mark) :
    reported waiting (ms ++ ms') = reported waiting ms ++ reported (ms.foldl waitingAfter waiting) ms' := by
  induction ms generalizing waiting with
  | nil => rfl
  | cons m ms ih => rw [List.cons_append, reported, reported, ih, List.foldl_cons, List.append_assoc]

/-! ## The walk -/

def Reports (act : Walk NameUses Unit) (ms : List Mark) : Prop :=
  ∀ (uses : NameUses) (waiting : List String), uses.pending = waiting.map .str →
    ∃ uses', act uses = .ok () uses' ∧ uses'.pending = (ms.foldl waitingAfter waiting).map .str ∧
      uses'.dotted = uses.dotted ++ reported waiting ms

theorem reports_pure : Reports (pure ()) [] := by
  intro uses waiting hw
  exact ⟨uses, rfl, hw, (List.append_nil _).symm⟩

theorem Reports.bind {act act' : Walk NameUses Unit} {ms ms' : List Mark} (h : Reports act ms) (h' : Reports act' ms') :
    Reports (act >>= fun _ => act') (ms ++ ms') := by
  intro uses waiting hw
  obtain ⟨uses₁, hact, hw₁, hdotted₁⟩ := h uses waiting hw
  obtain ⟨uses', hact', hw', hdotted'⟩ := h' uses₁ _ hw₁
  refine ⟨uses', ?_, ?_, ?_⟩
  · rw [bind_of_ok hact, hact']
  · rw [hw', List.foldl_append]
  · rw [hdotted', hdotted₁, reported_append, List.append_assoc]

theorem reports_flatMap {ts : List Tree} (h : ∀ t ∈ ts, Reports (forM t.nodes visitor.enter) t.marks) :
    Reports (forM (ts.flatMap nodes) visitor.enter) (ts.flatMap marks) := by
  induction ts with
  | nil => exact reports_pure
  | cons t ts ih =>
    rw [List.flatMap_cons, List.flatMap_cons, List.forM_append]
    exact (h t List.mem_cons_self).bind (ih fun u hu => h u (List.mem_cons_of_mem t hu))

theorem reports_enter {t : Tree} (h : t.wellFormed = true) (hchain : t.chain? = none) :
    Reports (visitor.enter t) t.taken := by
  intro uses waiting hw
  rcases enter_cases h hw with ⟨name, line, rfl, -⟩ | ⟨attr, hattr, hdatum, henter⟩ | ⟨-, hattr, henter⟩
  · cases hchain
  · rw [taken, hattr, hdatum]
    exact ⟨_, henter, rfl, (List.append_nil _).symm⟩
  · rw [taken, hattr]
    exact ⟨uses, henter, hw, (List.append_nil _).symm⟩

theorem reports_nodes {t : Tree} (h : t.wellFormed = true) : Reports (forM t.nodes visitor.enter) t.marks := by
  induction t using induction_subnodes with
  | step t ih =>
    cases hchain : t.chain? with
    | some names =>
      rw [marks_chain hchain]
      intro uses waiting hw
      obtain ⟨uses', hrun, hpending, hdotted⟩ := forM_chain h hchain hw
      exact ⟨uses', hrun, hpending, by simpa [reported, reportedAt] using hdotted⟩
    | none =>
      rw [marks_other hchain, nodes_eq, List.forM_cons]
      apply (reports_enter h hchain).bind
      exact reports_flatMap fun c hc => ih c hc ((nodesBelow_of_wellFormed h).2 c hc)

/-! ## What is written -/

def written (ms : List Mark) : List (String × Value) :=
  ms.flatMap (reportedAt [])

theorem length_prefixes (chain : List String) : (prefixes chain).length = chain.length := by
  simp [prefixes]

theorem prefixes_append (chain more : List String) : prefixes chain <+: prefixes (chain ++ more) := by
  refine ⟨(List.range more.length).map fun n => ".".intercalate ((chain ++ more).take (chain.length + n + 1)), ?_⟩
  unfold prefixes
  rw [List.length_append, List.range_add, List.map_append, List.map_map]
  congr 1
  apply List.map_congr_left
  intro n hn
  rw [List.take_append_of_le_length (List.mem_range.1 hn)]

theorem written_sublist (waiting : List String) (ms : List Mark) : (written ms).Sublist (reported waiting ms) := by
  induction ms generalizing waiting with
  | nil => exact List.Sublist.refl _
  | cons m ms ih =>
    rw [written, List.flatMap_cons, reported]
    refine List.Sublist.append ?_ (ih _)
    cases m with
    | stray attr => exact List.Sublist.refl _
    | chain names line =>
      simp only [reportedAt, List.reverse_nil, List.append_nil]
      exact ((prefixes_append names waiting.reverse).map _).sublist

/-- Only the written names are reported if and only if no chain comes behind an attribute that waits. -/
theorem reported_eq_written_iff (waiting : List String) (ms : List Mark) :
    reported waiting ms = written ms ↔
      (waiting = [] ∨ ∀ m ∈ ms, m.isStray = true) ∧ ms.Pairwise fun m m' => m.isStray = true → m'.isStray = true := by
  induction ms generalizing waiting with
  | nil => simp [reported, written]
  | cons m ms ih =>
    cases m with
    | stray attr =>
      have hskip : reported waiting (.stray attr :: ms) = reported (waiting ++ [attr]) ms := rfl
      have hwritten : written (.stray attr :: ms) = written ms := rfl
      rw [hskip, hwritten, ih, List.pairwise_cons]
      constructor
      · rintro ⟨hnone | hall, hms⟩
        · simp at hnone
        · exact ⟨.inr (List.forall_mem_cons.2 ⟨rfl, hall⟩), fun m hm _ => hall m hm, hms⟩
      · rintro ⟨-, hall, hms⟩
        exact ⟨.inr fun m hm => hall m hm rfl, hms⟩
    | chain names line =>
      have hwritten : written (.chain names line :: ms) = reportedAt [] (.chain names line) ++ written ms := rfl
      by_cases hw : waiting = []
      · subst hw
        rw [reported, hwritten, List.append_cancel_left_eq, waitingAfter, ih]
        simp [Mark.isStray]
      · -- what waits is reported here, and nothing that is written is left out elsewhere
        have hmore :
            (written (.chain names line :: ms)).length < (reported waiting (.chain names line :: ms)).length := by
          have hrest := (written_sublist [] ms).length_le
          have hlong := List.length_pos_iff.2 hw
          rw [hwritten, reported]
          simp only [reportedAt, waitingAfter, List.length_append, List.length_map, length_prefixes,
            List.length_reverse, List.length_nil]
          omega
        constructor
        · intro heq
          rw [heq] at hmore
          exact absurd hmore (Nat.lt_irrefl _)
        · rintro ⟨hnone | hall, -⟩
          · exact absurd hnone hw
          · exact absurd (hall _ List.mem_cons_self) (by simp [Mark.isStray])

end NameUses

open NameUses ImportAtlas.Tree

/-- The names written in a tree: the parts of its longest chains, from the top. -/
def Tree.writtenNames (t : Tree) : List (String × Value) :=
  written t.marks

/-- **Names in use are the written ones, with what waited behind them.** Every chain is reported in its turn with all
its parts, and behind it with the attributes of other expressions that were met since the chain before. So all written
names are in use, and nothing else is if and only if no chain is met after an attribute of another expression. -/
theorem names_in_use_of_marks {t : Tree} (h : t.wellFormed = true) : ∃ uses, t.nameUses = .ok uses ∧
    uses.dotted = reported [] t.marks ∧ t.writtenNames.Sublist uses.dotted ∧
    (uses.dotted = t.writtenNames ↔ t.marks.Pairwise fun m m' => m.isStray = true → m'.isStray = true) := by
  obtain ⟨uses, hrun, -, hdotted⟩ := reports_nodes h {} [] rfl
  rw [List.nil_append] at hdotted
  refine ⟨uses, ?_, hdotted, ?_, ?_⟩
  · unfold Tree.nameUses Visitor.collect
    rw [Visitor.walk_outline (fun _ _ _ => rfl) h, outline_names, hrun]
  · rw [hdotted]
    exact written_sublist [] t.marks
  · rw [hdotted, Tree.writtenNames, reported_eq_written_iff]
    simp

/-! ## A literal with an attribute

The attribute waits while the arguments of the call are walked through. -/

namespace Joined

/-- `','.join(os.path); f` -/
def program : Tree :=
  node .program .none [plain .none, node .block .none [list [
    node .discard (.int 1) [node .call (.int 1) [
      node .attribute (.int 1) [node .const (.int 1) [word ","], word "join"],
      list [node .attribute (.int 1) [node .name (.int 1) [word "os"], word "path"]], plain .none, plain .none]],
    node .discard (.int 1) [node .name (.int 1) [word "f"]]]]]

theorem marks_program :
    program.marks = [.stray "join", .chain ["os", "path"] (.int 1), .chain ["f"] (.int 1)] := by
  cbv

end Joined

open ImportAtlas.Joined

theorem attribute_of_literal_in_use : program.wellFormed = true ∧
    (program.nameUses.map fun uses => uses.dotted) =
      .ok [("os", .int 1), ("os.path", .int 1), ("os.path.join", .int 1), ("f", .int 1)] ∧
    program.writtenNames = [("os", .int 1), ("os.path", .int 1), ("f", .int 1)] := by
  refine ⟨by decide, rfl, ?_⟩
  rw [Tree.writtenNames, marks_program]
  rfl

theorem names_of_joined : program.wellFormed = true ∧ ∃ uses, program.nameUses = .ok uses ∧
    uses.dotted = [("os", .int 1), ("os.path", .int 1), ("os.path.join", .int 1), ("f", .int 1)] ∧
    uses.dotted ≠ program.writtenNames := by
  have hwell : program.wellFormed = true := by decide
  obtain ⟨uses, huses, hdotted, -, hiff⟩ := names_in_use_of_marks hwell
  refine ⟨hwell, uses, huses, ?_, ?_⟩
  · rw [hdotted, marks_program]
    rfl
  · rw [ne_eq, hiff, marks_program]
    simp [Tree.Mark.isStray]

end ImportAtlas
