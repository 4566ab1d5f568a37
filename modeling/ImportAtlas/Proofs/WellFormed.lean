import ImportAtlas.Proofs.Outlines

/-!
# Well-formed trees

A tree is well formed if each of its nodes has the fields of its kind and each field holds what its role says. The
names of import statements, the names in use and the attributes are texts, and constants can be compared.
-/

namespace ImportAtlas

namespace Tree

def word (s : String) : Tree := plain (.str s)

def isText : Tree → Bool
  | plain (.str _) => true
  | _ => false

theorem exists_of_isText {t : Tree} (h : t.isText = true) : ∃ s, t = plain (.str s) := by
  unfold isText at h
  split at h
  · exact ⟨_, rfl⟩
  · cases h

def isEntry : Tree → Bool
  | tuple [plain (.str _), plain (.str _)] => true
  | tuple [plain (.str _), plain .none] => true
  | _ => false

def isEntries : Tree → Bool
  | list items => items.all isEntry
  | _ => false

theorem values?_cons {t : Tree} {ts : List Tree} {vs : List Value} (h : values? (t :: ts) = some vs) :
    ∃ w ws, vs = w :: ws ∧ t.value? = some w ∧ values? ts = some ws := by
  rw [values?] at h
  obtain ⟨w, hw, h⟩ := Option.bind_eq_some_iff.1 h
  obtain ⟨ws, hws, h⟩ := Option.bind_eq_some_iff.1 h
  exact ⟨w, ws, (Option.some.inj h).symm, hw, hws⟩

def dataFits : Kind → List Tree → Bool
  | .importNames, [names] => names.isEntries
  | .fromImport, [_, names, _] => names.isEntries
  | .name, [name] => name.isText
  | .attribute, [_, name] => name.isText
  | .const, [value] => value.value?.any Value.isKey
  | _, _ => true

mutual

def wellFormed : Tree → Bool
  | node kind _ fields => fieldsFit kind.roles fields && dataFits kind fields
  | _ => false

def fieldsFit : List Role → List Tree → Bool
  | [], [] => true
  | .plain :: roles, t :: fields => t.value?.isSome && fieldsFit roles fields
  | .node :: roles, t :: fields => wellFormed t && fieldsFit roles fields
  | .optional :: roles, plain .none :: fields => fieldsFit roles fields
  | .optional :: roles, t :: fields => wellFormed t && fieldsFit roles fields
  | .many :: roles, list items :: fields => itemsFit items && fieldsFit roles fields
  | .many :: roles, tuple items :: fields => itemsFit items && fieldsFit roles fields
  | _, _ => false

def itemsFit : List Tree → Bool
  | [] => true
  | plain _ :: rest => itemsFit rest
  | list items :: rest => itemsFit items && itemsFit rest
  | tuple items :: rest => itemsFit items && itemsFit rest
  | t :: rest => wellFormed t && itemsFit rest

end

theorem wellFormed_of_mem_openGroups {items : List Tree} (h : itemsFit items = true) {c : Tree}
    (hc : c ∈ openGroups items) (hn : c.isNode = true) : c.wellFormed = true := by
  fun_induction openGroups items with
  | case1 => cases hc
  | case2 items rest ih₁ ih₂ =>
    simp only [itemsFit, Bool.and_eq_true] at h
    rcases List.mem_append.1 hc with hc | hc
    · exact ih₁ h.1 hc
    · exact ih₂ h.2 hc
  | case3 items rest ih₁ ih₂ =>
    simp only [itemsFit, Bool.and_eq_true] at h
    rcases List.mem_append.1 hc with hc | hc
    · exact ih₁ h.1 hc
    · exact ih₂ h.2 hc
  | case4 t rest hl ht ih =>
    cases t with
    | list items => exact absurd rfl (hl items)
    | tuple items => exact absurd rfl (ht items)
    | plain v =>
      rw [itemsFit] at h
      rcases List.mem_cons.1 hc with rfl | hc
      · cases hn
      · exact ih h hc
    | node kind line fields =>
      simp only [itemsFit, Bool.and_eq_true] at h
      rcases List.mem_cons.1 hc with rfl | hc
      · exact h.1
      · exact ih h.2 hc

theorem fieldsFit_plain {roles : List Role} {fields : List Tree} (h : fieldsFit (.plain :: roles) fields = true) :
    ∃ t rest, fields = t :: rest ∧ fieldsFit roles rest = true := by
  cases fields with
  | nil => simp [fieldsFit] at h
  | cons t rest =>
    rw [fieldsFit, Bool.and_eq_true] at h
    exact ⟨t, rest, rfl, h.2⟩

theorem fieldsFit_node {roles : List Role} {fields : List Tree} (h : fieldsFit (.node :: roles) fields = true) :
    ∃ t rest, fields = t :: rest ∧ t.wellFormed = true ∧ fieldsFit roles rest = true := by
  cases fields with
  | nil => simp [fieldsFit] at h
  | cons t rest =>
    rw [fieldsFit, Bool.and_eq_true] at h
    exact ⟨t, rest, rfl, h⟩

theorem fieldsFit_many {roles : List Role} {fields : List Tree} (h : fieldsFit (.many :: roles) fields = true) :
    ∃ t rest items, fields = t :: rest ∧ (t = list items ∨ t = tuple items) ∧ itemsFit items = true ∧
      fieldsFit roles rest = true := by
  cases fields with
  | nil => simp [fieldsFit] at h
  | cons t rest =>
    cases t with
    | plain v => simp [fieldsFit] at h
    | node kind line fields => simp [fieldsFit] at h
    | list items =>
      rw [fieldsFit, Bool.and_eq_true] at h
      exact ⟨_, rest, items, rfl, .inl rfl, h⟩
    | tuple items =>
      rw [fieldsFit, Bool.and_eq_true] at h
      exact ⟨_, rest, items, rfl, .inr rfl, h⟩

theorem fieldsFit_nil {fields : List Tree} (h : fieldsFit [] fields = true) : fields = [] := by
  cases fields with
  | nil => rfl
  | cons t rest => simp [fieldsFit] at h

theorem members_of_group {t : Tree} {items : List Tree} (h : t = list items ∨ t = tuple items) :
    members t = .ok (openGroups items) := by
  rcases h with rfl | rfl
  · rw [members]
  · rw [members]

theorem nodesFrom_many {t : Tree} {ms : List Tree} (hms : members t = .ok ms) {roles : List Role}
    {fields cs : List Tree} (h : nodesFrom roles fields = .ok cs) :
    nodesFrom (.many :: roles) (t :: fields) = .ok (ms.filter isNode ++ cs) := by
  rw [nodesFrom, hms, h]
  rfl

theorem nodesFrom_one {role : Role} {t : Tree} (hp : role ≠ .plain) (ho : role = .optional → t ≠ .plain .none)
    (hm : role ≠ .many) {roles : List Role} {fields cs : List Tree} (h : nodesFrom roles fields = .ok cs) :
    nodesFrom (role :: roles) (t :: fields) = .ok (t :: cs) := by
  rw [nodesFrom, h]
  · rfl
  · exact hp
  · exact ho
  · exact hm

theorem nodesFrom_of_fieldsFit {roles : List Role} {fields : List Tree} (h : fieldsFit roles fields = true) :
    ∃ cs, nodesFrom roles fields = .ok cs ∧ ∀ c ∈ cs, c.wellFormed = true := by
  induction roles generalizing fields with
  | nil =>
    cases fieldsFit_nil h
    exact ⟨[], by simp [nodesFrom]⟩
  | cons role roles ih =>
    cases role with
    | plain =>
      obtain ⟨t, rest, rfl, hrest⟩ := fieldsFit_plain h
      rw [nodesFrom]
      exact ih hrest
    | node =>
      obtain ⟨t, rest, rfl, ht, hrest⟩ := fieldsFit_node h
      obtain ⟨cs, hcs, hw⟩ := ih hrest
      exact ⟨t :: cs, nodesFrom_one (by simp) (by simp) (by simp) hcs, List.forall_mem_cons.2 ⟨ht, hw⟩⟩
    | optional =>
      cases fields with
      | nil => simp [fieldsFit] at h
      | cons t rest =>
        by_cases ht : t = .plain .none
        · subst ht
          rw [fieldsFit] at h
          rw [nodesFrom]
          exact ih h
        · rw [fieldsFit, Bool.and_eq_true] at h
          · obtain ⟨cs, hcs, hw⟩ := ih h.2
            exact ⟨t :: cs, nodesFrom_one (by simp) (fun _ => ht) (by simp) hcs, List.forall_mem_cons.2 ⟨h.1, hw⟩⟩
          · exact ht
    | many =>
      obtain ⟨t, rest, items, rfl, ht, hitems, hrest⟩ := fieldsFit_many h
      obtain ⟨cs, hcs, hw⟩ := ih hrest
      refine ⟨_, nodesFrom_many (members_of_group ht) hcs, fun c hc => ?_⟩
      rcases List.mem_append.1 hc with hc | hc
      · obtain ⟨hc, hn⟩ := List.mem_filter.1 hc
        exact wellFormed_of_mem_openGroups hitems hc hn
      · exact hw c hc

variable {t : Tree}

theorem exists_node_of_wellFormed (h : t.wellFormed = true) : ∃ kind line fields, t = node kind line fields ∧
    fieldsFit kind.roles fields = true ∧ dataFits kind fields = true := by
  cases t with
  | node kind line fields =>
    rw [wellFormed, Bool.and_eq_true] at h
    exact ⟨kind, line, fields, rfl, h⟩
  | _ => simp [wellFormed] at h

theorem nodesBelow_of_wellFormed (h : t.wellFormed = true) :
    t.nodesBelow = .ok t.subnodes ∧ ∀ c ∈ t.subnodes, c.wellFormed = true := by
  obtain ⟨kind, line, fields, rfl, hfields, -⟩ := exists_node_of_wellFormed h
  obtain ⟨cs, hcs, hw⟩ := nodesFrom_of_fieldsFit hfields
  have hsub : (node kind line fields).subnodes = cs := by simp [subnodes, nodesBelow, hcs, Except.toOption]
  rw [hsub, nodesBelow]
  exact ⟨hcs, hw⟩

def targetGroup (t : Tree) : List Tree :=
  match t.child 0 with
  | list items => items
  | tuple items => items
  | _ => []

theorem assign_of_wellFormed (h : t.wellFormed = true) (ht : t.isA .assign = true) :
    (t.child 0 = list t.targetGroup ∨ t.child 0 = tuple t.targetGroup) ∧ (t.child 1).wellFormed = true ∧
      t.subnodes = (openGroups t.targetGroup).filter isNode ++ [t.child 1] := by
  obtain ⟨kind, line, fields, rfl, hfields, -⟩ := exists_node_of_wellFormed h
  have hkind : kind = .assign := by simpa [isA, kind?] using ht
  subst hkind
  obtain ⟨group, rest, items, rfl, hgroup, -, hrest⟩ := fieldsFit_many hfields
  obtain ⟨value, rest, rfl, hvalue, hnil⟩ := fieldsFit_node hrest
  cases fieldsFit_nil hnil
  have hitems : (node .assign line [group, value]).targetGroup = items := by
    rcases hgroup with rfl | rfl <;> rfl
  have hnodes : nodesFrom [.many, .node] [group, value] = .ok ((openGroups items).filter isNode ++ [value]) := by
    apply nodesFrom_many (members_of_group hgroup)
    exact nodesFrom_one (by simp) (by simp) (by simp) (by simp [nodesFrom])
  rw [hitems]
  refine ⟨hgroup, hvalue, ?_⟩
  simp [subnodes, nodesBelow, Kind.roles, hnodes, Except.toOption, child, Tree.fields]

theorem wellFormed_of_mem_outline {opens : Tree → Bool} (h : t.wellFormed = true) {u : Tree}
    (hu : u ∈ t.outline opens) : u.wellFormed = true := by
  induction t using induction_subnodes with
  | step t ih =>
    rw [outline_eq, List.mem_cons] at hu
    rcases hu with rfl | hu
    · exact h
    · by_cases ho : opens t = true
      · rw [if_pos ho] at hu
        obtain ⟨c, hc, hu⟩ := List.mem_flatMap.1 hu
        exact ih c hc ((nodesBelow_of_wellFormed h).2 c hc) hu
      · simp [ho] at hu

end Tree

namespace Visitor

variable {σ : Type} {v : Visitor σ}

open ImportAtlas.Tree

theorem walk_of_wellFormed (v : Visitor σ) {t : Tree} (h : t.wellFormed = true) :
    v.walk t = (do
      let before ← get
      v.enter t
      if v.descends t then forM t.subnodes v.walk
      modify (v.leave t before)) := by
  obtain ⟨hbelow, -⟩ := nodesBelow_of_wellFormed h
  obtain ⟨kind, line, fields, rfl, -⟩ := exists_node_of_wellFormed h
  exact walk_node v hbelow

/-- A walk on the way down, through the nodes below, and on the way up. -/
theorem walk_run {t : Tree} (h : t.wellFormed = true) (hd : v.descends t = true) {s s₁ s₂ : σ}
    (henter : v.enter t s = .ok () s₁) (hbelow : forM t.subnodes v.walk s₁ = .ok () s₂) :
    v.walk t s = .ok () (v.leave t s s₂) := by
  rw [walk_of_wellFormed v h, bind_of_ok (rfl : (get : Walk σ σ) s = .ok s s), bind_of_ok henter, if_pos hd,
    bind_of_ok hbelow]
  rfl

/-- A walk that stops nowhere on the way down comes to its end. -/
theorem walk_total (hd : ∀ t, v.descends t = true) (henter : ∀ t s, ∃ s', v.enter t s = .ok () s') {t : Tree}
    (h : t.wellFormed = true) (s : σ) : ∃ s', v.walk t s = .ok () s' := by
  induction t using induction_subnodes generalizing s with
  | step t ih =>
    obtain ⟨-, hw⟩ := nodesBelow_of_wellFormed h
    obtain ⟨s₁, hs₁⟩ := henter t s
    obtain ⟨s₂, hs₂⟩ := forM_total (fun c hc => ih c hc (hw c hc)) s₁
    exact ⟨_, walk_run h (hd t) hs₁ hs₂⟩

theorem forM_flatMap {α β : Type} (g : α → List β) (f : β → Walk σ Unit) (xs : List α) :
    forM (xs.flatMap g) f = forM xs fun x => forM (g x) f := by
  induction xs with
  | nil => rfl
  | cons x xs ih => rw [List.flatMap_cons, List.forM_append, ih, List.forM_cons]

theorem forM_congr {α : Type} {f g : α → Walk σ Unit} {xs : List α} (h : ∀ x ∈ xs, f x = g x) :
    forM xs f = forM xs g := by
  induction xs with
  | nil => rfl
  | cons x xs ih =>
    rw [List.forM_cons, List.forM_cons, h x List.mem_cons_self, ih fun y hy => h y (List.mem_cons_of_mem x hy)]

/-- **A walk is its outline.** A visitor that does nothing on the way up enters the nodes of the outline in turn. -/
theorem walk_outline (hleave : ∀ t before after, v.leave t before after = after) {t : Tree} (h : t.wellFormed = true) :
    v.walk t = forM (t.outline v.descends) v.enter := by
  induction t using induction_subnodes with
  | step t ih =>
    obtain ⟨-, hw⟩ := nodesBelow_of_wellFormed h
    rw [walk_of_wellFormed v h, outline_eq, List.forM_cons]
    have hend : ∀ before, (modify (v.leave t before) : Walk σ Unit) = pure () := by
      intro before
      funext s
      change EStateM.Result.ok () (v.leave t before s) = .ok () s
      rw [hleave]
    have hsub : forM t.subnodes v.walk = forM (t.subnodes.flatMap (outline v.descends)) v.enter := by
      rw [forM_flatMap]
      exact forM_congr fun c hc => ih c hc (hw c hc)
    have hget : ∀ x : Walk σ Unit, (get >>= fun _ => x) = x := fun _ => rfl
    simp only [hend, hget]
    by_cases hd : v.descends t = true
    · simp [hd, hsub]
    · simp [hd]

end Visitor

end ImportAtlas
