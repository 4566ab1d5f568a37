import ImportAtlas.Fault

/-!
# Computations that keep a state

A computation that ends with an answer did so at each of its steps (`bind_inv`, `foldlM_run`). A computation
respects a relation between states if it stays among related states and ends alike from any two of them; what
is put together from such computations is one again.
-/

namespace ImportAtlas

section

variable {ε σ α β : Type}

theorem except_bind_inv {x : Except ε α} {f : α → Except ε β} {b : β} (h : x >>= f = .ok b) :
    ∃ a, x = .ok a ∧ f a = .ok b := by
  cases x with
  | error e => cases h
  | ok a => exact ⟨a, rfl, h⟩

theorem mem_of_mapM {g : α → Except ε β} {xs : List α} {ys : List β} (h : xs.mapM g = .ok ys) (y : β) :
    y ∈ ys ↔ ∃ x ∈ xs, g x = .ok y := by
  induction xs generalizing ys with
  | nil =>
    cases h
    simp
  | cons x xs ih =>
    rw [List.mapM_cons] at h
    obtain ⟨z, hz, h⟩ := except_bind_inv h
    obtain ⟨zs, hzs, h⟩ := except_bind_inv h
    cases h
    simp [ih hzs, hz, eq_comm]

theorem mapM_ok {g : α → Except ε β} {xs : List α} (h : ∀ x ∈ xs, ∃ y, g x = .ok y) : ∃ ys, xs.mapM g = .ok ys := by
  induction xs with
  | nil => exact ⟨[], rfl⟩
  | cons x xs ih =>
    obtain ⟨y, hy⟩ := h x List.mem_cons_self
    obtain ⟨ys, hys⟩ := ih fun z hz => h z (List.mem_cons_of_mem x hz)
    exact ⟨y :: ys, by rw [List.mapM_cons, hy, hys]; rfl⟩

theorem of_mapM_ok {g : α → Except ε β} {xs : List α} {ys : List β} (h : xs.mapM g = .ok ys) :
    ∀ x ∈ xs, ∃ y, g x = .ok y := by
  induction xs generalizing ys with
  | nil => exact List.forall_mem_nil _
  | cons x xs ih =>
    rw [List.mapM_cons] at h
    obtain ⟨z, hz, h⟩ := except_bind_inv h
    obtain ⟨zs, hzs, _⟩ := except_bind_inv h
    exact List.forall_mem_cons.2 ⟨⟨z, hz⟩, ih hzs⟩

theorem mapM_error {g : α → Except ε β} {xs : List α} {e : ε} (h : xs.mapM g = .error e) :
    ∃ x ∈ xs, g x = .error e := by
  induction xs with
  | nil => cases h
  | cons x xs ih =>
    rw [List.mapM_cons] at h
    cases hx : g x with
    | error e' => rw [hx] at h; cases h; exact ⟨x, List.mem_cons_self, hx⟩
    | ok y =>
      rw [hx] at h
      cases hxs : xs.mapM g with
      | ok ys => simp only [hxs] at h; cases h
      | error e' =>
        simp only [hxs] at h
        cases h
        obtain ⟨z, hz, hgz⟩ := ih hxs
        exact ⟨z, List.mem_cons_of_mem x hz, hgz⟩

theorem eq_map_of_mapM {g : α → Except ε β} {f : α → β} (hg : ∀ x y, g x = .ok y → y = f x) {xs : List α}
    {ys : List β} (h : xs.mapM g = .ok ys) : ys = xs.map f := by
  induction xs generalizing ys with
  | nil =>
    cases h
    rfl
  | cons x xs ih =>
    rw [List.mapM_cons] at h
    obtain ⟨y, hy, h⟩ := except_bind_inv h
    obtain ⟨ys', hys, h⟩ := except_bind_inv h
    cases h
    rw [List.map_cons, hg x y hy, ih hys]

theorem eq_ok_of_toOption {x : Except ε α} {a : α} (h : x.toOption = some a) : x = .ok a := by
  cases x with
  | error e => cases h
  | ok b => cases h; rfl

instance decidableExistsOk {x : Except ε α} {p : α → Prop} [DecidablePred p] : Decidable (∃ a, x = .ok a ∧ p a) :=
  match x with
  | .ok a => decidable_of_iff (p a) (by simp)
  | .error _ => isFalse (by simp)

theorem bind_inv {x : EStateM ε σ α} {f : α → EStateM ε σ β} {s s' : σ} {b : β}
    (h : (x >>= f) s = .ok b s') : ∃ a s₁, x s = .ok a s₁ ∧ f a s₁ = .ok b s' := by
  change EStateM.bind x f s = _ at h
  unfold EStateM.bind at h
  cases hx : x s with
  | ok a s₁ => rw [hx] at h; exact ⟨a, s₁, rfl, h⟩
  | error e s₁ => rw [hx] at h; cases h

theorem bind_error_inv {x : EStateM ε σ α} {f : α → EStateM ε σ β} {s s' : σ} {e : ε}
    (h : (x >>= f) s = .error e s') : x s = .error e s' ∨ ∃ a s₁, x s = .ok a s₁ ∧ f a s₁ = .error e s' := by
  change EStateM.bind x f s = _ at h
  unfold EStateM.bind at h
  cases hx : x s with
  | ok a s₁ => rw [hx] at h; exact .inr ⟨a, s₁, rfl, h⟩
  | error e s₁ => rw [hx] at h; cases h; exact .inl rfl

theorem exists_of_run' {x : EStateM ε σ α} {f : α → β} {b : β} {s : σ} (h : (x.run' s).map f = some b) :
    ∃ a s', x s = .ok a s' ∧ f a = b := by
  unfold EStateM.run' EStateM.run at h
  cases hx : x s with
  | ok a s₁ => rw [hx] at h; exact ⟨a, s₁, rfl, Option.some.inj h⟩
  | error e s₁ => rw [hx] at h; cases h

def faultOf (x : EStateM ε σ α) (s : σ) : Option ε :=
  match x s with
  | .ok _ _ => none
  | .error e _ => some e

theorem exists_of_faultOf {x : EStateM ε σ α} {e : ε} {s : σ} (h : faultOf x s = some e) : ∃ t, x s = .error e t := by
  unfold faultOf at h
  cases hx : x s with
  | ok a t => rw [hx] at h; cases h
  | error e' t => rw [hx] at h; cases h; exact ⟨t, rfl⟩

theorem bind_of_ok {x : EStateM ε σ α} {a : α} {s s₁ : σ} (h : x s = .ok a s₁) (f : α → EStateM ε σ β) :
    (x >>= f) s = f a s₁ := by
  change EStateM.bind x f s = _
  rw [EStateM.bind, h]

theorem bind_of_error {x : EStateM ε σ α} {e : ε} {s s₁ : σ} (h : x s = .error e s₁) (f : α → EStateM ε σ β) :
    (x >>= f) s = .error e s₁ := by
  change EStateM.bind x f s = _
  rw [EStateM.bind, h]

theorem tryCatch_of_ok {x : EStateM ε σ α} {a : α} {s s₁ : σ} (h : x s = .ok a s₁) (handle : ε → EStateM ε σ α) :
    (tryCatch x handle : EStateM ε σ α) s = .ok a s₁ := by
  change EStateM.tryCatch x handle s = _
  delta EStateM.tryCatch
  dsimp only
  rw [h]

theorem tryCatch_of_error {x : EStateM ε σ α} {e : ε} {s s₁ : σ} (h : x s = .error e s₁)
    (handle : ε → EStateM ε σ α) : (tryCatch x handle : EStateM ε σ α) s = handle e s₁ := by
  change EStateM.tryCatch x handle s = _
  delta EStateM.tryCatch
  dsimp only
  rw [h]
  rfl

theorem pure_inv {a b : α} {s s' : σ} (h : (pure a : EStateM ε σ α) s = .ok b s') : a = b ∧ s = s' := by
  cases h
  exact ⟨rfl, rfl⟩

theorem lift_inv {x : Except Fault α} {a : α} {s s' : σ} (h : (liftM x : EStateM Fault σ α) s = .ok a s') :
    x = .ok a ∧ s = s' := by
  cases x with
  | error e => cases h
  | ok b => cases h; exact ⟨rfl, rfl⟩

theorem lift_bind_inv {x : Except Fault α} {f : α → EStateM Fault σ β} {s s' : σ} {b : β}
    (h : (liftM x >>= f) s = .ok b s') : ∃ a, x = .ok a ∧ f a s = .ok b s' := by
  cases x with
  | error e => cases h
  | ok a => exact ⟨a, rfl, h⟩

theorem lift_bind_error_inv {x : Except Fault α} {f : α → EStateM Fault σ β} {s s' : σ} {e : Fault}
    (h : (liftM x >>= f) s = .error e s') : x = .error e ∨ ∃ a, x = .ok a ∧ f a s = .error e s' := by
  cases x with
  | error e => cases h; exact .inl rfl
  | ok a => exact .inr ⟨a, rfl, h⟩

theorem lift_bind_of_ok {x : Except Fault α} {a : α} (h : x = .ok a) (f : α → EStateM Fault σ β) (s : σ) :
    (liftM x >>= f) s = f a s := by
  rw [h]
  rfl

theorem lift_bind_of_error {x : Except Fault α} {e : Fault} (h : x = .error e) (f : α → EStateM Fault σ β) (s : σ) :
    (liftM x >>= f) s = .error e s := by
  rw [h]
  rfl

theorem lift_bind (x : Except Fault α) (f : α → Except Fault β) :
    (liftM (x >>= f) : EStateM Fault σ β) = liftM x >>= fun a => liftM (f a) := by
  cases x <;> rfl

theorem foldlM_lift (f : β → α → Except Fault β) (xs : List α) (b : β) :
    xs.foldlM (fun b x => (liftM (f b x) : EStateM Fault σ β)) b = liftM (xs.foldlM f b) := by
  induction xs generalizing b with
  | nil => rfl
  | cons x xs ih => simp only [List.foldlM_cons, lift_bind, ih]

theorem mapM_inv {f : α → EStateM Fault σ β} {g : α → Except Fault β}
    (hf : ∀ x s y s', f x s = .ok y s' → g x = .ok y) {xs : List α} {ys : List β} {s s' : σ}
    (h : xs.mapM f s = .ok ys s') : xs.mapM g = .ok ys := by
  induction xs generalizing ys s with
  | nil =>
    cases h
    rfl
  | cons x xs ih =>
    rw [List.mapM_cons] at h ⊢
    obtain ⟨y, s₁, hy, h⟩ := bind_inv h
    obtain ⟨ys', s₂, hys, h⟩ := bind_inv h
    obtain ⟨rfl, rfl⟩ := pure_inv h
    rw [hf x s y s₁ hy, ih hys]
    rfl

/-- What the steps of a loop carry on holds at its end, or where a step stops the loop. -/
theorem foldlM_cases {f : β → α → EStateM ε σ β} (P : List α → β → σ → Prop) {xs : List α}
    (step : ∀ done x rest b s b' s', done ++ x :: rest = xs → P done b s → f b x s = .ok b' s' →
      P (done ++ [x]) b' s')
    {b : β} {s : σ} (start : P [] b s) : (∃ b' s', xs.foldlM f b s = .ok b' s' ∧ P xs b' s') ∨
      ∃ done x rest c t e t', done ++ x :: rest = xs ∧ P done c t ∧ f c x t = .error e t' ∧
        xs.foldlM f b s = .error e t' := by
  have run : ∀ (todo done : List α) (b : β) (s : σ), done ++ todo = xs → P done b s →
      (∃ b' s', todo.foldlM f b s = .ok b' s' ∧ P xs b' s') ∨
        ∃ done x rest c t e t', done ++ x :: rest = xs ∧ P done c t ∧ f c x t = .error e t' ∧
          todo.foldlM f b s = .error e t' := by
    intro todo
    induction todo with
    | nil =>
      intro done b s hxs hp
      rw [List.append_nil] at hxs
      exact .inl ⟨b, s, rfl, hxs ▸ hp⟩
    | cons x todo ih =>
      intro done b s hxs hp
      rw [List.foldlM_cons]
      cases hx : f b x s with
      | error e t => exact .inr ⟨done, x, todo, b, s, e, t, hxs, hp, hx, bind_of_error hx _⟩
      | ok c t =>
        rw [bind_of_ok hx]
        exact ih (done ++ [x]) c t (by rw [← hxs, List.append_assoc]; rfl) (step done x todo b s c t hxs hp hx)
  exact run xs [] b s rfl start

theorem foldlM_run {f : β → α → EStateM ε σ β} (P : List α → β → σ → Prop) {xs : List α}
    (step : ∀ done x rest b s b' s', done ++ x :: rest = xs → P done b s → f b x s = .ok b' s' →
      P (done ++ [x]) b' s')
    {b b' : β} {s s' : σ} (start : P [] b s) (h : xs.foldlM f b s = .ok b' s') : P xs b' s' := by
  rcases foldlM_cases P step start with ⟨c, t, hrun, hp⟩ | ⟨_, _, _, _, _, e, t, _, _, _, hrun⟩
  · cases hrun.symm.trans h
    exact hp
  · cases hrun.symm.trans h

/-- A loop ends if every step does that starts from what the steps before carry on. -/
theorem foldlM_ends {f : β → α → EStateM ε σ β} (P : List α → β → σ → Prop) {xs : List α}
    (step : ∀ done x rest b s, done ++ x :: rest = xs → P done b s →
      ∃ b' s', f b x s = .ok b' s' ∧ P (done ++ [x]) b' s')
    {b : β} {s : σ} (start : P [] b s) : ∃ b' s', xs.foldlM f b s = .ok b' s' ∧ P xs b' s' := by
  have hstep : ∀ done x rest b s b' s', done ++ x :: rest = xs → P done b s → f b x s = .ok b' s' →
      P (done ++ [x]) b' s' := by
    intro done x rest b s b' s' hxs hp hx
    obtain ⟨c, t, hc, ht⟩ := step done x rest b s hxs hp
    cases hc.symm.trans hx
    exact ht
  refine (foldlM_cases P hstep start).resolve_right ?_
  rintro ⟨done, x, rest, c, t, e, t', hxs, hp, hx, _⟩
  obtain ⟨_, _, hok, _⟩ := step done x rest c t hxs hp
  cases hok.symm.trans hx

theorem forM_total {f : α → EStateM ε σ PUnit} {xs : List α} (hf : ∀ x ∈ xs, ∀ s, ∃ s', f x s = .ok ⟨⟩ s') :
    ∀ s, ∃ s', xs.forM f s = .ok ⟨⟩ s' := by
  induction xs with
  | nil => exact fun s => ⟨s, rfl⟩
  | cons x xs ih =>
    intro s
    obtain ⟨hx, hxs⟩ := List.forall_mem_cons.1 hf
    obtain ⟨s₁, hx⟩ := hx s
    obtain ⟨s₂, hxs⟩ := ih hxs s₁
    exact ⟨s₂, (bind_of_ok hx _).trans hxs⟩

end

/-! ## Computations that respect a relation -/

section

variable {σ α β : Type}

/-- Two ends of computations that started in states like `s`: the same answer or fault, in states like `s`. -/
inductive SameEnd (R : σ → σ → Prop) (s : σ) :
    EStateM.Result Fault σ α → EStateM.Result Fault σ α → Prop
  | ok (a : α) {s' t' : σ} : R s s' → R s' t' → SameEnd R s (.ok a s') (.ok a t')
  | error (e : Fault) {s' t' : σ} : R s s' → R s' t' → SameEnd R s (.error e s') (.error e t')

def Respects (R : σ → σ → Prop) (x : EStateM Fault σ α) : Prop :=
  ∀ s t, R s t → SameEnd R s (x s) (x t)

variable {R : σ → σ → Prop}

theorem Respects.ok {x : EStateM Fault σ α} (hx : Respects R x) {s t s' : σ} {a : α} (hst : R s t)
    (h : x s = .ok a s') : ∃ t', x t = .ok a t' ∧ R s s' ∧ R s' t' := by
  have hend := hx s t hst
  rw [h] at hend
  generalize hr : x t = r at hend
  cases hend with
  | ok _ hs ht => exact ⟨_, rfl, hs, ht⟩

variable (hR : Equivalence R)
include hR

theorem respects_pure (a : α) : Respects R (pure a : EStateM Fault σ α) := by
  intro s t hst
  exact .ok a (hR.refl s) hst

theorem respects_throw (e : Fault) : Respects R (throw e : EStateM Fault σ α) := by
  intro s t hst
  exact .error e (hR.refl s) hst

theorem respects_lift (x : Except Fault α) : Respects R (liftM x : EStateM Fault σ α) := by
  cases x with
  | ok a => exact respects_pure hR a
  | error e => exact respects_throw hR e

theorem respects_bind {x : EStateM Fault σ α} {f : α → EStateM Fault σ β} (hx : Respects R x)
    (hf : ∀ a, Respects R (f a)) : Respects R (x >>= f) := by
  intro s t hst
  change SameEnd R s (EStateM.bind x f s) (EStateM.bind x f t)
  unfold EStateM.bind
  have hend := hx s t hst
  generalize x s = rs at hend ⊢
  generalize x t = rt at hend ⊢
  cases hend with
  | error e hs ht => exact .error e hs ht
  | @ok a s₁ t₁ hs ht =>
    have hend := hf a s₁ t₁ ht
    change SameEnd R s (f a s₁) (f a t₁)
    generalize f a s₁ = rs at hend ⊢
    generalize f a t₁ = rt at hend ⊢
    cases hend with
    | ok b hs' ht' => exact .ok b (hR.trans hs hs') ht'
    | error e hs' ht' => exact .error e (hR.trans hs hs') ht'

theorem respects_foldlM {f : β → α → EStateM Fault σ β} (hf : ∀ b x, Respects R (f b x)) (xs : List α) :
    ∀ b, Respects R (xs.foldlM f b) := by
  induction xs with
  | nil => exact fun b => respects_pure hR b
  | cons x xs ih =>
    intro b
    rw [List.foldlM_cons]
    exact respects_bind hR (hf b x) ih

theorem respects_forM {f : α → EStateM Fault σ Unit} (hf : ∀ x, Respects R (f x)) (xs : List α) :
    Respects R (xs.forM f) := by
  induction xs with
  | nil => exact respects_pure hR ()
  | cons x xs ih => exact respects_bind hR (hf x) fun _ => ih

theorem respects_mapM {f : α → EStateM Fault σ β} (hf : ∀ x, Respects R (f x)) (xs : List α) :
    Respects R (xs.mapM f) := by
  induction xs with
  | nil => exact respects_pure hR []
  | cons x xs ih =>
    rw [List.mapM_cons]
    exact respects_bind hR (hf x) fun y => respects_bind hR ih fun ys => respects_pure hR (y :: ys)

theorem Respects.bind_inv {x : EStateM Fault σ α} {f : α → EStateM Fault σ β} (hx : Respects R x) {s s' : σ} {b : β}
    (h : (x >>= f) s = .ok b s') : ∃ a s₁, x s = .ok a s₁ ∧ R s s₁ ∧ f a s₁ = .ok b s' := by
  obtain ⟨a, s₁, ha, h⟩ := ImportAtlas.bind_inv h
  obtain ⟨_, _, hs, _⟩ := hx.ok (hR.refl s) ha
  exact ⟨a, s₁, ha, hs, h⟩

theorem Respects.bind_error_inv {x : EStateM Fault σ α} {f : α → EStateM Fault σ β} (hx : Respects R x) {s s' : σ}
    {e : Fault} (h : (x >>= f) s = .error e s') :
    x s = .error e s' ∨ ∃ a s₁, x s = .ok a s₁ ∧ R s s₁ ∧ f a s₁ = .error e s' := by
  refine (ImportAtlas.bind_error_inv h).imp_right ?_
  rintro ⟨a, s₁, ha, h⟩
  obtain ⟨_, _, hs, _⟩ := hx.ok (hR.refl s) ha
  exact ⟨a, s₁, ha, hs, h⟩

end

/-! ## What computations leave -/

section

variable {σ α β : Type}

/-- An end of a computation that started in `s`: the state is related to `s`, and a fault is one of `Q`. -/
inductive Left (R : σ → σ → Prop) (Q : Fault → Prop) (s : σ) : EStateM.Result Fault σ α → Prop
  | ok (a : α) {s' : σ} : R s s' → Left R Q s (.ok a s')
  | error {fault : Fault} {s' : σ} : R s s' → Q fault → Left R Q s (.error fault s')

def Leaves (R : σ → σ → Prop) (Q : Fault → Prop) (x : EStateM Fault σ α) : Prop := ∀ s, Left R Q s (x s)

variable {R : σ → σ → Prop} {Q : Fault → Prop}

theorem Leaves.ok {x : EStateM Fault σ α} (hx : Leaves R Q x) {a : α} {s s' : σ} (h : x s = .ok a s') : R s s' := by
  have hend := hx s
  rw [h] at hend
  cases hend with
  | ok _ hs => exact hs

theorem Leaves.error {x : EStateM Fault σ α} (hx : Leaves R Q x) {fault : Fault} {s s' : σ}
    (h : x s = .error fault s') : R s s' ∧ Q fault := by
  have hend := hx s
  rw [h] at hend
  cases hend with
  | error hs hfault => exact ⟨hs, hfault⟩

theorem leaves_pure (hrefl : ∀ s, R s s) (a : α) : Leaves R Q (pure a : EStateM Fault σ α) :=
  fun s => .ok a (hrefl s)

theorem leaves_lift (hrefl : ∀ s, R s s) (hfault : ∀ fault, Q fault) (x : Except Fault α) :
    Leaves R Q (liftM x : EStateM Fault σ α) := by
  intro s
  cases x with
  | ok a => exact .ok a (hrefl s)
  | error fault => exact .error (hrefl s) (hfault fault)

variable (htrans : ∀ s t u, R s t → R t u → R s u)
include htrans

theorem Left.after {s t : σ} {r : EStateM.Result Fault σ α} (h : R s t) (hr : Left R Q t r) : Left R Q s r := by
  cases hr with
  | ok a ht => exact .ok a (htrans _ _ _ h ht)
  | error ht hfault => exact .error (htrans _ _ _ h ht) hfault

theorem leaves_bind {x : EStateM Fault σ α} {f : α → EStateM Fault σ β} (hx : Leaves R Q x)
    (hf : ∀ a, Leaves R Q (f a)) : Leaves R Q (x >>= f) := by
  intro s
  cases h : x s with
  | error fault s' =>
    rw [bind_of_error h]
    exact .error (hx.error h).1 (hx.error h).2
  | ok a s' =>
    rw [bind_of_ok h]
    exact (hf a s').after htrans (hx.ok h)

variable (hrefl : ∀ s, R s s)
include hrefl

theorem leaves_forM {f : α → EStateM Fault σ PUnit} {xs : List α} (hf : ∀ x ∈ xs, Leaves R Q (f x)) :
    Leaves R Q (xs.forM f) := by
  induction xs with
  | nil => exact leaves_pure hrefl _
  | cons x xs ih =>
    obtain ⟨hx, hxs⟩ := List.forall_mem_cons.1 hf
    exact leaves_bind htrans hx fun _ => ih hxs

theorem leaves_foldlM {f : β → α → EStateM Fault σ β} {xs : List α} (hf : ∀ x ∈ xs, ∀ b, Leaves R Q (f b x)) :
    ∀ b, Leaves R Q (xs.foldlM f b) := by
  induction xs with
  | nil => exact fun b => leaves_pure hrefl b
  | cons x xs ih =>
    intro b
    obtain ⟨hx, hxs⟩ := List.forall_mem_cons.1 hf
    rw [List.foldlM_cons]
    exact leaves_bind htrans (hx b) (ih hxs)

end

end ImportAtlas
