import Mathlib.Order.Defs.Unbundled
import RuleTypes.Failure

/-!
# Operations on a state

The type table and the checker are both worked by operations that change a state and then answer
or fail. Three views of such an operation are used below.

* What it has done when it answers: `x s = .ok a s'` is opened along the steps of `x` by the
  lemmas `*_eq_ok`.
* What it can do at all: `Moves R x` relates the state it ends in to the one it starts from,
  whether it answers or fails. For a preorder `R` this follows from the steps of `x`. Where an
  answer leaves another trace than a failure, `Goes R E x` has a relation for each.
* How it can fail: `Safe x s` says that `x`, started in `s`, meets no fault, and `Refuses P x s`
  that its errors are in `P`.
-/

namespace RuleTypes

variable {ε σ α β : Type} {x : EStateM ε σ α} {f : α → EStateM ε σ β} {s s' : σ}

/-! ## Operations that answer -/

theorem bind_of_ok {a : α} (h : x s = .ok a s') : (x >>= f) s = f a s' := by
  change EStateM.bind x f s = _
  unfold EStateM.bind
  rw [h]

theorem bind_of_error {e : ε} (h : x s = .error e s') : (x >>= f) s = .error e s' := by
  change EStateM.bind x f s = _
  unfold EStateM.bind
  rw [h]

/-- Two sequences do the same if their steps do. -/
theorem bind_congr_at {y : EStateM ε σ α} {g : α → EStateM ε σ β} (hx : x s = y s)
    (hf : ∀ a s', x s = .ok a s' → f a s' = g a s') : (x >>= f) s = (y >>= g) s := by
  cases hs : x s with
  | error e s₁ => rw [bind_of_error hs, bind_of_error (hx.symm.trans hs)]
  | ok a s₁ => rw [bind_of_ok hs, bind_of_ok (hx.symm.trans hs), hf a s₁ hs]

theorem get_bind {g : σ → EStateM ε σ β} : ((get : EStateM ε σ σ) >>= g) s = g s s := rfl

theorem bind_eq_ok {b : β} :
    (x >>= f) s = .ok b s' ↔ ∃ a s₁, x s = .ok a s₁ ∧ f a s₁ = .ok b s' := by
  change EStateM.bind x f s = _ ↔ _
  unfold EStateM.bind
  cases x s <;> simp [and_assoc]

theorem bind_eq_error {e : ε} :
    (x >>= f) s = .error e s' ↔
      x s = .error e s' ∨ ∃ a s₁, x s = .ok a s₁ ∧ f a s₁ = .error e s' := by
  change EStateM.bind x f s = _ ↔ _
  unfold EStateM.bind
  cases x s <;> simp [and_assoc]

theorem pure_eq_ok {a b : α} :
    (pure a : EStateM ε σ α) s = .ok b s' ↔ a = b ∧ s = s' := by
  change EStateM.Result.ok a s = _ ↔ _
  simp

theorem pure_eq_error {a : α} {e : ε} :
    (pure a : EStateM ε σ α) s = .error e s' ↔ False := by
  change EStateM.Result.ok a s = _ ↔ _
  simp

theorem throw_eq_ok {e : ε} {a : α} : (throw e : EStateM ε σ α) s = .ok a s' ↔ False := by
  change EStateM.Result.error e s = _ ↔ _
  simp

theorem get_eq_ok {a : σ} : (get : EStateM ε σ σ) s = .ok a s' ↔ s = a ∧ s = s' := by
  change EStateM.Result.ok s s = _ ↔ _
  simp

theorem modify_eq_ok {g : σ → σ} {u : PUnit} :
    (modify g : EStateM ε σ PUnit) s = .ok u s' ↔ g s = s' := by
  change EStateM.Result.ok PUnit.unit (g s) = _ ↔ _
  simp

theorem map_eq_ok {g : α → β} {b : β} (h : (g <$> x) s = .ok b s') : ∃ a, x s = .ok a s' := by
  change EStateM.map g x s = _ at h
  unfold EStateM.map at h
  cases hx : x s with
  | ok a s₁ =>
    simp only [hx, EStateM.Result.ok.injEq] at h
    exact ⟨a, h.2 ▸ rfl⟩
  | error cause s₁ => simp [hx] at h

theorem run'_eq_some {a : α} : x.run' s = some a ↔ ∃ s', x s = .ok a s' := by
  unfold EStateM.run' EStateM.run
  cases x s <;> simp

/-- The same for answers that come without a state. -/
theorem except_bind_eq_ok {x : Except ε α} {f : α → Except ε β} {b : β} :
    (x >>= f) = .ok b ↔ ∃ a, x = .ok a ∧ f a = .ok b := by
  cases x <;> simp [bind, Except.bind]

theorem except_bind_eq_error {x : Except ε α} {f : α → Except ε β} {e : ε} :
    (x >>= f) = .error e ↔ x = .error e ∨ ∃ a, x = .ok a ∧ f a = .error e := by
  cases x <;> simp [bind, Except.bind]

theorem except_mapM_congr {f g : α → Except ε β} {as : List α}
    (h : ∀ a ∈ as, f a = g a) : as.mapM f = as.mapM g := by
  induction as with
  | nil => rfl
  | cons a as ih =>
    obtain ⟨hfirst, hrest⟩ := List.forall_mem_cons.mp h
    rw [List.mapM_cons, List.mapM_cons, hfirst, ih hrest]

theorem except_mapM_mono {f g : α → Except ε β} (h : ∀ a b, f a = .ok b → g a = .ok b)
    {as : List α} {bs : List β} (has : as.mapM f = .ok bs) : as.mapM g = .ok bs := by
  induction as generalizing bs with
  | nil => exact has
  | cons a as ih =>
    rw [List.mapM_cons, except_bind_eq_ok] at has ⊢
    obtain ⟨b, hb, has⟩ := has
    obtain ⟨rest, hrest, has⟩ := except_bind_eq_ok.mp has
    exact ⟨b, h a b hb, except_bind_eq_ok.mpr ⟨rest, ih hrest, has⟩⟩

theorem except_mapM_mem {f : α → Except ε β} {as : List α} {bs : List β} {a : α}
    (has : as.mapM f = .ok bs) (ha : a ∈ as) : ∃ b ∈ bs, f a = .ok b := by
  induction as generalizing bs with
  | nil => cases ha
  | cons first as ih =>
    rw [List.mapM_cons, except_bind_eq_ok] at has
    obtain ⟨b, hb, has⟩ := has
    obtain ⟨rest, hrest, has⟩ := except_bind_eq_ok.mp has
    obtain rfl : b :: rest = bs := Except.ok.inj has
    obtain rfl | ha := List.mem_cons.mp ha
    · exact ⟨b, List.mem_cons_self .., hb⟩
    · obtain ⟨b', hmem, hb'⟩ := ih hrest ha
      exact ⟨b', List.mem_cons_of_mem _ hmem, hb'⟩

theorem except_mapM_ok {f : α → Except ε β} {as : List α} (h : ∀ a ∈ as, ∃ b, f a = .ok b) :
    ∃ bs, as.mapM f = .ok bs := by
  induction as with
  | nil => exact ⟨[], rfl⟩
  | cons a as ih =>
    obtain ⟨b, hb⟩ := h a (List.mem_cons_self ..)
    obtain ⟨bs, hbs⟩ := ih fun a ha => h a (List.mem_cons_of_mem _ ha)
    refine ⟨b :: bs, ?_⟩
    rw [List.mapM_cons, hb]
    simp only [bind, Except.bind, hbs]
    rfl

/-- If the second answer for each member follows from the first, then so do the answers for the
list. -/
theorem except_mapM_through {γ : Type} {f : α → Except ε β} {g : α → Except ε γ}
    {h : β → Except ε γ} {as : List α} {bs : List β}
    (hfg : ∀ a ∈ as, ∀ b, f a = .ok b → g a = h b) (has : as.mapM f = .ok bs) :
    as.mapM g = bs.mapM h := by
  induction as generalizing bs with
  | nil =>
    obtain rfl : [] = bs := Except.ok.inj has
    rfl
  | cons a as ih =>
    rw [List.mapM_cons, except_bind_eq_ok] at has
    obtain ⟨b, hb, has⟩ := has
    obtain ⟨rest, hrest, has⟩ := except_bind_eq_ok.mp has
    obtain rfl : b :: rest = bs := Except.ok.inj has
    rw [List.mapM_cons, List.mapM_cons, hfg a (List.mem_cons_self ..) b hb,
      ih (fun a ha => hfg a (List.mem_cons_of_mem _ ha)) hrest]

/-! ## Operations however they end -/

/-- The state that an operation ends in, whether it answers or fails. -/
def endState : EStateM.Result ε σ α → σ
  | .ok _ s => s
  | .error _ s => s

theorem endState_map (g : α → β) (x : EStateM ε σ α) (s : σ) :
    endState ((g <$> x) s) = endState (x s) := by
  change endState (EStateM.map g x s) = _
  unfold EStateM.map
  cases x s <;> rfl

/-- Wherever the operation starts and however it ends, the end is related to the start. -/
def Moves (R : σ → σ → Prop) (x : EStateM ε σ α) : Prop := ∀ s, R s (endState (x s))

namespace Moves

variable {R : σ → σ → Prop}

theorem ok (h : Moves R x) {a : α} (hx : x s = .ok a s') : R s s' := by
  simpa only [hx, endState] using h s

theorem error (h : Moves R x) {e : ε} (hx : x s = .error e s') : R s s' := by
  simpa only [hx, endState] using h s

theorem mono {R' : σ → σ → Prop} (hR : ∀ s s', R s s' → R' s s') (h : Moves R x) : Moves R' x :=
  fun s => hR _ _ (h s)

variable [IsPreorder σ R]

/-- An operation that only reads. -/
theorem of_same (h : ∀ s, endState (x s) = s) : Moves R x := fun s => by
  rw [h s]
  exact refl_of R s

theorem pure (a : α) : Moves R (Pure.pure a : EStateM ε σ α) := of_same fun _ => rfl

theorem throw (e : ε) : Moves R (MonadExcept.throw e : EStateM ε σ α) := of_same fun _ => rfl

theorem get : Moves R (MonadState.get : EStateM ε σ σ) := of_same fun _ => rfl

/-- What follows a step has to be looked at only for the states and the answers that the step can
end with. -/
theorem bind_at (hx : R s (endState (x s)))
    (hf : ∀ a s', x s = .ok a s' → R s' (endState (f a s'))) : R s (endState ((x >>= f) s)) := by
  cases hs : x s with
  | error e s₁ =>
    rw [bind_of_error hs]
    simpa only [hs, endState] using hx
  | ok a s₁ =>
    rw [bind_of_ok hs]
    have hfirst : R s s₁ := by simpa only [hs, endState] using hx
    exact trans_of R hfirst (hf a s₁ hs)

theorem bind_of (hx : Moves R x) (hf : ∀ a s s', x s = .ok a s' → Moves R (f a)) :
    Moves R (x >>= f) := fun s => bind_at (hx s) fun a s' hs => hf a s s' hs s'

theorem bind (hx : Moves R x) (hf : ∀ a, Moves R (f a)) : Moves R (x >>= f) :=
  hx.bind_of fun a _ _ _ => hf a

end Moves

/-! ## Answers and failures apart -/

/-- Wherever the operation starts, an answer is related to the start by `R`, and a failure by
`E`. -/
def Goes (R : σ → σ → Prop) (E : ε → σ → σ → Prop) (x : EStateM ε σ α) : Prop :=
  ∀ s, match x s with
    | .ok _ s' => R s s'
    | .error e s' => E e s s'

/-- What is needed to follow the steps of an operation: a failure comes after steps that
answered. -/
class Follows (R : σ → σ → Prop) (E : ε → σ → σ → Prop) : Prop extends IsPreorder σ R where
  fails : ∀ e s, E e s s
  after : ∀ {e s s' s''}, R s s' → E e s' s'' → E e s s''

instance {R : σ → σ → Prop} [IsPreorder σ R] : Follows R (fun _ : ε => R) where
  fails _ s := refl_of R s
  after h h' := trans_of R h h'

theorem Moves.goes {R : σ → σ → Prop} (h : Moves R x) : Goes R (fun _ => R) x := fun s => by
  have hs := h s
  revert hs
  cases x s <;> exact id

namespace Goes

variable {R : σ → σ → Prop} {E : ε → σ → σ → Prop}

theorem of_ends (hok : ∀ {s a s'}, x s = .ok a s' → R s s')
    (herror : ∀ {s e s'}, x s = .error e s' → E e s s') : Goes R E x := fun s => by
  cases hs : x s with
  | ok a s' => exact hok hs
  | error e s' => exact herror hs

theorem ok (h : Goes R E x) {a : α} (hx : x s = .ok a s') : R s s' := by
  simpa only [hx] using h s

theorem error (h : Goes R E x) {e : ε} (hx : x s = .error e s') : E e s s' := by
  simpa only [hx] using h s

theorem moves (h : Goes R (fun _ => R) x) : Moves R x := fun s => by
  have hs := h s
  revert hs
  cases x s <;> exact id

theorem mono {R' : σ → σ → Prop} {E' : ε → σ → σ → Prop} (hR : ∀ s s', R s s' → R' s s')
    (hE : ∀ e s s', E e s s' → E' e s s') (h : Goes R E x) : Goes R' E' x := fun s => by
  have hs := h s
  revert hs
  cases x s with
  | ok a s' => exact hR s s'
  | error e s' => exact hE e s s'

variable [Follows R E]

/-- An operation whose failures are reached by steps that answer. -/
theorem of_moves (h : Moves R x) : Goes R E x :=
  h.goes.mono (fun _ _ h => h) fun e _ s' h => Follows.after h (Follows.fails R e s')

/-- An operation that only reads. -/
theorem reads (h : Moves Eq x) : Goes R E x :=
  of_moves (h.mono fun s s' (heq : s = s') => heq ▸ refl_of R s)

theorem pure (a : α) : Goes R E (Pure.pure a : EStateM ε σ α) := of_moves (.pure a)

theorem throw (e : ε) : Goes R E (MonadExcept.throw e : EStateM ε σ α) := of_moves (.throw e)

theorem get : Goes R E (MonadState.get : EStateM ε σ σ) := of_moves .get

/-- What follows a step has to be looked at only for the answers that the step can give. -/
theorem bind_of (hx : Goes R E x) (hf : ∀ a s s', x s = .ok a s' → Goes R E (f a)) :
    Goes R E (x >>= f) := fun s => by
  cases hs : x s with
  | error e s₁ =>
    rw [bind_of_error hs]
    exact hx.error hs
  | ok a s₁ =>
    rw [bind_of_ok hs]
    have hfirst := hx.ok hs
    have hrest := hf a s s₁ hs s₁
    revert hrest
    cases f a s₁ with
    | ok b s₂ => exact trans_of R hfirst
    | error e s₂ => exact Follows.after hfirst

theorem bind (hx : Goes R E x) (hf : ∀ a, Goes R E (f a)) : Goes R E (x >>= f) :=
  hx.bind_of fun a _ _ _ => hf a

end Goes

/-! ## Faults and errors -/

/-- Started in `s`, the operation meets no fault. -/
def Safe (x : EStateM (Failure ε) σ α) (s : σ) : Prop :=
  ∀ cause s', x s ≠ .error (.fault cause) s'

/-- Started in `s`, the operation ends in no errors but those in `P`. -/
def Refuses (P : ε → Prop) (x : EStateM (Failure ε) σ α) (s : σ) : Prop :=
  ∀ cause s', x s = .error (.error cause) s' → P cause

section Failing

variable {P Q : ε → Prop} {x y : EStateM (Failure ε) σ α} {f : α → EStateM (Failure ε) σ β}

namespace Safe

theorem of_ok {a : α} (h : x s = .ok a s') : Safe x s := by
  intro cause s₁ he
  rw [h] at he
  cases he

theorem of_error {cause : ε} (h : x s = .error (.error cause) s') : Safe x s := by
  intro cause s₁ he
  rw [h] at he
  cases he

theorem congr (h : x s = y s) (hy : Safe y s) : Safe x s := fun cause s₁ he =>
  hy cause s₁ (h ▸ he)

theorem pure (a : α) : Safe (Pure.pure a : EStateM (Failure ε) σ α) s := of_ok rfl

theorem throw (cause : ε) :
    Safe (MonadExcept.throw (.error cause) : EStateM (Failure ε) σ α) s := of_error rfl

theorem get : Safe (MonadState.get : EStateM (Failure ε) σ σ) s := of_ok rfl

theorem bind (hx : Safe x s) (hf : ∀ a s', x s = .ok a s' → Safe (f a) s') :
    Safe (x >>= f) s := by
  intro cause s₁ he
  obtain he | ⟨a, s₂, hok, he⟩ := bind_eq_error.mp he
  · exact hx cause s₁ he
  · exact hf a s₂ hok cause s₁ he

/-- A step that answers. -/
theorem step {a : α} (hx : x s = .ok a s') (hf : Safe (f a) s') : Safe (x >>= f) s :=
  fun cause s₁ he => hf cause s₁ ((bind_of_ok hx).symm.trans he)

/-- A step that only reads. -/
theorem read (hreads : Moves Eq x) (hx : Safe x s) (hf : ∀ a, x s = .ok a s → Safe (f a) s) :
    Safe (x >>= f) s :=
  .bind hx fun a s' hok => by
    obtain rfl : s = s' := hreads.ok hok
    exact hf a hok

/-- An operation without a fault answers or ends in an error. -/
theorem ends (h : Safe x s) :
    (∃ a s', x s = .ok a s') ∨ ∃ cause s', x s = .error (.error cause) s' := by
  cases hx : x s with
  | ok a s' => exact .inl ⟨a, s', rfl⟩
  | error e s' =>
    cases e with
    | error cause => exact .inr ⟨cause, s', rfl⟩
    | fault cause => exact absurd hx (h cause s')

end Safe

namespace Refuses

theorem of_ok {a : α} (h : x s = .ok a s') : Refuses P x s := by
  intro cause s₁ he
  rw [h] at he
  cases he

theorem of_error {cause : ε} (h : x s = .error (.error cause) s') (hcause : P cause) :
    Refuses P x s := by
  intro other s₁ he
  rw [h] at he
  cases he
  exact hcause

theorem congr (h : x s = y s) (hy : Refuses P y s) : Refuses P x s := fun cause s₁ he =>
  hy cause s₁ (h ▸ he)

theorem pure (a : α) : Refuses P (Pure.pure a : EStateM (Failure ε) σ α) s := of_ok rfl

theorem throw {cause : ε} (h : P cause) :
    Refuses P (MonadExcept.throw (.error cause) : EStateM (Failure ε) σ α) s := of_error rfl h

theorem bind (hx : Refuses P x s) (hf : ∀ a s', x s = .ok a s' → Refuses P (f a) s') :
    Refuses P (x >>= f) s := by
  intro cause s₁ he
  obtain he | ⟨a, s₂, hok, he⟩ := bind_eq_error.mp he
  · exact hx cause s₁ he
  · exact hf a s₂ hok cause s₁ he

theorem mono (hP : ∀ cause, P cause → Q cause) (h : Refuses P x s) : Refuses Q x s :=
  fun cause s₁ he => hP cause (h cause s₁ he)

end Refuses

end Failing

end RuleTypes
