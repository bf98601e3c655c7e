import Mathlib.Data.List.Forall2
import Mathlib.Data.List.Perm.Basic
import Mathlib.Order.Basic
import RuleTypes.Proofs.Steps

/-!
# Two operations side by side

Two operations that are run on different states may do the same thing in other words. How the words
of the one are those of the other is a *world*, and worlds grow while the operations run, since both
make up new words. `Mirrors S Q w x y` says that `y` follows `x`. Started in states that `S`
relates, an answer of `x` is met by an answer of `y` that `Q` relates to it, and an error of `x` by
the same error of `y`. Either way the states are related again, in a later world. A fault of `x`
asks for nothing.
-/

namespace RuleTypes

variable {ω ε σ τ α β γ δ : Type}

/-! ## Options and rows -/

section Option

variable {r r' : α → β → Prop} {x x' : Option α} {y y' : Option β}

theorem optionRel_cases (h : Option.Rel r x y) :
    x = none ∧ y = none ∨ ∃ a b, x = some a ∧ y = some b ∧ r a b := by
  cases h with
  | some hab => exact .inr ⟨_, _, rfl, rfl, hab⟩
  | none => exact .inl ⟨rfl, rfl⟩

theorem optionRel_imp (hr : ∀ a b, r a b → r' a b) (h : Option.Rel r x y) : Option.Rel r' x y := by
  cases h with
  | some hab => exact .some (hr _ _ hab)
  | none => exact .none

theorem optionRel_map_eq {f : α → γ} {g : β → γ} (hr : ∀ a b, r a b → g b = f a)
    (h : Option.Rel r x y) : y.map g = x.map f := by
  cases h with
  | some hab => exact congrArg some (hr _ _ hab)
  | none => rfl

theorem optionRel_or (h : Option.Rel r x y) (h' : Option.Rel r x' y') :
    Option.Rel r (x.or x') (y.or y') := by
  cases h with
  | none => exact h'
  | some hab => exact .some hab

end Option

theorem forall₂_getElem? {r : α → β → Prop} {l : List α} {l' : List β} (h : List.Forall₂ r l l')
    (i : Nat) : Option.Rel r l[i]? l'[i]? := by
  induction h generalizing i with
  | nil => exact .none
  | cons hab _ ih =>
    cases i with
    | zero => exact .some hab
    | succ i => exact ih i

theorem forall₂_dropLast {r : α → β → Prop} {l : List α} {l' : List β} (h : List.Forall₂ r l l') :
    List.Forall₂ r l.dropLast l'.dropLast := by
  rw [List.dropLast_eq_take, List.dropLast_eq_take, h.length_eq]
  exact List.forall₂_take _ h

theorem forall₂_getLastD {r : α → β → Prop} {l : List α} {l' : List β} (h : List.Forall₂ r l l')
    {a : α} {b : β} (hab : r a b) : r (l.getLastD a) (l'.getLastD b) := by
  induction h generalizing a b with
  | nil => exact hab
  | cons hfirst _ ih =>
    rw [List.getLastD_cons, List.getLastD_cons]
    exact ih hfirst

theorem forall₂_zip_left {r : α → β → Prop} {l : List α} {l' : List β} (names : List γ)
    (h : List.Forall₂ r l l') :
    List.Forall₂ (fun x y => x.1 = y.1 ∧ r x.2 y.2) (names.zip l) (names.zip l') := by
  induction h generalizing names with
  | nil => simp
  | cons hab _ ih =>
    cases names with
    | nil => exact .nil
    | cons name names => exact .cons ⟨rfl, hab⟩ (ih names)

/-! ## Answers without a state -/

/-- An answer of the first is met by an answer of the second. -/
def Echoes (Q : α → β → Prop) (x : Except ε α) (y : Except ε β) : Prop :=
  ∀ a, x = .ok a → ∃ b, y = .ok b ∧ Q a b

namespace Echoes

variable {Q : α → β → Prop} {x : Except ε α} {y : Except ε β}

theorem ok {a : α} {b : β} (h : Q a b) : Echoes Q (Except.ok a : Except ε α) (.ok b) := by
  intro a' ha
  obtain rfl := Except.ok.inj ha
  exact ⟨b, rfl, h⟩

theorem error (cause : ε) (y : Except ε β) : Echoes Q (.error cause) y := nofun

theorem of_eq (x : Except ε α) : Echoes Eq x x := fun a ha => ⟨a, ha, rfl⟩

theorem bind {Q' : γ → δ → Prop} {f : α → Except ε γ} {g : β → Except ε δ} (h : Echoes Q x y)
    (hfg : ∀ a b, Q a b → Echoes Q' (f a) (g b)) : Echoes Q' (x >>= f) (y >>= g) := by
  intro c hc
  obtain ⟨a, ha, hc⟩ := except_bind_eq_ok.mp hc
  obtain ⟨b, hb, hab⟩ := h a ha
  obtain ⟨d, hd, hcd⟩ := hfg a b hab c hc
  exact ⟨d, except_bind_eq_ok.mpr ⟨b, hb, hd⟩, hcd⟩

/-- The same answer is met by the same answer. -/
theorem eq_ok {y : Except ε α} (h : Echoes Eq x y) {a : α} (hx : x = .ok a) : y = .ok a := by
  obtain ⟨b, hb, rfl⟩ := h a hx
  exact hb

/-- Operations that meet each other's answers show the same, if anything. -/
theorem map_toOption_eq {Q' : β → α → Prop} {f : α → γ} {g : β → γ}
    (hQ : ∀ a b, Q a b → g b = f a) (h : Echoes Q x y) (h' : Echoes Q' y x) :
    y.toOption.map g = x.toOption.map f := by
  cases x with
  | ok a =>
    obtain ⟨b, rfl, hab⟩ := h a rfl
    exact congrArg some (hQ a b hab)
  | error cause =>
    cases y with
    | ok b =>
      obtain ⟨a, ha, -⟩ := h' b rfl
      cases ha
    | error cause' => rfl

theorem toOption_eq {y : Except ε α} (h : Echoes Eq x y) (h' : Echoes Eq y x) :
    y.toOption = x.toOption := by
  simpa using h.map_toOption_eq (f := id) (g := id) (fun _ _ => Eq.symm) h'

theorem mapM {Q' : γ → δ → Prop} {f : α → Except ε γ} {g : β → Except ε δ} {as : List α}
    {bs : List β} (h : List.Forall₂ (fun a b => Echoes Q' (f a) (g b)) as bs) :
    Echoes (List.Forall₂ Q') (as.mapM f) (bs.mapM g) := by
  induction h with
  | nil => exact ok .nil
  | cons hab _ ih =>
    rw [List.mapM_cons, List.mapM_cons]
    exact hab.bind fun c d hcd => ih.bind fun cs ds hrest => ok (.cons hcd hrest)

theorem mapM_eq {f : α → Except ε γ} {g : β → Except ε γ} {as : List α} {bs : List β}
    (h : List.Forall₂ (fun a b => Echoes Eq (f a) (g b)) as bs) :
    Echoes Eq (as.mapM f) (bs.mapM g) := by
  rw [← List.forall₂_eq_eq_eq]
  exact mapM h

/-- The answers of a row come in the order of the row. -/
theorem mapM_perm (f : α → Except ε γ) {as bs : List α} (h : as.Perm bs) :
    Echoes List.Perm (as.mapM f) (bs.mapM f) := by
  induction h with
  | nil => exact ok .nil
  | cons a _ ih =>
    rw [List.mapM_cons, List.mapM_cons]
    refine (of_eq (f a)).bind fun c _ hc => ih.bind fun cs ds hrest => ok ?_
    exact hc ▸ hrest.cons c
  | swap a b as =>
    intro cs hcs
    simp only [List.mapM_cons] at hcs ⊢
    obtain ⟨d, hd, hcs⟩ := except_bind_eq_ok.mp hcs
    obtain ⟨rest, hrest, hcs⟩ := except_bind_eq_ok.mp hcs
    obtain ⟨c, hc, hrest⟩ := except_bind_eq_ok.mp hrest
    obtain ⟨last, hlast, hrest⟩ := except_bind_eq_ok.mp hrest
    cases hrest
    cases hcs
    rw [hc, hd, hlast]
    exact ⟨_, rfl, .swap c d last⟩
  | trans _ _ ih ih' =>
    intro cs hcs
    obtain ⟨ds, hds, hperm⟩ := ih cs hcs
    obtain ⟨es, hes, hperm'⟩ := ih' ds hds
    exact ⟨es, hes, hperm.trans hperm'⟩

end Echoes

/-! ## Answers with a state -/

variable [Preorder ω]

/-- The second result answers to the first, in a world that has grown from `w`. -/
inductive Agree (S : ω → σ → τ → Prop) (Q : ω → α → β → Prop) (w : ω) :
    EStateM.Result (Failure ε) σ α → EStateM.Result (Failure ε) τ β → Prop
  | ok {w' : ω} {a : α} {b : β} {s : σ} {s' : τ} (hw : w ≤ w') (hs : S w' s s') (hq : Q w' a b) :
      Agree S Q w (.ok a s) (.ok b s')
  | error {w' : ω} {cause : ε} {s : σ} {s' : τ} (hw : w ≤ w') (hs : S w' s s') :
      Agree S Q w (.error (.error cause) s) (.error (.error cause) s')
  | fault (cause : Fault) (s : σ) (result : EStateM.Result (Failure ε) τ β) :
      Agree S Q w (.error (.fault cause) s) result

/-- In every world from `w` on, the second operation follows the first. -/
def Mirrors (S : ω → σ → τ → Prop) (Q : ω → α → β → Prop) (w : ω)
    (x : EStateM (Failure ε) σ α) (y : EStateM (Failure ε) τ β) : Prop :=
  ∀ w', w ≤ w' → ∀ s s', S w' s s' → Agree S Q w' (x s) (y s')

variable {S : ω → σ → τ → Prop} {Q : ω → α → β → Prop} {w : ω}

namespace Agree

variable {r : EStateM.Result (Failure ε) σ α} {r' : EStateM.Result (Failure ε) τ β}

theorem later {w₀ : ω} (hw : w₀ ≤ w) (h : Agree S Q w r r') : Agree S Q w₀ r r' := by
  cases h with
  | ok hw' hs hq => exact .ok (hw.trans hw') hs hq
  | error hw' hs => exact .error (hw.trans hw') hs
  | fault cause s _ => exact .fault cause s _

theorem exists_ok {a : α} {s : σ} (h : Agree S Q w (.ok a s) r') :
    ∃ w' b s', w ≤ w' ∧ r' = .ok b s' ∧ S w' s s' ∧ Q w' a b := by
  cases h with
  | ok hw hs hq => exact ⟨_, _, _, hw, rfl, hs, hq⟩

theorem exists_error {cause : ε} {s : σ} (h : Agree S Q w (.error (.error cause) s) r') :
    ∃ w' s', w ≤ w' ∧ r' = .error (.error cause) s' ∧ S w' s s' := by
  cases h with
  | error hw hs => exact ⟨_, _, hw, rfl, hs⟩

end Agree

namespace Mirrors

variable {x : EStateM (Failure ε) σ α} {y : EStateM (Failure ε) τ β}

/-- What is needed to follow an operation may be read off the states it starts in. -/
theorem of_states (h : ∀ w', w ≤ w' → ∀ s s', S w' s s' → Mirrors S Q w' x y) :
    Mirrors S Q w x y := fun w' hw s s' hs => h w' hw s s' hs w' le_rfl s s' hs

theorem pure {a : α} {b : β} (h : ∀ w', w ≤ w' → Q w' a b) :
    Mirrors S Q w (Pure.pure a : EStateM (Failure ε) σ α) (Pure.pure b) :=
  fun w' hw _ _ hs => .ok le_rfl hs (h w' hw)

theorem throw (cause : ε) :
    Mirrors S Q w (MonadExcept.throw (.error cause) : EStateM (Failure ε) σ α)
      (MonadExcept.throw (.error cause)) :=
  fun _ _ _ _ hs => .error le_rfl hs

theorem fault (cause : Fault) (y : EStateM (Failure ε) τ β) :
    Mirrors S Q w (MonadExcept.throw (.fault cause) : EStateM (Failure ε) σ α) y :=
  fun _ _ s _ _ => .fault cause s _

theorem bind {Q' : ω → γ → δ → Prop} {f : α → EStateM (Failure ε) σ γ}
    {g : β → EStateM (Failure ε) τ δ} (hxy : Mirrors S Q w x y)
    (hfg : ∀ w', w ≤ w' → ∀ a b, Q w' a b → Mirrors S Q' w' (f a) (g b)) :
    Mirrors S Q' w (x >>= f) (y >>= g) := by
  intro w₁ hw s s' hs
  have hagree := hxy w₁ hw s s' hs
  cases hx : x s with
  | ok a s₁ =>
    obtain ⟨w₂, b, s₁', hw₂, hy, hs₁, hab⟩ := (hx ▸ hagree).exists_ok
    rw [bind_of_ok hx, bind_of_ok hy]
    exact (hfg w₂ (hw.trans hw₂) a b hab w₂ le_rfl s₁ s₁' hs₁).later hw₂
  | error e s₁ =>
    rw [bind_of_error hx]
    cases e with
    | fault cause => exact .fault cause s₁ _
    | error cause =>
      obtain ⟨w₂, s₁', hw₂, hy, hs₁⟩ := (hx ▸ hagree).exists_error
      rw [bind_of_error hy]
      exact .error hw₂ hs₁

/-- Readings of the state. -/
theorem get_bind {f : σ → EStateM (Failure ε) σ α} {g : τ → EStateM (Failure ε) τ β}
    (h : ∀ w', w ≤ w' → ∀ s s', S w' s s' → Mirrors S Q w' (f s) (g s')) :
    Mirrors S Q w (get >>= f) (get >>= g) :=
  fun w' hw s s' hs => h w' hw s s' hs w' le_rfl s s' hs

theorem modify {f : σ → σ} {g : τ → τ}
    (h : ∀ w', w ≤ w' → ∀ s s', S w' s s' → S w' (f s) (g s')) :
    Mirrors S (fun _ _ _ => True) w (modify f : EStateM (Failure ε) σ PUnit) (modify g) :=
  fun w' hw s s' hs => .ok le_rfl (h w' hw s s' hs) trivial

end Mirrors

end RuleTypes
