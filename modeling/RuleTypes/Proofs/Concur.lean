import RuleTypes.Proofs.Steps

/-!
# Operations that uphold an invariant

`Upholds I Q x` is what a proof by invariant needs of an operation `x`: started where `I` holds, it
ends where `I` holds, whether it answers or fails, and its answer is in `Q`. Such operations follow
one another (`Concur.bind`).

An operation that is built from others may be compared with one that is built the same way from
other parts. Where the parts concur, so do the two (`Concur I Q x y`). This is how the states are
found in which a part is called at all: the part may as well do something else everywhere else
(`Consults`), and so it is called in states with the invariant only (`Consults.invariant`).
-/

namespace RuleTypes

variable {ε σ α β : Type} {I : σ → Prop} {Q : α → Prop} {x y : EStateM ε σ α}

/-- Where `I` holds, both operations do the same. It holds again where they end, and what they
answer is in `Q`. -/
def Concur (I : σ → Prop) (Q : α → Prop) (x y : EStateM ε σ α) : Prop :=
  ∀ s, I s → x s = y s ∧ I (endState (x s)) ∧ ∀ a s', x s = .ok a s' → Q a

/-- The invariant holds again wherever the operation ends, and its answer is in `Q`. -/
abbrev Upholds (I : σ → Prop) (Q : α → Prop) (x : EStateM ε σ α) : Prop := Concur I Q x x

namespace Concur

theorem eq (h : Concur I Q x y) {s : σ} (hs : I s) : x s = y s := (h s hs).1

theorem endState (h : Concur I Q x y) {s : σ} (hs : I s) : I (RuleTypes.endState (x s)) :=
  (h s hs).2.1

theorem ok (h : Concur I Q x y) {s s' : σ} {a : α} (hs : I s) (hx : x s = .ok a s') :
    I s' ∧ Q a := by
  obtain ⟨-, hend, hanswer⟩ := h s hs
  exact ⟨by simpa only [hx, RuleTypes.endState] using hend, hanswer a s' hx⟩

theorem error (h : Concur I Q x y) {s s' : σ} {e : ε} (hs : I s) (hx : x s = .error e s') :
    I s' := by
  simpa only [hx, RuleTypes.endState] using h.endState hs

theorem mono {Q' : α → Prop} (hQ : ∀ a, Q a → Q' a) (h : Concur I Q x y) : Concur I Q' x y :=
  fun s hs => ⟨(h s hs).1, (h s hs).2.1, fun a s' hx => hQ a ((h s hs).2.2 a s' hx)⟩

/-- An operation that only reads. -/
theorem of_reads (hreads : Moves Eq x) (hQ : ∀ s a, I s → x s = .ok a s → Q a) : Upholds I Q x := by
  intro s hs
  refine ⟨rfl, hreads s ▸ hs, fun a s' hx => hQ s a hs ?_⟩
  rw [hx, ← hreads.ok hx]

/-- An operation that only reads, and whose answer does not matter. -/
theorem reads (hreads : Moves Eq x) : Upholds I (fun _ => True) x :=
  of_reads hreads fun _ _ _ _ => trivial

theorem pure {a : α} (h : Q a) : Upholds I Q (Pure.pure a : EStateM ε σ α) :=
  of_reads (.pure a) fun _ _ _ hx => (pure_eq_ok.mp hx).1 ▸ h

theorem throw (e : ε) : Upholds I Q (MonadExcept.throw e : EStateM ε σ α) :=
  of_reads (.throw e) fun _ _ _ hx => (throw_eq_ok.mp hx).elim

theorem bind {Q' : β → Prop} {f g : α → EStateM ε σ β} (hxy : Concur I Q x y)
    (hfg : ∀ a, Q a → Concur I Q' (f a) (g a)) : Concur I Q' (x >>= f) (y >>= g) := by
  intro s hs
  cases hx : x s with
  | error e s₁ =>
    have hy : y s = .error e s₁ := (hxy.eq hs).symm.trans hx
    rw [bind_of_error hx, bind_of_error hy]
    exact ⟨rfl, hxy.error hs hx, by simp⟩
  | ok a s₁ =>
    have hy : y s = .ok a s₁ := (hxy.eq hs).symm.trans hx
    obtain ⟨hs₁, ha⟩ := hxy.ok hs hx
    rw [bind_of_ok hx, bind_of_ok hy]
    exact hfg a ha s₁ hs₁

/-- What a reading of the state leads to has to be looked at where the invariant holds only. -/
theorem get_bind {f g : σ → EStateM ε σ α} (h : ∀ s, I s → Concur I Q (f s) (g s)) :
    Concur I Q (get >>= f) (get >>= g) :=
  fun s hs => h s hs s hs

theorem modify {f : σ → σ} (h : ∀ s, I s → I (f s)) :
    Upholds I (fun _ => True) (modify f : EStateM ε σ PUnit) :=
  fun s hs => ⟨rfl, h s hs, fun _ _ _ => trivial⟩

end Concur

/-! ## Parts of an operation -/

section Parts

variable {ι : Type} {rule : (ι → EStateM ε σ α) → EStateM ε σ β} {part : ι → EStateM ε σ α}

/-- Started in `s`, the operation calls its part `i` in `s₁`: it depends on how that ends. -/
def Consults (rule : (ι → EStateM ε σ α) → EStateM ε σ β) (part : ι → EStateM ε σ α) (s : σ)
    (i : ι) (s₁ : σ) : Prop :=
  ∃ part' : ι → EStateM ε σ α, (∀ j s', (j, s') ≠ (i, s₁) → part' j s' = part j s') ∧
    rule part' s ≠ rule part s

/-- **An operation that concurs wherever its parts do calls them where the invariant holds.** -/
theorem Consults.invariant {Q' : β → Prop} {s s₁ : σ} {i : ι} (h : Consults rule part s i s₁)
    (hrule : ∀ part', (∀ j, Concur I Q (part j) (part' j)) → Concur I Q' (rule part) (rule part'))
    (hpart : ∀ j, Upholds I Q (part j)) (hs : I s) : I s₁ := by
  obtain ⟨part', hsame, hne⟩ := h
  refine Classical.byContradiction fun hs₁ => hne (Eq.symm ?_)
  refine (hrule part' fun j s' hs' => ⟨(hsame j s' fun heq => ?_).symm, (hpart j s' hs').2⟩).eq hs
  exact hs₁ ((Prod.mk.inj heq).2 ▸ hs')

end Parts

end RuleTypes
