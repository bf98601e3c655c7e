import RuleTypes.Fingerprint

/-!
# Fingerprints of types that differ in one component

Every step of a fingerprint can be undone when all but one of its inputs are known. The separator is
odd, so multiplying by it loses nothing modulo `2 ^ 64` (`mul_separator_inj`), and neither does
marking a component or turning its bits. By induction on the components before it and after it, one
component can be told from what all of them mix to (`mixAll_inj`). So the fingerprint of a type
changes whenever a single component of it does (`one_component_changes`).
-/

namespace RuleTypes

/-- Turning the bits of a word by seventeen loses none of them: bit `i` is at `i + 17` afterwards,
or at `i - 47` if it went round. -/
theorem Digest.rotateLeft_inj {x y : UInt64} : rotateLeft x 17 = rotateLeft y 17 ↔ x = y := by
  refine ⟨fun h => ?_, fun h => h ▸ rfl⟩
  have hturned : x.toBitVec.rotateLeft 17 = y.toBitVec.rotateLeft 17 := congrArg UInt64.toBitVec h
  refine UInt64.toBitVec_inj.mp (BitVec.eq_of_getLsbD_eq fun i hi => ?_)
  by_cases hlow : i < 47
  · have hbit := congrArg (BitVec.getLsbD · (i + 17)) hturned
    simpa [BitVec.getLsbD_rotateLeft, hi, show i + 17 < 64 by omega,
      show ¬ i + 17 < 17 by omega] using hbit
  · have hbit := congrArg (BitVec.getLsbD · (i - 47)) hturned
    simpa [BitVec.getLsbD_rotateLeft, show i - 47 < 17 by omega,
      show 47 + (i - 47) = i by omega] using hbit

namespace Fingerprint

variable {α : Type} {component : Nat → α → UInt64} {x y : UInt64}

/-! ## Mixing -/

theorem mul_separator_inj : x * separator = y * separator ↔ x = y := by
  refine ⟨fun h => ?_, fun h => h ▸ rfl⟩
  have hinverse : separator * 0xd3f20f0a40208825 = 1 := by decide
  calc x = x * separator * 0xd3f20f0a40208825 := by
        rw [UInt64.mul_assoc, hinverse, UInt64.mul_one]
    _ = y * separator * 0xd3f20f0a40208825 := by rw [h]
    _ = y := by rw [UInt64.mul_assoc, hinverse, UInt64.mul_one]

theorem mix_state_inj {state state' : UInt64} : mix state x = mix state' x ↔ state = state' :=
  (UInt64.add_left_inj x).trans mul_separator_inj

theorem mix_component_inj {state : UInt64} : mix state x = mix state y ↔ x = y :=
  UInt64.add_right_inj (state * separator)

/-- Mixes what is made of each item of a list, and of its position, into the state. -/
def mixAll (component : Nat → α → UInt64) (i : Nat) (state : UInt64) : List α → UInt64
  | [] => state
  | item :: items => mixAll component (i + 1) (mix state (component i item)) items

theorem mixAll_state_inj (items : List α) {i : Nat} {state state' : UInt64} :
    mixAll component i state items = mixAll component i state' items ↔ state = state' := by
  induction items generalizing i state state' with
  | nil => exact Iff.rfl
  | cons item items ih => exact ih.trans mix_state_inj

/-- **The item in one place can be told from the result**, as far as its component can. -/
theorem mixAll_inj (left right : List α) {i : Nat} {state : UInt64} {a b : α} :
    mixAll component i state (left ++ a :: right) = mixAll component i state (left ++ b :: right) ↔
      component (i + left.length) a = component (i + left.length) b := by
  induction left generalizing i state with
  | nil => exact (mixAll_state_inj right).trans mix_component_inj
  | cons item left ih =>
    refine ih.trans ?_
    rw [List.length_cons, Nat.add_comm left.length, Nat.add_assoc]

theorem foldFrom_eq_mixAll (i : Nat) (state : UInt64) (children : List Fingerprint) :
    foldFrom i state children =
      mixAll (fun i child => positionMark i ^^^ child.bits) i state children := by
  induction children generalizing i state with
  | nil => rfl
  | cons child children ih => exact ih _ _

theorem foldFields_eq_mixAll (i : Nat) (state : UInt64) (fields : List (String × Fingerprint)) :
    foldFields i state fields =
      mixAll (fun i field => fieldComponent i field.1 field.2) i state fields := by
  induction fields generalizing i state with
  | nil => rfl
  | cons field fields ih => exact ih _ _

/-! ## Components -/

variable {seed seed' : UInt64} {a b : Fingerprint} {m n name : String}

theorem bits_inj : a.bits = b.bits ↔ a = b := by
  cases a
  cases b
  rw [Fingerprint.mk.injEq]

theorem fold_seed_inj (children : List Fingerprint) :
    fold seed children = fold seed' children ↔ seed = seed' := by
  simp only [fold, foldFrom_eq_mixAll]
  exact mixAll_state_inj children

theorem fold_child_inj (left right : List Fingerprint) :
    fold seed (left ++ a :: right) = fold seed (left ++ b :: right) ↔ a = b := by
  simp only [fold, foldFrom_eq_mixAll]
  exact (mixAll_inj left right).trans ((UInt64.xor_right_inj _).trans bits_inj)

theorem fieldComponent_type_inj (i : Nat) :
    fieldComponent i name a = fieldComponent i name b ↔ a = b :=
  (UInt64.xor_right_inj _).trans (Digest.rotateLeft_inj.trans bits_inj)

theorem fieldComponent_name_inj (i : Nat) :
    fieldComponent i m a = fieldComponent i n a ↔ Digest.ofText m = Digest.ofText n :=
  (UInt64.xor_left_inj _).trans ((UInt64.xor_right_inj _).trans (UInt64.xor_right_inj _))

theorem record_field_inj (left right : List (String × Fingerprint)) :
    record (left ++ (m, a) :: right) = record (left ++ (n, b) :: right) ↔
      fieldComponent left.length m a = fieldComponent left.length n b := by
  simp only [record, foldFields_eq_mixAll, Fingerprint.mk.injEq]
  refine (mixAll_inj left right).trans ?_
  rw [Nat.zero_add]

/-- **A type whose components are those of another, except for one, has another fingerprint.** The
seed of a fold can be told from its result, and so can every single component when the others are
known. So pointers to different bases differ; functions differ if one parameter differs or only the
result; generic types differ if one argument differs, or only the name as far as the digest of names
tells; and so do records if the type of one field differs, or the name of one field. -/
theorem one_component_changes :
    (∀ (children : List Fingerprint) (seed seed' : UInt64),
      fold seed children = fold seed' children ↔ seed = seed') ∧
    (∀ (seed : UInt64) (left right : List Fingerprint) (a b : Fingerprint),
      fold seed (left ++ a :: right) = fold seed (left ++ b :: right) ↔ a = b) ∧
    (∀ a b : Fingerprint, pointer a = pointer b ↔ a = b) ∧
    (∀ (left right : List Fingerprint) (result a b : Fingerprint),
      function (left ++ a :: right) result = function (left ++ b :: right) result ↔ a = b) ∧
    (∀ (params : List Fingerprint) (a b : Fingerprint),
      function params a = function params b ↔ a = b) ∧
    (∀ (name : String) (left right : List Fingerprint) (a b : Fingerprint),
      generic name (left ++ a :: right) = generic name (left ++ b :: right) ↔ a = b) ∧
    (∀ (args : List Fingerprint) (m n : String),
      generic m args = generic n args ↔ Digest.ofText m = Digest.ofText n) ∧
    (∀ (left right : List (String × Fingerprint)) (name : String) (a b : Fingerprint),
      record (left ++ (name, a) :: right) = record (left ++ (name, b) :: right) ↔ a = b) ∧
    (∀ (left right : List (String × Fingerprint)) (type : Fingerprint) (m n : String),
      record (left ++ (m, type) :: right) = record (left ++ (n, type) :: right) ↔
        Digest.ofText m = Digest.ofText n) := by
  refine ⟨fun children seed seed' => fold_seed_inj children,
    fun seed left right a b => fold_child_inj left right, fun a b => ?_,
    fun left right result a b => ?_, fun params a b => ?_, fun name left right a b => ?_,
    fun args m n => ?_, fun left right name a b => ?_, fun left right type m n => ?_⟩
  · exact bits_inj.symm.trans (fold_child_inj [] [])
  · exact bits_inj.symm.trans (mix_state_inj.trans (fold_child_inj left right))
  · exact bits_inj.symm.trans (mix_component_inj.trans ((UInt64.xor_right_inj _).trans bits_inj))
  · exact bits_inj.symm.trans (fold_child_inj left right)
  · exact bits_inj.symm.trans ((fold_seed_inj args).trans (UInt64.xor_right_inj _))
  · exact (record_field_inj left right).trans (fieldComponent_type_inj _)
  · exact (record_field_inj left right).trans (fieldComponent_name_inj _)

end Fingerprint

end RuleTypes
