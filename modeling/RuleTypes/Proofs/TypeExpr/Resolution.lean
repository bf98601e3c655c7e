import Mathlib.Data.List.Basic
import RuleTypes.Resolve

/-!
# The recursion of resolution

A compound type is resolved by resolving its parts from left to right and then asking the table for
what they make (`resolveConcrete_compound`). So whatever holds of resolution is shown for `auto` and
for names, for the step that puts a compound type together (`assemble`), and along a list of types
(`parts_induction`).
-/

namespace RuleTypes

namespace TypeExpr

variable {e part : TypeExpr}

/-! ## Parts -/

/-- The types that a written type is put together from. -/
def parts : TypeExpr → List TypeExpr
  | auto | named _ => []
  | pointer base => [base]
  | slice element => [element]
  | generic _ args => args
  | function params result => params ++ result.toList
  | record fields => fields.map (·.2)

/-- Whether a written type is put together from others. -/
def isCompound : TypeExpr → Bool
  | auto | named _ => false
  | pointer _ | slice _ | generic _ _ | function _ _ | record _ => true

theorem sizeOf_lt_of_mem_parts (h : part ∈ e.parts) : sizeOf part < sizeOf e := by
  cases e with
  | auto | named => cases h
  | pointer base | slice element =>
    obtain rfl := List.mem_singleton.mp h
    simp
  | generic name args =>
    have : sizeOf part < sizeOf args := List.sizeOf_lt_of_mem h
    simp only [generic.sizeOf_spec]
    omega
  | function params result =>
    obtain h | h := List.mem_append.mp h
    · have := List.sizeOf_lt_of_mem h
      simp only [function.sizeOf_spec]
      omega
    · obtain rfl := Option.mem_toList.mp h
      simp only [function.sizeOf_spec, Option.some.sizeOf_spec]
      omega
  | record fields =>
    obtain ⟨⟨name, type⟩, hfield, rfl⟩ := List.mem_map.mp h
    have := List.sizeOf_lt_of_mem hfield
    simp only [record.sizeOf_spec, Prod.mk.sizeOf_spec] at this ⊢
    omega

/-! ## Putting types together -/

/-- The form of a compound type, given the types of its parts. -/
def form? : TypeExpr → List TypeId → Option Form
  | pointer _, [base] => some (.pointer base)
  | slice _, [element] => some (.generic Form.sliceName [element])
  | generic name _, args => some (.generic name args)
  | function _ none, params => some (.function params .noValue)
  | function _ (some _), ids => ids.getLast?.map (.function ids.dropLast)
  | record fields, ids => some (.record ((fields.map (·.1)).zip ids))
  | _, _ => none

/-- A form that is put together is made of the parts, and of `noValue` where there is no result. -/
theorem components_of_form? {ids : List TypeId} {form : Form} (h : e.form? ids = some form)
    (hlength : e.parts.length = ids.length) : form.isStructural = true ∧
      (form.components = ids ∨ form.components = ids ++ [.noValue]) := by
  cases e with
  | auto | named => cases h
  | pointer base | slice element =>
    obtain _ | ⟨id, _ | _⟩ := ids <;> cases h
    exact ⟨rfl, .inl rfl⟩
  | generic name args =>
    cases h
    exact ⟨rfl, .inl rfl⟩
  | function params result =>
    cases result with
    | none =>
      cases h
      exact ⟨rfl, .inr rfl⟩
    | some result =>
      obtain ⟨last, hlast, rfl⟩ := Option.map_eq_some_iff.mp h
      exact ⟨rfl, .inl (List.dropLast_append_getLast? last hlast)⟩
  | record fields =>
    cases h
    exact ⟨rfl, .inl (List.map_snd_zip (by simpa [parts] using Nat.le_of_eq hlength.symm))⟩

/-- The step that puts a compound type together, given the types of its parts. -/
def assemble : TypeExpr → List TypeId → TableM LoadError TypeId
  | pointer _, [base] => TypeTable.internPointer base
  | slice _, [element] => TypeTable.internSlice element
  | generic name _, args => (TypeTable.internGeneric name args).mapError .table
  | function _ none, params => TypeTable.internFunction params .noValue
  | function _ (some _), ids => TypeTable.internFunction ids.dropLast (ids.getLastD .noValue)
  | record fields, ids => (TypeTable.internRecord ((fields.map (·.1)).zip ids)).mapError .table
  | _, _ => throw (.error .misplacedAuto)

/-! ## Rules -/

section Rules

variable (names : Names)

theorem resolveAll_append (es es' : List TypeExpr) :
    resolveAll names (es ++ es') = (do
      let ids ← resolveAll names es
      let ids' ← resolveAll names es'
      return ids ++ ids') := by
  induction es with
  | nil => simp [resolveAll]
  | cons e es ih => simp [resolveAll, ih]

theorem resolveFields_eq (fields : List (String × TypeExpr)) :
    resolveFields names fields = (do
      let ids ← resolveAll names (fields.map (·.2))
      return (fields.map (·.1)).zip ids) := by
  induction fields with
  | nil => simp [resolveFields, resolveAll]
  | cons field fields ih => simp [resolveFields, resolveAll, ih]

/-- **A compound type is resolved after its parts.** -/
theorem resolveConcrete_compound (h : e.isCompound = true) :
    e.resolveConcrete names = resolveAll names e.parts >>= e.assemble := by
  cases e with
  | auto | named => cases h
  | pointer base | slice element => simp [resolveConcrete, parts, resolveAll, assemble]
  | generic name args =>
    rw [resolveConcrete]
    rfl
  | function params result =>
    cases result with
    | none =>
      rw [resolveConcrete, parts, Option.toList_none, List.append_nil]
      rfl
    | some result => simp [resolveConcrete, parts, resolveAll_append, resolveAll, assemble]
  | record fields =>
    rw [resolveConcrete, resolveFields_eq, bind_assoc]
    simp only [pure_bind]
    rfl

end Rules

/-- **Induction over written types** along their parts: `P` is about one type, and `A` about a list
of types. -/
theorem parts_induction {P : TypeExpr → Prop} {A : List TypeExpr → Prop}
    (auto : P .auto) (named : ∀ name, P (.named name))
    (compound : ∀ e : TypeExpr, e.isCompound = true → A e.parts → P e)
    (nil : A []) (cons : ∀ e es, P e → A es → A (e :: es)) : (∀ e, P e) ∧ ∀ es, A es := by
  have list : ∀ es : List TypeExpr, (∀ e ∈ es, P e) → A es := by
    intro es hes
    induction es with
    | nil => exact nil
    | cons e es ih =>
      obtain ⟨he, hes⟩ := List.forall_mem_cons.mp hes
      exact cons e es he (ih hes)
  -- on the size, since the type is nested
  have type : ∀ e : TypeExpr, P e := by
    intro e
    induction hsize : sizeOf e using Nat.strongRecOn generalizing e with
    | _ n ih =>
      subst hsize
      have hparts := list e.parts fun part hpart => ih _ (sizeOf_lt_of_mem_parts hpart) part rfl
      cases e with
      | auto => exact auto
      | named name => exact named name
      | pointer | slice | generic | function | record => exact compound _ rfl hparts
  exact ⟨type, fun es => list es fun e _ => type e⟩

end TypeExpr

end RuleTypes
