import RuleTypes.Proofs.TypeTable.Growth

/-!
# What types are made of

A type is made of everything that can be reached from it along the components of forms. Declared
structs may mention themselves, so this is not a matter of following forms to their end. A type is
clear if only admitted forms are reached (`clear_iff`); it stays clear while the table is extended,
and a written type is clear if the names in it are (`TypeExpr.resolveConcrete_clear`).

`auto` stands for the type of an initializer until that is known. A type is known in full if `auto`
occurs nowhere in it.
-/

namespace RuleTypes

open Relation

/-- Which forms may occur in a type. Forms by which types are known always may. -/
structure Admission where
  allows : TypeId → Form → Prop
  structural : ∀ {id form}, form.isStructural = true → allows id form

/-- Nothing but forms by which types are known. -/
def Admission.plain : Admission where
  allows _ form := form.isStructural = true
  structural := id

/-- Everything but `auto`. -/
def Admission.known : Admission where
  allows _ form := form ≠ .auto
  structural := by
    rintro id form hform rfl
    cases hform

namespace TypeTable

variable {ε : Type} {t t' : TypeTable} {id : TypeId} {form : Form} {A : Admission}

/-- The second type is a component of the first. -/
def Mentions (t : TypeTable) (id part : TypeId) : Prop :=
  ∃ form, t.form? id = some form ∧ part ∈ form.components

/-- Everything that a type is made of was issued and has an admitted form. -/
def Clear (t : TypeTable) (A : Admission) (id : TypeId) : Prop :=
  ∀ part, ReflTransGen t.Mentions id part → ∃ form, t.form? part = some form ∧ A.allows part form

/-- Nothing that a type is made of is left to an initializer. -/
abbrev Known (t : TypeTable) (id : TypeId) : Prop := t.Clear .known id

/-- The types of a set are clear if their forms are admitted and every component is in the set. -/
theorem clear_of_closed {P : TypeId → Prop}
    (hP : ∀ id, P id → ∃ form, t.form? id = some form ∧ A.allows id form ∧
      ∀ part ∈ form.components, P part) (hid : P id) : t.Clear A id := by
  have hreached : ∀ part, ReflTransGen t.Mentions id part → P part := by
    intro part hpart
    induction hpart with
    | refl => exact hid
    | @tail a b _ hmentions ih =>
      obtain ⟨form, hform, hb⟩ := hmentions
      obtain ⟨form', hform', -, hparts⟩ := hP a ih
      obtain rfl : form = form' := Option.some.inj (hform.symm.trans hform')
      exact hparts b hb
  intro part hpart
  obtain ⟨form, hform, hallows, -⟩ := hP part (hreached part hpart)
  exact ⟨form, hform, hallows⟩

theorem clear_iff : t.Clear A id ↔ ∃ form, t.form? id = some form ∧ A.allows id form ∧
    ∀ part ∈ form.components, t.Clear A part := by
  constructor
  · intro h
    obtain ⟨form, hform, hallows⟩ := h id .refl
    exact ⟨form, hform, hallows, fun part hpart other hother =>
      h other (.head ⟨form, hform, hpart⟩ hother)⟩
  · rintro ⟨form, hform, hallows, hparts⟩ part hpart
    obtain rfl | ⟨next, ⟨form', hform', hnext⟩, hrest⟩ := ReflTransGen.cases_head hpart
    · exact ⟨form, hform, hallows⟩
    · obtain rfl : form' = form := Option.some.inj (hform'.symm.trans hform)
      exact hparts next hnext part hrest

theorem clear_of_form? (hform : t.form? id = some form) (hallows : A.allows id form)
    (hparts : ∀ part ∈ form.components, t.Clear A part) : t.Clear A id :=
  clear_iff.mpr ⟨form, hform, hallows, hparts⟩

theorem known_of_form? (hform : t.form? id = some form) (hauto : form ≠ .auto)
    (hparts : ∀ part ∈ form.components, t.Known part) : t.Known id :=
  clear_of_form? hform hauto hparts

theorem Known.ne_auto (h : t.Known id) (hauto : t.form? .auto = some .auto) : id ≠ .auto := by
  rintro rfl
  obtain ⟨form, hform, hne⟩ := h .auto .refl
  exact hne (Option.some.inj (hform.symm.trans hauto))

theorem Clear.issued (h : t.Clear A id) : id.index < t.size := by
  obtain ⟨form, hform, -⟩ := h id .refl
  exact form?_eq_some_lt hform

/-- The components of a clear type are clear. -/
theorem Clear.component (h : t.Clear A id) (hform : t.form? id = some form) {part : TypeId}
    (hpart : part ∈ form.components) : t.Clear A part := by
  obtain ⟨form', hform', -, hparts⟩ := clear_iff.mp h
  obtain rfl : form = form' := Option.some.inj (hform.symm.trans hform')
  exact hparts part hpart

theorem Clear.of_kept (hkept : ∀ id form, t.form? id = some form → t'.form? id = some form)
    (h : t.Clear A id) : t'.Clear A id := by
  refine clear_of_closed (P := t.Clear A) (fun other hother => ?_) h
  obtain ⟨form, hform, hallows, hparts⟩ := clear_iff.mp hother
  exact ⟨form, hkept other form hform, hallows, hparts⟩

theorem Clear.mono {A' : Admission} (hA : ∀ id form, A.allows id form → A'.allows id form)
    (h : t.Clear A id) : t.Clear A' id := by
  intro part hpart
  obtain ⟨form, hform, hallows⟩ := h part hpart
  exact ⟨form, hform, hA part form hallows⟩

theorem Clear.of_plain (h : t.Clear .plain id) : t.Clear A id := h.mono fun _ _ => A.structural

/-- A type without declared structs is made of the same types in every later table. -/
theorem Clear.grows (h : t.Clear .plain id) (hgrows : t.Grows t') : t'.Clear .plain id := by
  refine clear_of_closed (P := t.Clear .plain) (fun other hother => ?_) h
  obtain ⟨form, hform, hallows, hparts⟩ := clear_iff.mp hother
  exact ⟨form, hgrows.form? hform (Form.isDeclared_eq_false hallows), hallows, hparts⟩

theorem Clear.extends (h : t.Clear A id) (hextends : t.Extends t') : t'.Clear A id :=
  h.of_kept fun _ _ => hextends.form?

theorem Known.withReserved (h : t.Known id) (name : String) : (t.withReserved name).Known id :=
  h.of_kept fun _ _ hform => form?_push_of_some hform

/-- Filling a struct with known types keeps what is known, the struct itself included. -/
theorem Known.withFilled {target : TypeId} {name : String} {old fields : List (String × TypeId)}
    (htarget : t.form? target = some (.declared name old))
    (hfields : ∀ field ∈ fields, t.Known field.2) (h : t.Known id) :
    (t.withFilled target fields).Known id := by
  refine clear_of_closed (P := t.Known) (fun other hother => ?_) h
  rw [form?_withFilled htarget]
  split
  · refine ⟨_, rfl, nofun, fun part hpart => ?_⟩
    obtain ⟨field, hfield, rfl⟩ := List.mem_map.mp hpart
    exact hfields field hfield
  · exact clear_iff.mp hother

theorem known_reserved (t : TypeTable) (name : String) : (t.withReserved name).Known ⟨t.size⟩ := by
  refine known_of_form? (?_ : _ = some (.declared name [])) nofun nofun
  exact form?_push.trans (if_pos rfl)

theorem clear_of_primitive? {name : String} (h : t.primitive? name = some id) : t.Clear A id :=
  clear_of_form? (form?_of_find? h) (A.structural rfl) nofun

end TypeTable

/-! ## Written types -/

namespace TypeExpr

open TypeTable

variable {A : Admission} {names : Names}

/-- The types that written types are made from are clear. -/
structure Sources (A : Admission) (names : Names) (t : TypeTable) : Prop where
  named : ∀ name id, names.get? name = some id → t.Clear A id
  noValue : t.Clear A .noValue

theorem Sources.extends {t t' : TypeTable} (h : Sources A names t) (hextends : t.Extends t') :
    Sources A names t' :=
  ⟨fun name id hid => (h.named name id hid).extends hextends, h.noValue.extends hextends⟩

theorem resolveName_clear {t t' : TypeTable} {name : String} {id : TypeId}
    (hsources : Sources A names t) (h : resolveName names name t = .ok id t') : t'.Clear A id := by
  unfold resolveName at h
  cases hname : names.get? name with
  | some found =>
    simp only [hname, Option.some_or, EStateM.Result.ok.injEq] at h
    obtain ⟨rfl, rfl⟩ := h
    exact hsources.named name found hname
  | none =>
    cases hprimitive : t.primitive? name with
    | none => simp [hname, hprimitive] at h
    | some found =>
      simp only [hname, hprimitive, Option.none_or, EStateM.Result.ok.injEq] at h
      obtain ⟨rfl, rfl⟩ := h
      exact clear_of_primitive? hprimitive

/-- A type that is put together is clear if its parts are. -/
theorem assemble_clear {e : TypeExpr} {ids : List TypeId} {t t' : TypeTable} {id : TypeId}
    (hlength : e.parts.length = ids.length) (hids : ∀ id ∈ ids, t.Clear A id)
    (hvalue : t.Clear A .noValue) (h : e.assemble ids t = .ok id t') : t'.Clear A id := by
  obtain ⟨form, hform, hid⟩ := form?_of_assemble hlength h
  obtain ⟨hstructural, hcomponents⟩ := components_of_form? hform hlength
  refine clear_of_form? hid (A.structural hstructural) fun part hpart => ?_
  have hextends : t.Extends t' := (assemble_moves e ids).ok h
  obtain hcomponents | hcomponents := hcomponents <;> rw [hcomponents] at hpart
  · exact (hids part hpart).extends hextends
  · obtain hpart | hpart := List.mem_append.mp hpart
    · exact (hids part hpart).extends hextends
    · exact List.mem_singleton.mp hpart ▸ hvalue.extends hextends

theorem resolution_clear :
    (∀ (e : TypeExpr) (t t' : TypeTable) (id : TypeId),
      Sources A names t → e.resolveConcrete names t = .ok id t' → t'.Clear A id) ∧
    ∀ (es : List TypeExpr) (t t' : TypeTable) (ids : List TypeId),
      Sources A names t → resolveAll names es t = .ok ids t' → ∀ id ∈ ids, t'.Clear A id := by
  refine parts_induction ?auto ?named ?compound ?nil ?cons
  case auto =>
    intro t t' id _ h
    rw [resolveConcrete] at h
    exact (throw_eq_ok.mp h).elim
  case named =>
    intro name t t' id hsources h
    rw [resolveConcrete] at h
    exact resolveName_clear hsources h
  case compound =>
    intro e he hparts t t' id hsources h
    rw [resolveConcrete_compound names he] at h
    obtain ⟨ids, t₁, hids, h⟩ := bind_eq_ok.mp h
    have hsources₁ := hsources.extends ((resolveAll_moves _ _).ok hids)
    exact assemble_clear (length_of_resolveAll hids) (hparts t t₁ ids hsources hids)
      hsources₁.noValue h
  case nil =>
    intro t t' ids _ h
    rw [resolveAll] at h
    obtain ⟨rfl, -⟩ := pure_eq_ok.mp h
    simp
  case cons =>
    intro e es he hes t t' ids hsources h
    rw [resolveAll] at h
    obtain ⟨first, t₁, hfirst, h⟩ := bind_eq_ok.mp h
    obtain ⟨rest, t₂, hrest, h⟩ := bind_eq_ok.mp h
    obtain ⟨rfl, rfl⟩ := pure_eq_ok.mp h
    have hsources₁ := hsources.extends ((resolveConcrete_moves _ _).ok hfirst)
    refine List.forall_mem_cons.mpr ⟨?_, hes t₁ t₂ rest hsources₁ hrest⟩
    exact (he t t₁ first hsources hfirst).extends ((resolveAll_moves _ _).ok hrest)

/-- **A written type is clear** if the names in it are. -/
theorem resolveConcrete_clear (e : TypeExpr) {t t' : TypeTable} {id : TypeId}
    (hsources : Sources A names t) (h : e.resolveConcrete names t = .ok id t') : t'.Clear A id :=
  resolution_clear.1 e t t' id hsources h

end TypeExpr

end RuleTypes
