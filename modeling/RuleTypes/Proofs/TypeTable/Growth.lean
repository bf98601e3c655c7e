import Mathlib.Logic.Relation
import RuleTypes.Proofs.Steps
import RuleTypes.Proofs.TypeExpr.Resolution
import RuleTypes.TypeTable.Declared

/-!
# How a type table changes

A table changes in three ways only (`Step`): a new form is added at the end, a declared struct is
reserved at the end, or a pending struct is given its fields. Whatever holds of a table and is kept
by these three holds of it after any operation. Looking up a written type only ever adds forms
(`Extends`), so it changes nothing about the ids that were issued before.
-/

namespace RuleTypes

namespace TypeTable

variable {ε : Type} {t t' t'' : TypeTable} {id : TypeId} {form : Form}

/-! ## Forms and ids -/

theorem isIssued_iff : t.isIssued id = true ↔ id.index < t.size := decide_eq_true_iff

theorem form?_eq_some_lt (h : t.form? id = some form) : id.index < t.size :=
  (Array.getElem?_eq_some_iff.mp h).1

theorem exists_form?_of_lt (h : id.index < t.size) : ∃ form, t.form? id = some form :=
  ⟨_, Array.getElem?_eq_getElem h⟩

theorem form_eq_ok : t.form id = .ok form ↔ t.form? id = some form := by
  unfold TypeTable.form
  cases t.form? id <;> simp

theorem form?_push : (t.push form).form? id =
    if id.index = t.size then some form else t.form? id := Array.getElem?_push

theorem form?_push_of_some {other : Form} (h : t.form? id = some form) :
    (t.push other).form? id = some form := by
  rw [form?_push, if_neg (Nat.ne_of_lt (form?_eq_some_lt h)), h]

theorem size_push : (t.push form).size = t.size + 1 := Array.size_push ..

theorem form?_eq_toList (t : TypeTable) (id : TypeId) :
    t.form? id = t.forms.toList[id.index]? := Array.getElem?_toList.symm

/-- What the index knows is the first place of a structural form. -/
theorem find?_eq_some_iff : t.find? form = some id ↔ form.isStructural = true ∧
    t.form? id = some form ∧
      ∀ other : TypeId, other.index < id.index → t.form? other ≠ some form := by
  rw [find?, t.indexed form]
  simp only [Option.ite_none_right_eq_some, Option.map_eq_some_iff, List.idxOf?_eq_some_iff,
    form?_eq_toList]
  refine and_congr_right fun _ => ?_
  constructor
  · rintro ⟨i, ⟨hi, heq, hfirst⟩, rfl⟩
    refine ⟨List.getElem?_eq_some_iff.mpr ⟨hi, heq⟩, fun other hlt h => ?_⟩
    obtain ⟨_, h⟩ := List.getElem?_eq_some_iff.mp h
    exact hfirst other.index hlt h
  · rintro ⟨h, hfirst⟩
    obtain ⟨hi, heq⟩ := List.getElem?_eq_some_iff.mp h
    refine ⟨id.index, ⟨hi, heq, fun j hj h => ?_⟩, rfl⟩
    exact hfirst ⟨j⟩ hj (List.getElem?_eq_some_iff.mpr ⟨Nat.lt_trans hj hi, h⟩)

theorem form?_of_find? (h : t.find? form = some id) : t.form? id = some form :=
  (find?_eq_some_iff.mp h).2.1

theorem find?_eq_none_iff (hform : form.isStructural = true) :
    t.find? form = none ↔ ∀ id, t.form? id ≠ some form := by
  rw [find?, t.indexed form, if_pos hform]
  simp only [Option.map_eq_none_iff, List.idxOf?_eq_none_iff, form?_eq_toList,
    List.mem_iff_getElem?]
  exact ⟨fun h id heq => h ⟨id.index, heq⟩, fun h ⟨i, heq⟩ => h ⟨i⟩ heq⟩

/-! ## The three changes -/

/-- Names that can stand for the fields of one struct: no two are the same, and none is a word of
the notation. -/
def FieldNames (names : List String) : Prop :=
  names.Nodup ∧ ∀ name ∈ names, isReserved name = false

theorem fieldNamesError?_eq_none_iff {owner : String} {before names : List String} :
    fieldNamesError? owner before names = none ↔
      FieldNames names ∧ ∀ name ∈ names, name ∉ before := by
  induction names generalizing before with
  | nil => simp [fieldNamesError?, FieldNames]
  | cons name names ih =>
    unfold fieldNamesError?
    split
    · simp_all [FieldNames]
    · split
      · simp_all [FieldNames]
      · rw [ih]
        simp_all only [FieldNames, List.mem_cons, List.nodup_cons]
        grind

/-- What a form needs besides issued components to be added: sentinels and declared structs are
not added, a generic has as many arguments as it was declared with, and the fields of a record have
names that can stand together. -/
def Shaped (t : TypeTable) : Form → Prop
  | .auto | .noValue | .declared _ _ => False
  | .primitive _ | .pointer _ | .function _ _ => True
  | .generic name args => t.generics.get? name = some args.length
  | .record fields => FieldNames (fields.map (·.1))

/-- What can be added to a table. -/
structure Admits (t : TypeTable) (form : Form) : Prop where
  shaped : t.Shaped form
  issued : ∀ id ∈ form.components, id.index < t.size

theorem Admits.isStructural (h : t.Admits form) : form.isStructural = true := by
  cases form with
  | auto | noValue | declared => exact h.shaped.elim
  | primitive | pointer | function | generic | record => rfl

/-- One form was added that was not there, and that is no primitive type. -/
def Added (t t' : TypeTable) : Prop :=
  ∃ form, t.find? form = none ∧ t.Admits form ∧ (∀ name, form ≠ .primitive name) ∧
    t' = t.push form

/-- The later table has the same forms and possibly more, but no other primitive types. -/
def Extends : TypeTable → TypeTable → Prop := Relation.ReflTransGen Added

/-- The table with one more declared struct, which is pending. -/
def withReserved (t : TypeTable) (name : String) : TypeTable :=
  { t.push (.declared name []) with pending := ⟨t.size⟩ :: t.pending }

theorem setFields_of_form? {name : String} {old : List (String × TypeId)}
    (h : t.form? id = some (.declared name old)) (fields : List (String × TypeId)) :
    (t.setFields id fields).forms = t.forms.setIfInBounds id.index (.declared name fields) := by
  unfold setFields
  split
  · rename_i h'
    cases h.symm.trans h'
    rfl
  · rename_i hother
    exact absurd h (hother name old)

/-- The table after a pending struct was given its fields. -/
def withFilled (t : TypeTable) (id : TypeId) (fields : List (String × TypeId)) : TypeTable :=
  { t.setFields id fields with pending := t.pending.filter (· ≠ id) }

theorem generics_withFilled (t : TypeTable) (id : TypeId) (fields : List (String × TypeId)) :
    (t.withFilled id fields).generics = t.generics := by
  change (t.setFields id fields).generics = t.generics
  unfold setFields
  split <;> rfl

theorem size_withFilled (t : TypeTable) (id : TypeId) (fields : List (String × TypeId)) :
    (t.withFilled id fields).size = t.size := by
  change (t.setFields id fields).size = t.size
  unfold setFields
  split
  · exact Array.size_setIfInBounds ..
  · rfl

/-- Only the struct itself has another form afterwards. -/
theorem form?_withFilled {name : String} {old fields : List (String × TypeId)}
    (h : t.form? id = some (.declared name old)) (other : TypeId) :
    (t.withFilled id fields).form? other =
      if other = id then some (.declared name fields) else t.form? other := by
  change (t.setFields id fields).forms[other.index]? = _
  rw [setFields_of_form? h, Array.getElem?_setIfInBounds]
  by_cases heq : id.index = other.index
  · obtain rfl : id = other := by cases id; cases other; simp_all
    have hlt : id.index < t.forms.size := form?_eq_some_lt h
    rw [if_pos rfl, if_pos rfl, if_pos hlt]
  · have hne : other ≠ id := fun he => heq (he ▸ rfl)
    rw [if_neg heq, if_neg hne]
    rfl

/-- What one operation can do to a table. -/
inductive Step (t : TypeTable) : TypeTable → Prop
  | add {form : Form} (hnew : t.find? form = none) (h : t.Admits form) : t.Step (t.push form)
  | reserve (name : String) : t.Step (t.withReserved name)
  | fill {id : TypeId} {name : String} {old fields : List (String × TypeId)}
      (hform : t.form? id = some (.declared name old)) (hpending : id ∈ t.pending)
      (hissued : ∀ field ∈ fields, field.2.index < t.size)
      (hnames : FieldNames (fields.map (·.1))) : t.Step (t.withFilled id fields)

/-- What any number of operations can do to a table. -/
def Grows : TypeTable → TypeTable → Prop := Relation.ReflTransGen Step

/-- The primitive types and the generics are the same. -/
structure SameBasis (t t' : TypeTable) : Prop where
  primitive? : ∀ name, t'.primitive? name = t.primitive? name
  generics : t'.generics = t.generics

instance : IsPreorder TypeTable Extends where
  refl _ := .refl
  trans _ _ _ := .trans

instance : IsPreorder TypeTable Grows where
  refl _ := .refl
  trans _ _ _ := .trans

instance : IsPreorder TypeTable SameBasis where
  refl _ := ⟨fun _ => rfl, rfl⟩
  trans _ _ _ h h' :=
    ⟨fun name => (h'.primitive? name).trans (h.primitive? name), h'.generics.trans h.generics⟩

theorem primitive?_push {name : String} (h : form ≠ .primitive name) :
    (t.push form).primitive? name = t.primitive? name := by
  change (t.index.enter ⟨t.size⟩ form).find? (.primitive name) = t.index.find? (.primitive name)
  unfold FormIndex.enter
  split
  · rfl
  · exact FormIndex.find?_insert_of_ne _ _ h.symm

theorem sameBasis_push (h : ∀ name, form ≠ .primitive name) : t.SameBasis (t.push form) :=
  ⟨fun name => primitive?_push (h name), rfl⟩

theorem sameBasis_withReserved (t : TypeTable) (name : String) :
    t.SameBasis (t.withReserved name) :=
  ⟨fun _ => primitive?_push nofun, rfl⟩

theorem sameBasis_withFilled (t : TypeTable) (id : TypeId) (fields : List (String × TypeId)) :
    t.SameBasis (t.withFilled id fields) := by
  refine ⟨fun name => ?_, generics_withFilled t id fields⟩
  change (t.setFields id fields).primitive? name = t.primitive? name
  unfold setFields
  split <;> rfl

/-! ## Forms stay -/

theorem Step.form? (hstep : t.Step t') (hform : t.form? id = some form)
    (hdeclared : form.isDeclared = false) : t'.form? id = some form := by
  cases hstep with
  | add => exact form?_push_of_some hform
  | reserve => exact form?_push_of_some hform
  | fill htarget =>
    rw [form?_withFilled htarget, if_neg, hform]
    rintro rfl
    rw [htarget] at hform
    cases hform
    cases hdeclared

theorem Grows.form? (hgrows : t.Grows t') (hform : t.form? id = some form)
    (hdeclared : form.isDeclared = false) : t'.form? id = some form := by
  induction hgrows with
  | refl => exact hform
  | tail _ hstep ih => exact hstep.form? ih hdeclared

/-! ## Arguments of generics -/

theorem Grows.generics (h : t.Grows t') : t'.generics = t.generics := by
  induction h with
  | refl => rfl
  | tail _ hstep ih =>
    cases hstep with
    | add | reserve => exact ih
    | fill => exact (generics_withFilled _ _ _).trans ih

/-- What holds of the numbers of arguments that generics are declared with, and of those that the
generics in the table have. -/
structure Arities (D : String → Nat → Prop) (t : TypeTable) : Prop where
  declared : ∀ name arity, t.generics.get? name = some arity → D name arity
  form? : ∀ id name args, t.form? id = some (.generic name args) → D name args.length

section Arities

variable {D : String → Nat → Prop}

theorem arities_new {generics : Generics}
    (h : ∀ name arity, generics.get? name = some arity → D name arity) :
    (new generics).Arities D := by
  refine ⟨h, fun id name args hform => ?_⟩
  have hmem := Array.mem_of_getElem? hform
  simp [new] at hmem

/-- A generic that is added has as many arguments as it is declared with. -/
theorem Arities.step (h : t.Arities D) (hstep : t.Step t') : t'.Arities D := by
  cases hstep with
  | @add form hnew hadmits =>
    refine ⟨h.declared, fun id name args hform => ?_⟩
    rw [form?_push] at hform
    split at hform
    · cases hform
      exact h.declared name _ hadmits.shaped
    · exact h.form? id name args hform
  | reserve =>
    refine ⟨h.declared, fun id name args hform => ?_⟩
    change (t.push _).form? id = _ at hform
    rw [form?_push] at hform
    split at hform
    · cases hform
    · exact h.form? id name args hform
  | @fill filled _ _ fields htarget =>
    refine ⟨generics_withFilled t filled fields ▸ h.declared, fun id name args hform => ?_⟩
    rw [form?_withFilled htarget] at hform
    split at hform
    · cases hform
    · exact h.form? id name args hform

theorem Arities.grows (h : t.Arities D) (hgrows : t.Grows t') : t'.Arities D := by
  induction hgrows with
  | refl => exact h
  | tail _ hstep ih => exact ih.step hstep

end Arities

/-! ## Adding forms changes nothing else -/

namespace Extends

theorem refl (t : TypeTable) : t.Extends t := Relation.ReflTransGen.refl

theorem trans (h : t.Extends t') (h' : t'.Extends t'') : t.Extends t'' :=
  Relation.ReflTransGen.trans h h'

theorem grows (h : t.Extends t') : t.Grows t' := by
  induction h with
  | refl => exact .refl
  | tail _ hadd ih =>
    obtain ⟨form, hnew, hadmits, -, rfl⟩ := hadd
    exact ih.tail (.add hnew hadmits)

theorem form? (h : t.Extends t') (hid : t.form? id = some form) : t'.form? id = some form := by
  induction h with
  | refl => exact hid
  | tail _ hadd ih =>
    obtain ⟨other, -, -, -, rfl⟩ := hadd
    exact form?_push_of_some ih

theorem size_le (h : t.Extends t') : t.size ≤ t'.size := by
  induction h with
  | refl => exact Nat.le_refl _
  | tail _ hadd ih =>
    obtain ⟨other, -, -, -, rfl⟩ := hadd
    rw [size_push]
    omega

theorem pending (h : t.Extends t') : t'.pending = t.pending := by
  induction h with
  | refl => rfl
  | tail _ hadd ih =>
    obtain ⟨other, -, -, -, rfl⟩ := hadd
    exact ih

theorem sameBasis (h : t.Extends t') : t.SameBasis t' := by
  induction h with
  | refl => exact refl_of SameBasis t
  | tail _ hadd ih =>
    obtain ⟨other, -, -, hform, rfl⟩ := hadd
    exact trans_of SameBasis ih (sameBasis_push hform)

theorem generics (h : t.Extends t') : t'.generics = t.generics := h.sameBasis.generics

/-- An id that was issued before keeps its form. -/
theorem form?_eq (h : t.Extends t') (hid : id.index < t.size) : t'.form? id = t.form? id := by
  obtain ⟨form, hform⟩ := exists_form?_of_lt hid
  rw [hform, h.form? hform]

end Extends

/-! ## Slices -/

section Slices

variable {id type : TypeId}

/-- Slices have one argument, those in the table and those to come. -/
structure UnarySlices (t : TypeTable) : Prop where
  arity : t.generics.get? Form.sliceName = some 1
  args : ∀ id args, t.form? id = some (.generic Form.sliceName args) → args.length = 1

theorem unarySlices_new {generics : Generics} (h : generics.get? Form.sliceName = some 1) :
    (new generics).UnarySlices := by
  refine ⟨h, fun id args hform => ?_⟩
  have hmem := Array.mem_of_getElem? hform
  simp [new] at hmem

theorem UnarySlices.form? {form : Form} (h : t.UnarySlices) (hform : t.form? id = some form)
    (helement : form.element? = some type) :
    t.form? id = some (.generic Form.sliceName [type]) := by
  cases form with
  | generic name args =>
    cases args with
    | nil => cases helement
    | cons element args =>
      obtain ⟨rfl, rfl⟩ : name = Form.sliceName ∧ element = type := by
        simpa [Form.element?] using helement
      have hlen := h.args id _ hform
      rw [List.length_cons, Nat.add_eq_right, List.length_eq_zero_iff] at hlen
      rw [hform, hlen]
  | _ => cases helement

theorem UnarySlices.grows (h : t.UnarySlices) (hgrows : t.Grows t') : t'.UnarySlices := by
  have harities : t.Arities fun name arity => name = Form.sliceName → arity = 1 := by
    refine ⟨?_, ?_⟩
    · rintro name arity hget rfl
      exact Option.some.inj (hget.symm.trans h.arity)
    · rintro id name args hform rfl
      exact h.args id args hform
  exact ⟨hgrows.generics ▸ h.arity, fun id args hform =>
    (harities.grows hgrows).form? id _ args hform rfl⟩

theorem UnarySlices.extends (h : t.UnarySlices) (hext : t.Extends t') : t'.UnarySlices :=
  h.grows hext.grows

end Slices

/-! ## Operations that add a form -/

theorem intern_eq_ok : (intern form : TableM ε TypeId) t = .ok id t' ↔
    t.find? form = some id ∧ t' = t ∨
      t.find? form = none ∧ id = ⟨t.size⟩ ∧ t' = t.push form := by
  unfold intern
  cases t.find? form <;> simp [eq_comm]

theorem form?_of_intern (h : (intern form : TableM ε TypeId) t = .ok id t') :
    t'.form? id = some form := by
  obtain ⟨hfind, rfl⟩ | ⟨-, rfl, rfl⟩ := intern_eq_ok.mp h
  · exact form?_of_find? hfind
  · rw [form?_push, if_pos rfl]

/-- A preorder that adding a form other than a primitive type respects. -/
class Composable (R : TypeTable → TypeTable → Prop) : Prop extends IsPreorder TypeTable R where
  push : ∀ {t form}, t.find? form = none → t.Admits form → (∀ name, form ≠ .primitive name) →
    R t (t.push form)

instance : Composable Extends where
  push hnew hadmits hform := .single ⟨_, hnew, hadmits, hform, rfl⟩

instance : Composable Grows where
  push hnew hadmits _ := .single (.add hnew hadmits)

instance : Composable SameBasis where
  push _ _ hform := sameBasis_push hform

theorem intern_at {R : TypeTable → TypeTable → Prop} [IsPreorder TypeTable R]
    (h : t.find? form = none → R t (t.push form)) :
    R t (endState ((intern form : TableM ε TypeId) t)) := by
  unfold intern
  cases hfind : t.find? form with
  | some id => exact refl_of R t
  | none => exact h hfind

theorem requireIssued_eq_ok {ids : List TypeId} {u : Unit} :
    (requireIssued ids : TableM ε Unit) t = .ok u t' ↔
      (∀ id ∈ ids, id.index < t.size) ∧ t = t' := by
  unfold requireIssued
  cases hfind : ids.find? fun id => !t.isIssued id with
  | none => simpa [isIssued_iff] using fun _ => hfind
  | some id =>
    have hid : ¬ id.index < t.size := by simpa [isIssued] using List.find?_some hfind
    simpa using fun h => absurd (h id (List.mem_of_find?_eq_some hfind)) hid

theorem requireIssued_moves {R : TypeTable → TypeTable → Prop} [IsPreorder TypeTable R]
    (ids : List TypeId) : Moves R (requireIssued ids : TableM ε Unit) :=
  Moves.of_same fun t => by unfold requireIssued; cases ids.find? _ <;> rfl

section Composing

variable {R : TypeTable → TypeTable → Prop} [Composable R]

/-- All operations that add a form first ask for its components, and then for the form. -/
theorem internIssued_at (form : Form) (hshaped : t.Shaped form)
    (hform : ∀ name, form ≠ .primitive name) : R t (endState
      ((requireIssued form.components >>= fun _ => intern form : TableM ε TypeId) t)) := by
  refine Moves.bind_at (requireIssued_moves _ t) fun _ t₁ h => ?_
  obtain ⟨hissued, rfl⟩ := requireIssued_eq_ok.mp h
  exact intern_at fun hnew => Composable.push hnew ⟨hshaped, hissued⟩ hform

theorem internIssued_eq_ok (form : Form)
    (h : (requireIssued form.components >>= fun _ => intern form : TableM ε TypeId) t = .ok id t') :
    (∀ c ∈ form.components, c.index < t.size) ∧ (intern form : TableM ε TypeId) t = .ok id t' := by
  obtain ⟨_, t₁, h, hintern⟩ := bind_eq_ok.mp h
  obtain ⟨hissued, rfl⟩ := requireIssued_eq_ok.mp h
  exact ⟨hissued, hintern⟩

theorem internPrimitive_grows (name : String) :
    Moves Grows (internPrimitive name : TableM ε TypeId) := fun _ =>
  intern_at fun hnew => .single (.add hnew ⟨trivial, nofun⟩)

theorem internPointer_moves (base : TypeId) :
    Moves R (internPointer base : TableM ε TypeId) := fun _ =>
  internIssued_at (.pointer base) trivial nofun

theorem form?_of_internPointer {base : TypeId}
    (h : (internPointer base : TableM ε TypeId) t = .ok id t') :
    t'.form? id = some (.pointer base) :=
  form?_of_intern (internIssued_eq_ok (.pointer base) h).2

theorem internFunction_moves (params : List TypeId) (result : TypeId) :
    Moves R (internFunction params result : TableM ε TypeId) := fun _ =>
  internIssued_at (.function params result) trivial nofun

theorem form?_of_internFunction {params : List TypeId} {result : TypeId}
    (h : (internFunction params result : TableM ε TypeId) t = .ok id t') :
    t'.form? id = some (.function params result) :=
  form?_of_intern (internIssued_eq_ok (.function params result) h).2

theorem internGeneric_eq (name : String) (args : List TypeId) (t : TypeTable) :
    internGeneric name args t =
      match t.generics.get? name with
      | none => .error (.error (.unknownGeneric name)) t
      | some arity =>
        if arity ≠ args.length then .error (.error (.invalidArity name arity args.length)) t
        else (requireIssued args >>= fun _ => intern (.generic name args)) t := by
  unfold internGeneric
  rw [get_bind]
  cases t.generics.get? name with
  | none => rfl
  | some arity =>
    by_cases h : arity ≠ args.length
    · simp only [if_pos h]
      rfl
    · simp only [if_neg h]

theorem internGeneric_moves (name : String) (args : List TypeId) :
    Moves R (internGeneric name args) := fun t => by
  rw [internGeneric_eq]
  cases hget : t.generics.get? name with
  | none => exact refl_of R t
  | some arity =>
    dsimp only
    split
    · exact refl_of R t
    · rename_i h
      exact internIssued_at (.generic name args) (by simpa [Shaped, hget] using h) nofun

theorem internGeneric_eq_ok {name : String} {args : List TypeId}
    (h : internGeneric name args t = .ok id t') :
    t.generics.get? name = some args.length ∧ t'.form? id = some (.generic name args) := by
  rw [internGeneric_eq] at h
  cases hget : t.generics.get? name with
  | none => simp [hget] at h
  | some arity =>
    simp only [hget] at h
    split at h
    · simp at h
    · rename_i hlen
      refine ⟨by simpa using hlen, ?_⟩
      exact form?_of_intern (internIssued_eq_ok (.generic name args) h).2

theorem internSlice_moves (element : TypeId) :
    Moves R (internSlice element : TableM ε TypeId) := fun t => by
  have h := internGeneric_moves (R := R) Form.sliceName [element] t
  unfold internSlice
  revert h
  cases internGeneric Form.sliceName [element] t with
  | ok id t' => exact fun h => h
  | error e t' => cases e <;> exact fun h => h

theorem form?_of_internSlice {element : TypeId}
    (h : (internSlice element : TableM ε TypeId) t = .ok id t') :
    t'.form? id = some (.generic Form.sliceName [element]) := by
  unfold internSlice at h
  cases hgeneric : internGeneric Form.sliceName [element] t with
  | ok found t₁ =>
    simp only [hgeneric, EStateM.Result.ok.injEq] at h
    obtain ⟨rfl, rfl⟩ := h
    exact (internGeneric_eq_ok hgeneric).2
  | error e t₁ => cases e <;> simp [hgeneric] at h

theorem requireFieldNames_eq_ok {owner : String} {names : List String} {u : Unit} :
    requireFieldNames owner names t = .ok u t' ↔ FieldNames names ∧ t = t' := by
  have hnone : fieldNamesError? owner [] names = none ↔ _ := fieldNamesError?_eq_none_iff
  unfold requireFieldNames
  cases h : fieldNamesError? owner [] names with
  | none =>
    rw [h] at hnone
    simpa [pure_eq_ok] using fun _ => hnone
  | some e =>
    rw [h] at hnone
    simpa [throw_eq_ok] using fun h => absurd h (by simpa using hnone)

theorem requireFieldNames_moves {R : TypeTable → TypeTable → Prop} [IsPreorder TypeTable R]
    (owner : String) (names : List String) : Moves R (requireFieldNames owner names) :=
  Moves.of_same fun t => by unfold requireFieldNames; cases fieldNamesError? owner [] names <;> rfl

theorem internRecord_moves (fields : List (String × TypeId)) :
    Moves R (internRecord fields) := fun t => by
  refine Moves.bind_at (requireFieldNames_moves _ _ t) fun _ t₁ h => ?_
  obtain ⟨hnames, rfl⟩ := requireFieldNames_eq_ok.mp h
  exact internIssued_at (.record fields) hnames nofun

theorem form?_of_internRecord {fields : List (String × TypeId)}
    (h : internRecord fields t = .ok id t') : t'.form? id = some (.record fields) := by
  obtain ⟨_, t₁, -, h⟩ := bind_eq_ok.mp h
  exact form?_of_intern (internIssued_eq_ok (.record fields) h).2

theorem fieldNames_of_internRecord {fields : List (String × TypeId)}
    (h : internRecord fields t = .ok id t') : FieldNames (fields.map (·.1)) := by
  obtain ⟨_, t₁, hnames, -⟩ := bind_eq_ok.mp h
  exact (requireFieldNames_eq_ok.mp hnames).1

end Composing

/-! ## Declared structs -/

theorem reserve_eq (name : String) (t : TypeTable) :
    (reserve name : TableM ε TypeId) t = .ok ⟨t.size⟩ (t.withReserved name) := rfl

theorem reserve_grows (name : String) : Moves Grows (reserve name : TableM ε TypeId) := fun _ =>
  .single (.reserve name)

theorem reserve_sameBasis (name : String) : Moves SameBasis (reserve name : TableM ε TypeId) :=
  fun t => sameBasis_withReserved t name

theorem isSealed_eq_false_iff : t.isSealed id = false ↔ id ∈ t.pending := by
  simp [isSealed]

theorem ofExcept_eq_ok {α : Type} {f : TypeTable → Except Fault α} {a : α} :
    (TableM.ofExcept f : TableM ε α) t = .ok a t' ↔ f t = .ok a ∧ t = t' := by
  unfold TableM.ofExcept
  cases f t <;> simp

theorem ofExcept_moves {α : Type} {R : TypeTable → TypeTable → Prop} [IsPreorder TypeTable R]
    (f : TypeTable → Except Fault α) : Moves R (TableM.ofExcept f : TableM ε α) :=
  Moves.of_same fun t => by unfold TableM.ofExcept; cases f t <;> rfl

/-- A struct is filled when it is pending and its fields can be; nothing else happens then. -/
theorem fill_eq_ok {fields : List (String × TypeId)} {u : Unit}
    (h : fill id fields t = .ok u t') :
    ∃ name old, t.form? id = some (.declared name old) ∧ id ∈ t.pending ∧
      (∀ field ∈ fields, field.2.index < t.size) ∧ FieldNames (fields.map (·.1)) ∧
      t' = t.withFilled id fields := by
  unfold fill at h
  obtain ⟨owner, _, howner, h⟩ := bind_eq_ok.mp h
  obtain ⟨-, rfl⟩ := ofExcept_eq_ok.mp howner
  obtain ⟨form, _, hread, h⟩ := bind_eq_ok.mp h
  obtain ⟨hform, rfl⟩ := ofExcept_eq_ok.mp hread
  rw [get_bind] at h
  by_cases hsealed : t.isSealed id = true
  · rw [if_pos hsealed] at h
    exact (throw_eq_ok.mp h).elim
  · rw [if_neg hsealed] at h
    obtain ⟨_, _, h₁, h⟩ := bind_eq_ok.mp h
    obtain ⟨hissued, rfl⟩ := requireIssued_eq_ok.mp h₁
    obtain ⟨_, _, h₂, h⟩ := bind_eq_ok.mp h
    obtain ⟨hnames, rfl⟩ := requireFieldNames_eq_ok.mp h₂
    have hpending : id ∈ t.pending := isSealed_eq_false_iff.mp (by simpa using hsealed)
    cases form with
    | declared name old =>
      refine ⟨name, old, form_eq_ok.mp hform, hpending, ?_, hnames, (modify_eq_ok.mp h).symm⟩
      exact fun field hfield => hissued field.2 (List.mem_map_of_mem hfield)
    | _ => exact (throw_eq_ok.mp h).elim

/-- A struct that cannot be filled stays as it is, and so does everything else. -/
theorem fill_eq_error {fields : List (String × TypeId)} {e : Failure TableError}
    (h : fill id fields t = .error e t') : t' = t := by
  unfold fill at h
  obtain h | ⟨owner, _, howner, h⟩ := bind_eq_error.mp h
  · exact ((ofExcept_moves (R := Eq) _).error h).symm
  obtain ⟨-, rfl⟩ := ofExcept_eq_ok.mp howner
  obtain h | ⟨form, _, hread, h⟩ := bind_eq_error.mp h
  · exact ((ofExcept_moves (R := Eq) _).error h).symm
  obtain ⟨-, rfl⟩ := ofExcept_eq_ok.mp hread
  rw [get_bind] at h
  by_cases hsealed : t.isSealed id = true
  · rw [if_pos hsealed] at h
    exact ((Moves.throw (R := Eq) _).error h).symm
  · rw [if_neg hsealed] at h
    obtain h | ⟨_, _, h₁, h⟩ := bind_eq_error.mp h
    · exact ((requireIssued_moves (R := Eq) _).error h).symm
    obtain ⟨-, rfl⟩ := requireIssued_eq_ok.mp h₁
    obtain h | ⟨_, _, h₂, h⟩ := bind_eq_error.mp h
    · exact ((requireFieldNames_moves (R := Eq) _ _).error h).symm
    obtain ⟨-, rfl⟩ := requireFieldNames_eq_ok.mp h₂
    cases form with
    | declared name old => cases h
    | _ => exact ((Moves.throw (R := Eq) _).error h).symm

/-- What filling a pending struct respects, an attempt to fill one does. -/
theorem fill_moves {R : TypeTable → TypeTable → Prop} [IsPreorder TypeTable R]
    {fields : List (String × TypeId)}
    (h : ∀ {t name old}, t.form? id = some (.declared name old) → id ∈ t.pending →
      (∀ field ∈ fields, field.2.index < t.size) → FieldNames (fields.map (·.1)) →
      R t (t.withFilled id fields)) : Moves R (fill id fields) := fun t => by
  cases hfill : fill id fields t with
  | error e t' =>
    obtain rfl := fill_eq_error hfill
    exact refl_of R _
  | ok u t' =>
    obtain ⟨name, old, hform, hpending, hissued, hnames, rfl⟩ := fill_eq_ok hfill
    exact h hform hpending hissued hnames

theorem fill_grows (id : TypeId) (fields : List (String × TypeId)) :
    Moves Grows (fill id fields) :=
  fill_moves fun hform hpending hissued hnames => .single (.fill hform hpending hissued hnames)

theorem fill_sameBasis (id : TypeId) (fields : List (String × TypeId)) :
    Moves SameBasis (fill id fields) := fill_moves fun _ _ _ _ => sameBasis_withFilled _ id fields

theorem mapError_moves {ε' α : Type} {R : TypeTable → TypeTable → Prop} {x : TableM ε α}
    (f : ε → ε') (h : Moves R x) : Moves R (x.mapError f) := fun t => by
  have hx := h t
  unfold TableM.mapError
  revert hx
  cases x t <;> exact fun hx => hx

theorem mapError_eq_ok {ε' α : Type} {x : TableM ε α} {f : ε → ε'} {a : α} :
    x.mapError f t = .ok a t' ↔ x t = .ok a t' := by
  unfold TableM.mapError
  cases x t <;> simp

end TypeTable

/-! ## Looking up written types only adds forms -/

namespace TypeExpr

open TypeTable

variable {R : TypeTable → TypeTable → Prop} [Composable R] (names : Names)

theorem resolveName_moves (name : String) : Moves R (resolveName names name) :=
  Moves.of_same fun t => by
    unfold resolveName
    cases (names.get? name).or (t.primitive? name) <;> rfl

theorem assemble_moves (e : TypeExpr) (ids : List TypeId) : Moves R (e.assemble ids) := by
  unfold assemble
  split
  · exact internPointer_moves _
  · exact internSlice_moves _
  · exact mapError_moves _ (internGeneric_moves _ _)
  · exact internFunction_moves _ _
  · exact internFunction_moves _ _
  · exact mapError_moves _ (internRecord_moves _)
  · exact .throw _

theorem resolution_moves : (∀ e : TypeExpr, Moves R (e.resolveConcrete names)) ∧
    ∀ es : List TypeExpr, Moves R (resolveAll names es) := by
  refine parts_induction ?auto ?named ?compound ?nil ?cons
  case auto =>
    rw [resolveConcrete]
    exact .throw _
  case named =>
    intro name
    rw [resolveConcrete]
    exact resolveName_moves names name
  case compound =>
    intro e he hparts
    rw [resolveConcrete_compound names he]
    exact hparts.bind (assemble_moves e)
  case nil =>
    rw [resolveAll]
    exact .pure _
  case cons =>
    intro e es he hes
    rw [resolveAll]
    exact he.bind fun _ => hes.bind fun _ => .pure _

theorem resolveConcrete_moves (e : TypeExpr) : Moves R (e.resolveConcrete names) :=
  (resolution_moves names).1 e

theorem resolveAll_moves (es : List TypeExpr) : Moves R (resolveAll names es) :=
  (resolution_moves names).2 es

theorem resolveFields_moves (fields : List (String × TypeExpr)) :
    Moves R (resolveFields names fields) := by
  rw [resolveFields_eq]
  exact (resolveAll_moves names _).bind fun _ => .pure _

theorem resolve_moves (e : TypeExpr) : Moves R (e.resolve names) := by
  unfold resolve
  split
  · exact .pure _
  · exact resolveConcrete_moves names e

theorem load_extends (text : String) : Moves Extends (load names text) := by
  unfold load
  split
  · exact resolve_moves names _
  · exact .throw _

/-! ## What is found is what was asked for -/

variable {names} {t t' : TypeTable} {ids : List TypeId}

/-- A compound type is found under the form that its parts make. -/
theorem form?_of_assemble {e : TypeExpr} {id : TypeId} (hlength : e.parts.length = ids.length)
    (h : e.assemble ids t = .ok id t') :
    ∃ form, e.form? ids = some form ∧ t'.form? id = some form := by
  cases e with
  | auto | named => exact (throw_eq_ok.mp h).elim
  | pointer base =>
    obtain _ | ⟨base, _ | _⟩ := ids <;> cases hlength
    exact ⟨_, rfl, form?_of_internPointer h⟩
  | slice element =>
    obtain _ | ⟨element, _ | _⟩ := ids <;> cases hlength
    exact ⟨_, rfl, form?_of_internSlice h⟩
  | generic name args => exact ⟨_, rfl, (internGeneric_eq_ok (mapError_eq_ok.mp h)).2⟩
  | function params result =>
    cases result with
    | none => exact ⟨_, rfl, form?_of_internFunction h⟩
    | some result =>
      have hsome : ids ≠ [] := by
        rintro rfl
        simp [parts] at hlength
      refine ⟨_, ?_, form?_of_internFunction h⟩
      rw [form?, List.getLast?_eq_some_getLast hsome, List.getLastD_eq_getLast?,
        List.getLast?_eq_some_getLast hsome]
      rfl
  | record fields => exact ⟨_, rfl, form?_of_internRecord (mapError_eq_ok.mp h)⟩

theorem length_of_resolveAll {es : List TypeExpr} (h : resolveAll names es t = .ok ids t') :
    es.length = ids.length := by
  induction es generalizing t ids with
  | nil =>
    rw [resolveAll] at h
    obtain ⟨rfl, -⟩ := pure_eq_ok.mp h
    rfl
  | cons e es ih =>
    rw [resolveAll] at h
    obtain ⟨first, t₁, -, h⟩ := bind_eq_ok.mp h
    obtain ⟨rest, t₂, hrest, h⟩ := bind_eq_ok.mp h
    obtain ⟨rfl, rfl⟩ := pure_eq_ok.mp h
    simp [ih hrest]

end TypeExpr

end RuleTypes
