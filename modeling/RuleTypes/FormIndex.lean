import RuleTypes.Form

/-!
# The index of forms

Most types are known by their form. The index tells the ids of these: it has one map for each kind
of form, from what the form is made of to the id. Sentinels and declared structs are not in it. The
former have fixed ids, and each declaration of a struct is a type of its own.
-/

namespace RuleTypes

/-- Whether a type is known by its form. -/
def Form.isStructural : Form → Bool
  | primitive _ | pointer _ | function _ _ | generic _ _ | record _ => true
  | auto | noValue | declared _ _ => false

theorem Form.isDeclared_eq_false {form : Form} (h : form.isStructural = true) :
    form.isDeclared = false := by
  cases form with
  | declared => cases h
  | _ => rfl

/-- The ids of structural forms, by kind. Each map is the list of its entries. -/
structure FormIndex where
  /-- Keyed by name. -/
  primitives : List (String × TypeId)
  /-- Keyed by what is pointed to. -/
  pointers : List (TypeId × TypeId)
  /-- Keyed by parameters and result. -/
  functions : List ((List TypeId × TypeId) × TypeId)
  /-- Keyed by name and arguments. -/
  generics : List ((String × List TypeId) × TypeId)
  /-- Keyed by fields. -/
  records : List (List (String × TypeId) × TypeId)
  deriving DecidableEq, Repr, Inhabited

namespace FormIndex

/-- The index that knows no form. -/
def empty : FormIndex := ⟨[], [], [], [], []⟩

/-- The id that is known for a form. -/
def find? (ix : FormIndex) : Form → Option TypeId
  | .primitive name => ix.primitives.lookup name
  | .pointer base => ix.pointers.lookup base
  | .function params result => ix.functions.lookup (params, result)
  | .generic name args => ix.generics.lookup (name, args)
  | .record fields => ix.records.lookup fields
  | .auto | .noValue | .declared _ _ => none

/-- Enters the id of a form into the map of its kind. -/
def insert (ix : FormIndex) (id : TypeId) : Form → FormIndex
  | .primitive name => { ix with primitives := (name, id) :: ix.primitives }
  | .pointer base => { ix with pointers := (base, id) :: ix.pointers }
  | .function params result => { ix with functions := ((params, result), id) :: ix.functions }
  | .generic name args => { ix with generics := ((name, args), id) :: ix.generics }
  | .record fields => { ix with records := (fields, id) :: ix.records }
  | .auto | .noValue | .declared _ _ => ix

/-- Enters the id of a form that is not known yet. -/
def enter (ix : FormIndex) (id : TypeId) (form : Form) : FormIndex :=
  if (ix.find? form).isSome then ix else ix.insert id form

/-! ## What the index finds -/

theorem find?_of_not_structural {form : Form} (ix : FormIndex) (h : form.isStructural = false) :
    ix.find? form = none := by
  cases form with
  | auto | noValue | declared => rfl
  | primitive | pointer | function | generic | record => cases h

theorem lookup_cons {κ : Type} [BEq κ] [LawfulBEq κ] [DecidableEq κ] (key other : κ)
    (id : TypeId) (entries : List (κ × TypeId)) : ((key, id) :: entries).lookup other =
      if other = key then some id else entries.lookup other := by
  rw [List.lookup_cons]
  by_cases h : other = key
  · simp [h]
  · rw [beq_false_of_ne h, if_neg h]

theorem find?_insert_self {form : Form} (ix : FormIndex) (id : TypeId)
    (h : form.isStructural = true) : (ix.insert id form).find? form = some id := by
  cases form with
  | auto | noValue | declared => cases h
  | primitive | pointer | function | generic | record =>
    simp only [insert, find?, lookup_cons, if_pos]

/-- The maps of different kinds are apart, and so are the keys of one kind. -/
theorem find?_insert_of_ne {form other : Form} (ix : FormIndex) (id : TypeId)
    (h : other ≠ form) : (ix.insert id form).find? other = ix.find? other := by
  cases form <;> cases other <;>
    first | rfl | simp_all only [insert, find?, lookup_cons, ne_eq, Form.primitive.injEq,
      Form.pointer.injEq, Form.function.injEq, Form.generic.injEq, Form.record.injEq,
      Prod.mk.injEq, if_false]

/-- The index finds the first place of every structural form in a list, and nothing else. -/
def Locates (ix : FormIndex) (forms : List Form) : Prop :=
  ∀ form, ix.find? form =
    if form.isStructural then (forms.idxOf? form).map TypeId.mk else none

theorem locates_empty {forms : List Form} (h : ∀ form ∈ forms, form.isStructural = false) :
    empty.Locates forms := by
  intro form
  split
  · rename_i hform
    have hnew : forms.idxOf? form = none := List.idxOf?_eq_none_iff.mpr fun hmem => by
      rw [h form hmem] at hform
      cases hform
    rw [hnew]
    cases form <;> rfl
  · rename_i hform
    exact empty.find?_of_not_structural (Bool.eq_false_iff.mpr hform)

theorem idxOf?_concat (forms : List Form) (form other : Form) :
    (forms ++ [form]).idxOf? other =
      (forms.idxOf? other).or (if form = other then some forms.length else none) := by
  simp only [List.idxOf?, List.findIdx?_append, List.findIdx?_singleton]
  by_cases h : form = other <;> simp [h]

/-- A form added at the end is entered if it is new. -/
theorem Locates.push {ix : FormIndex} {forms : List Form} (h : ix.Locates forms) (form : Form) :
    (ix.enter ⟨forms.length⟩ form).Locates (forms ++ [form]) := by
  intro other
  rw [idxOf?_concat]
  unfold enter
  by_cases heq : form = other
  · subst heq
    have hold := h form
    cases hstructural : form.isStructural with
    | false =>
      have hnone := ix.find?_of_not_structural hstructural
      simp [hnone, find?_of_not_structural _ hstructural]
    | true =>
      rw [hstructural, if_pos rfl] at hold
      cases hfound : ix.find? form with
      | some id =>
        rw [hfound] at hold
        obtain ⟨i, hi, rfl⟩ := Option.map_eq_some_iff.mp hold.symm
        simp [hi, hfound]
      | none =>
        rw [hfound] at hold
        have hi := Option.map_eq_none_iff.mp hold.symm
        simp [hi, find?_insert_self _ _ hstructural]
  · rw [if_neg heq, Option.or_none, ← h other]
    split
    · rfl
    · exact find?_insert_of_ne _ _ fun he => heq he.symm

theorem idxOf?_set {forms : List Form} {i : Nat} {old new other : Form}
    (hold : forms[i]? = some old) (hne : old ≠ other) (hne' : new ≠ other) :
    (forms.set i new).idxOf? other = forms.idxOf? other := by
  induction forms generalizing i with
  | nil => rfl
  | cons form forms ih =>
    cases i with
    | zero =>
      obtain rfl : form = old := by simpa using hold
      simp [List.set_cons_zero, List.idxOf?_cons, hne, hne']
    | succ i =>
      rw [List.set_cons_succ, List.idxOf?_cons, List.idxOf?_cons, ih (by simpa using hold)]

/-- Replacing a form that is not in the index by another such form changes nothing. -/
theorem Locates.set {ix : FormIndex} {forms : List Form} (h : ix.Locates forms) {i : Nat}
    {old new : Form} (hold : forms[i]? = some old) (hstructural : old.isStructural = false)
    (hstructural' : new.isStructural = false) : ix.Locates (forms.set i new) := by
  intro form
  rw [h form]
  split
  · rename_i hform
    rw [idxOf?_set hold]
    · rintro rfl
      rw [hstructural] at hform
      cases hform
    · rintro rfl
      rw [hstructural'] at hform
      cases hform
  · rfl

end FormIndex

end RuleTypes
