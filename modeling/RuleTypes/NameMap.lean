/-!
# Finite maps from names

A `NameMap` binds finitely many names. Every name has at most one value; binding it again
replaces the value. The laws below say what each operation does to the view `get?`, and nothing
else depends on the order of the entries.
-/

namespace RuleTypes

/-- A finite map from names, as the list of its entries. -/
structure NameMap (α : Type) where
  entries : List (String × α)
  deriving Repr, Inhabited

namespace NameMap

variable {α : Type}

/-- The map that binds no name. -/
def empty : NameMap α := ⟨[]⟩

/-- The value of a name. -/
def get? (m : NameMap α) (name : String) : Option α := m.entries.lookup name

/-- Whether a name is bound. -/
def contains (m : NameMap α) (name : String) : Bool := (m.get? name).isSome

/-- Unbinds a name. -/
def erase (m : NameMap α) (name : String) : NameMap α :=
  ⟨m.entries.filter fun entry => entry.1 != name⟩

/-- Binds a name, replacing what it was bound to. -/
def insert (m : NameMap α) (name : String) (value : α) : NameMap α :=
  ⟨(name, value) :: (m.erase name).entries⟩

/-- The number of bound names. -/
def size (m : NameMap α) : Nat := m.entries.length

/-- Applies a function to every value. -/
def map {β : Type} (f : α → β) (m : NameMap α) : NameMap β :=
  ⟨m.entries.map fun entry => (entry.1, f entry.2)⟩

/-- The entries in the order of their names, character by character. -/
def sorted (m : NameMap α) : List (String × α) :=
  m.entries.mergeSort fun a b => decide (a.1 ≤ b.1)

/-! ## The view -/

@[simp]
theorem get?_empty (name : String) : (empty : NameMap α).get? name = none := rfl

theorem lookup_filter_ne (entries : List (String × α)) (name other : String) :
    (entries.filter fun entry => entry.1 != name).lookup other =
      if other = name then none else entries.lookup other := by
  induction entries with
  | nil => simp
  | cons entry rest ih =>
    obtain ⟨key, value⟩ := entry
    by_cases hk : key = name
    · subst hk
      by_cases ho : other = key
      · subst ho
        simpa using ih
      · simp only [bne_self_eq_false, Bool.false_eq_true, not_false_eq_true,
          List.filter_cons_of_neg, ih, ho, if_false]
        rw [List.lookup_cons, beq_false_of_ne ho]
    · rw [List.filter_cons, if_pos (by simpa using hk), List.lookup_cons, ih, List.lookup_cons]
      by_cases ho : other = key
      · subst ho
        simp [hk]
      · rw [beq_false_of_ne ho]

@[simp]
theorem get?_erase (m : NameMap α) (name other : String) :
    (m.erase name).get? other = if other = name then none else m.get? other :=
  lookup_filter_ne m.entries name other

@[simp]
theorem get?_insert (m : NameMap α) (name other : String) (value : α) :
    (m.insert name value).get? other = if other = name then some value else m.get? other := by
  have herase := get?_erase m name other
  simp only [get?] at herase
  simp only [insert, get?, List.lookup_cons]
  by_cases h : other = name
  · simp [h]
  · rw [beq_false_of_ne h]
    simpa [h] using herase

@[simp]
theorem get?_map {β : Type} (f : α → β) (m : NameMap α) (name : String) :
    (m.map f).get? name = (m.get? name).map f := by
  obtain ⟨entries⟩ := m
  induction entries with
  | nil => rfl
  | cons entry rest ih =>
    obtain ⟨key, value⟩ := entry
    simp only [map, get?, List.map_cons, List.lookup_cons] at ih ⊢
    cases name == key with
    | true => rfl
    | false => exact ih

theorem contains_eq_true_iff {m : NameMap α} {name : String} :
    m.contains name = true ↔ ∃ value, m.get? name = some value := by
  simp [contains, Option.isSome_iff_exists]

end NameMap

end RuleTypes
