import RuleTypes.TypeTable.Render

/-!
# Declared structs

A declared struct is first reserved, without fields, so that its fields may point back at it, and
later filled with its fields, once; then it is sealed. Between the two it is pending. Text and
fingerprint of a declared struct are those of its name and do not change when it is filled.
-/

namespace RuleTypes

/-- Runs a reading of the table inside an operation on it. -/
def TableM.ofExcept {ε α : Type} (x : TypeTable → Except Fault α) : TableM ε α := fun t =>
  match x t with
  | .ok a => .ok a t
  | .error cause => .error (.fault cause) t

namespace TypeTable

variable {ε : Type}

/-- A new declared struct, whose fields are to follow. -/
def reserve (name : String) : TableM ε TypeId := fun t =>
  let id : TypeId := ⟨t.size⟩
  .ok id { t.push (.declared name []) with pending := id :: t.pending }

/-- The table in which a declared struct has the given fields. Other types stay as they are. -/
def setFields (t : TypeTable) (id : TypeId) (fields : List (String × TypeId)) : TypeTable :=
  match h : t.form? id with
  | some (.declared name _) =>
    { t with
      forms := t.forms.setIfInBounds id.index (.declared name fields)
      indexed := by
        rw [Array.toList_setIfInBounds]
        exact t.indexed.set (Array.getElem?_toList.trans h) rfl rfl }
  | _ => t

/-- Gives a reserved struct its fields. The struct stays pending if a field name is refused. -/
def fill (id : TypeId) (fields : List (String × TypeId)) : TableM TableError Unit := do
  let owner ← TableM.ofExcept fun t => t.text id
  let form ← TableM.ofExcept fun t => t.form id
  if (← get).isSealed id then
    throw (.error (if form.isDeclared then .alreadySealed owner else .notPlaceholder owner))
  requireIssued (fields.map (·.2))
  requireFieldNames owner (fields.map (·.1))
  match form with
  | .declared _ _ => modify fun t =>
    { t.setFields id fields with pending := t.pending.filter (· ≠ id) }
  | _ => throw (.error (.notPlaceholder owner))

end TypeTable

end RuleTypes
