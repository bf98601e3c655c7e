import RuleTypes.Check.Basic

/-!
# Names, members, indexing and assignment

The rules for nodes that read or write a place. A rule is given the inference of the node's parts
as a parameter, `infer`; `Check/Inference.lean` ties them together.
-/

namespace RuleTypes

/-- The struct that a member is read from: the type itself, or what is behind one pointer. -/
def TypeTable.structOf (t : TypeTable) (id : TypeId) :
    Except Fault (Option (TypeId × List (String × TypeId))) := do
  match ← t.form id with
  | .pointer base => return (← t.form base).fields?.map (base, ·)
  | form => return form.fields?.map (id, ·)

namespace Check

/-- The inference of a node's type. -/
abbrev Infer : Type := NodeId → Check TypeId

/-- Infers nodes from left to right. -/
def inferAll (infer : Infer) : List NodeId → Check (List TypeId)
  | [] => pure []
  | id :: ids => do
    let type ← infer id
    let types ← inferAll infer ids
    return type :: types

/-- A name has the type it is bound to. -/
def inferIdentifier (name : String) (span : Span) : Check TypeId := do
  match ← lookup name with
  | some binding => return binding.type
  | none => report (.undefinedSymbol name) span

/-- A member has the type of the field. -/
def inferMember (infer : Infer) (base : NodeId) (field : String) (span : Span) :
    Check TypeId := do
  let baseType ← infer base
  match ← inspect fun s => s.table.structOf baseType with
  | none => report (.notStruct (← textOf baseType)) span
  | some (owner, fields) =>
    match fields.lookup field with
    | some type => return type
    | none => report (.unknownField (← textOf owner) field) span

/-- A slice is indexed by a number and gives an element. -/
def inferIndex (cx : Setting) (infer : Infer) (base position : NodeId) : Check TypeId := do
  let baseType ← infer base
  match (← formOf baseType).element? with
  | none => report (.notIndexable (← textOf baseType)) (← nodeOf cx base).span
  | some element =>
    let found ← infer position
    let number := cx.builtin.number
    require (found = number)
      (do return .argumentMismatch 0 (← textOf number) (← textOf found)) (← nodeOf cx position).span
    return element

/-- Whether a node may be assigned to: it is a place, and if it is a bound name, the name is that
of a variable or a parameter. -/
def isAssignable (target : NodeKind) : Check Bool := do
  match target with
  | .identifier name =>
    match ← lookup name with
    | some binding => return binding.kind.isAssignable
    | none => return true
  | _ => return target.isPlace

/-- Both sides of an assignment have one type. An assignment has no value. -/
def inferAssign (cx : Setting) (infer : Infer) (target value : NodeId) (span : Span) :
    Check TypeId := do
  require (← isAssignable (← nodeOf cx target).kind) (pure .notAssignable) span
  let targetType ← infer target
  let valueType ← infer value
  require (valueType ≠ .noValue ∧ targetType = valueType)
    (do return .assignmentMismatch (← textOf targetType) (← textOf valueType)) span
  return .noValue

end Check

end RuleTypes
