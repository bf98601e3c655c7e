import RuleTypes.Check.Expression

/-!
# Structs and slices written out

A literal with a struct type gives values to fields: a named member to the field of its name, an
unnamed one to the field at its position. No field is given two values, and every value has the
type of its field. The members of a slice literal are unnamed elements. Without a type, a literal
is a record of its own members, the unnamed ones called `_0`, `_1`, … by position.
-/

namespace RuleTypes

/-- What is wrong with a member of a literal. -/
inductive MemberFlaw
  /-- There is no field of its name. -/
  | unknownField (name : String)
  /-- There is no field at its position. -/
  | tooMany
  /-- Its field has a value already. -/
  | repeated (field : String)
  /-- Its type is not that of its field. -/
  | mismatch (field : String) (expected found : TypeId)
  deriving DecidableEq, Repr, Inhabited

/-- The place of the field that a member at `position` gives a value to. -/
def fieldIndex? (fields : List (String × TypeId)) (position : Nat) : Option String → Option Nat
  | some name => fields.findIdx? fun field => field.1 == name
  | none => if position < fields.length then some position else none

/-- The first flawed member of a struct literal, by position, and its flaw. The members from
`position` on are given by name and type; `given` lists the fields that have a value. -/
def structFlaw? (fields : List (String × TypeId)) (position : Nat) (given : List Nat) :
    List (Option String × TypeId) → Option (Nat × MemberFlaw)
  | [] => none
  | (name, found) :: members =>
    match fieldIndex? fields position name with
    | none =>
      match name with
      | some name => some (position, .unknownField name)
      | none => some (position, .tooMany)
    | some i =>
      match fields[i]? with
      | none => some (position, .tooMany)
      | some (field, expected) =>
        if given.contains i then some (position, .repeated field)
        else if expected ≠ found then some (position, .mismatch field expected found)
        else structFlaw? fields (position + 1) (i :: given) members

/-- The first flawed member of a slice literal, by position, and its flaw. -/
def sliceFlaw? (element : TypeId) (position : Nat) :
    List (Option String × TypeId) → Option (Nat × MemberFlaw)
  | [] => none
  | (some name, _) :: _ => some (position, .unknownField name)
  | (none, found) :: members =>
    if found ≠ element then
      some (position, .mismatch ("[" ++ toString position ++ "]") element found)
    else sliceFlaw? element (position + 1) members

namespace Check

/-- The members of a literal without its values. -/
abbrev Members : Type := List (Option String × NodeId)

/-- Reports the flaw of a member. That there are too many members concerns the whole literal; any
other flaw is reported where the member stands. -/
def reportFlaw {α : Type} (cx : Setting) (owner : TypeId) (fieldCount : Nat) (members : Members)
    (position : Nat) (flaw : MemberFlaw) (span : Span) : Check α := do
  match members[position]? with
  | none => throw (.fault .outOfRange)
  | some (_, value) =>
    let memberSpan := (← nodeOf cx value).span
    match flaw with
    | .unknownField name => report (.unknownField (← textOf owner) name) memberSpan
    | .tooMany => report (.arityMismatch (← textOf owner) fieldCount members.length) span
    | .repeated field => report (.duplicateField (← textOf owner) field) memberSpan
    | .mismatch field expected found =>
      report (.memberMismatch field (← textOf expected) (← textOf found)) memberSpan

/-- A literal of a given type. -/
def inferTyped (cx : Setting) (type : TypeExpr) (members : Members) (memberTypes : List TypeId)
    (span : Span) : Check TypeId := do
  let owner ← resolveConcrete type span
  let form ← formOf owner
  let given := (members.map (·.1)).zip memberTypes
  match form.fields?, form.element? with
  | some fields, _ =>
    match structFlaw? fields 0 [] given with
    | none => return owner
    | some (position, flaw) => reportFlaw cx owner fields.length members position flaw span
  | none, some element =>
    match sliceFlaw? element 0 given with
    | none => return owner
    | some (position, flaw) => reportFlaw cx owner 0 members position flaw span
  | none, none => report (.notStruct (← textOf owner)) span

/-- The fields of a record written out: every member has a value. -/
def recordFields (cx : Setting) (position : Nat) :
    Members → List TypeId → Check (List (String × TypeId))
  | (name, value) :: members, type :: types => do
    let name := name.getD ("_" ++ toString position)
    if type = .noValue then report (.noValue name) (← nodeOf cx value).span
    else do
      let fields ← recordFields cx (position + 1) members types
      return (name, type) :: fields
  | _, _ => pure []

/-- A literal has its type, or the record type of its members. -/
def inferLiteral (cx : Setting) (infer : Infer) (type : Option TypeExpr) (members : Members)
    (span : Span) : Check TypeId := do
  let memberTypes ← inferAll infer (members.map (·.2))
  match type with
  | some type => inferTyped cx type members memberTypes span
  | none =>
    let fields ← recordFields cx 0 members memberTypes
    onTable Problem.ofTable span (TypeTable.internRecord fields)

end Check

end RuleTypes
