import RuleTypes.TypeExpr.Parser
import RuleTypes.TypeTable.Render

/-!
# From written types to ids

A written type is looked up from the inside out and from left to right; whatever is not yet in
the table is added on the way, and stays even if a later part fails. A name means the declared
struct of that name, or else the primitive type.
-/

namespace RuleTypes

/-- The declared types in scope. -/
abbrev Names : Type := NameMap TypeId

namespace TypeExpr

/-- The type a name means. -/
def resolveName (names : Names) (name : String) : TableM LoadError TypeId := fun t =>
  match (names.get? name).or (t.primitive? name) with
  | some id => .ok id t
  | none => .error (.error (.unknownType name)) t

mutual

/-- The id of a type that has to be known in full. -/
def resolveConcrete (names : Names) : TypeExpr → TableM LoadError TypeId
  | auto => throw (.error .misplacedAuto)
  | named name => resolveName names name
  | pointer base => do
    let base ← base.resolveConcrete names
    TypeTable.internPointer base
  | slice element => do
    let element ← element.resolveConcrete names
    TypeTable.internSlice element
  | generic name args => do
    let args ← resolveAll names args
    (TypeTable.internGeneric name args).mapError .table
  | function params none => do
    let params ← resolveAll names params
    TypeTable.internFunction params .noValue
  | function params (some result) => do
    let params ← resolveAll names params
    let result ← result.resolveConcrete names
    TypeTable.internFunction params result
  | record fields => do
    let fields ← resolveFields names fields
    (TypeTable.internRecord fields).mapError .table

/-- The ids of a list of types. -/
def resolveAll (names : Names) : List TypeExpr → TableM LoadError (List TypeId)
  | [] => pure []
  | e :: es => do
    let id ← e.resolveConcrete names
    let ids ← resolveAll names es
    return id :: ids

/-- Fields with the ids of their types. -/
def resolveFields (names : Names) :
    List (String × TypeExpr) → TableM LoadError (List (String × TypeId))
  | [] => pure []
  | (name, e) :: fields => do
    let id ← e.resolveConcrete names
    let fields ← resolveFields names fields
    return (name, id) :: fields

end

/-- The id of a declaration's type, which may be the one of its initializer. -/
def resolve (names : Names) (e : TypeExpr) : TableM LoadError TypeId :=
  if e.isAuto then pure .auto else e.resolveConcrete names

/-- The id of a type given by its text. -/
def load (names : Names) (text : String) : TableM LoadError TypeId :=
  match parse text with
  | .ok e => e.resolve names
  | .error e => throw (.error (.malformed e.complaint.text e.offset))

end TypeExpr

end RuleTypes
