import RuleTypes.Check.Report

/-!
# Sessions

A session checks programs one after another against one table, so that a type has the same id in
all of them.
-/

namespace RuleTypes

/-- A table with operators registered in it, and the choices programs are checked under. -/
structure Session where
  table : TypeTable
  builtin : Operators
  config : Config
  deriving Repr, Inhabited

namespace Session

/-- The session that an operation on a fresh table gives its operators. -/
def build (generics : Generics) (config : Config) (operators : TableM Empty Operators) :
    Except Fault Session :=
  match operators (TypeTable.new generics) with
  | .ok builtin table => .ok ⟨table, builtin, config⟩
  | .error (.fault cause) _ => .error cause

/-- A session with the operators of the rule language. -/
def standard (generics : Generics) (config : Config) : Except Fault Session :=
  build generics config Operators.standard

/-- Checks a program. -/
def check (s : Session) (program : Program) : Except Fault (Report × Session) := do
  let (report, table) ← program.check s.builtin s.config s.table
  return (report, { s with table })

/-- Loads a type from its text, with `names` for the declared structs. -/
def loadType (s : Session) (names : Names) (text : String) :
    Except (Failure LoadError) TypeId × Session :=
  match TypeExpr.load names text s.table with
  | .ok id table => (.ok id, { s with table })
  | .error cause table => (.error cause, { s with table })

end Session

end RuleTypes
