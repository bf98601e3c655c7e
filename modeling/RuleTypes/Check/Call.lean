import RuleTypes.Check.Expression

/-!
# Calls and operators

An operator is a call of its symbol: the built-in signatures and the program's own are candidates,
and exactly one of them has to take the operands. `value.name(args)` calls a member function if the
program has one of that name; a field of the same name would make the call ambiguous and is
refused. Any other call is of a value whose type is a function.
-/

namespace RuleTypes.Check

/-- Whether a symbol has a signature, built in or the program's own. -/
def isOperator (cx : Setting) (symbol : String) : Check Bool := do
  return cx.builtin.has symbol || (← get).operators.contains symbol

/-- The signature of a symbol that takes `args`. -/
def selectOperator (cx : Setting) (symbol : String) (args : List TypeId) (span : Span) :
    Check TypeId := do
  let own := ((← get).operators.get? symbol).getD []
  select symbol (cx.builtin.candidates symbol ++ own) args span

/-- The signature of a member function that takes the value and `args`. -/
def selectMember (infer : Infer) (base : NodeId) (name : String) (args : List TypeId)
    (span : Span) : Check TypeId := do
  let receiver ← infer base
  match ← inspect fun s => s.table.structOf receiver with
  | some (owner, fields) =>
    require (fields.lookup name).isNone (do return .redefinition ((← textOf owner) ++ "." ++ name))
      span
  | none => pure ()
  let candidates := ((← get).members.get? name).getD []
  select name candidates (receiver :: args) span

/-- The first argument that has not the type of its parameter: its place, and both types. -/
def argumentFlaw? (i : Nat) : List TypeId → List TypeId → Option (Nat × TypeId × TypeId)
  | param :: params, arg :: args =>
    if param = arg then argumentFlaw? (i + 1) params args else some (i, param, arg)
  | _, _ => none

/-- The result of a call of a value. -/
def applyValue (cx : Setting) (calleeType : TypeId) (callee : NodeId) (args : List NodeId)
    (argTypes : List TypeId) : Check TypeId := do
  let node ← nodeOf cx callee
  match (← formOf calleeType).signature? with
  | none => report (.notCallable (← textOf calleeType)) node.span
  | some (params, result) =>
    require (params.length = argTypes.length)
      (do
        let name ← match node.kind with
          | .identifier name => pure name
          | _ => textOf calleeType
        return .arityMismatch name params.length argTypes.length) node.span
    match argumentFlaw? 0 params argTypes with
    | none => return result
    | some (i, expected, found) =>
      let problem := .argumentMismatch i (← textOf expected) (← textOf found)
      match args[i]? with
      | some arg => report problem (← nodeOf cx arg).span
      | none => throw (.fault .outOfRange)

/-- How a call finds its function. -/
inductive Callee
  | operator (symbol : String)
  | member (base : NodeId) (name : String)
  | value

/-- How the call of a node finds its function: an unbound symbol is an operator, a member whose
name the program defines is a member function, and all else is a value. -/
def calleeOf (cx : Setting) (kind : NodeKind) : Check Callee := do
  match kind with
  | .identifier name =>
    if (← lookup name).isNone && (← isOperator cx name) then return .operator name
    else return .value
  | .member base field =>
    if (← get).members.contains field then return .member base field else return .value
  | _ => return .value

/-- A call has the result type of its function. -/
def inferCall (cx : Setting) (infer : Infer) (callee : NodeId) (args : List NodeId) :
    Check TypeId := do
  let argTypes ← inferAll infer args
  let node ← nodeOf cx callee
  match ← calleeOf cx node.kind with
  | .operator symbol =>
    let signature ← selectOperator cx symbol argTypes node.span
    annotate callee signature
    resultOf signature
  | .member base name =>
    let signature ← selectMember infer base name argTypes node.span
    annotate callee signature
    resultOf signature
  | .value =>
    let calleeType ← infer callee
    applyValue cx calleeType callee args argTypes

/-- An operator on two operands. -/
def inferBinary (cx : Setting) (infer : Infer) (symbol : String) (left right : NodeId)
    (span : Span) : Check TypeId := do
  let leftType ← infer left
  let rightType ← infer right
  let signature ← selectOperator cx symbol [leftType, rightType] span
  resultOf signature

/-- An operator on one operand. `&` takes the address of a value, `*` follows a pointer. -/
def inferUnary (cx : Setting) (infer : Infer) (symbol : String) (operand : NodeId) (span : Span) :
    Check TypeId := do
  let type ← infer operand
  if symbol = "&" then
    require (type ≠ .noValue) (do return .noMatchingOverload symbol (← textOf type)) span
    onTable Problem.ofTable span (TypeTable.internPointer type)
  else if symbol = "*" then
    match (← formOf type).base? with
    | some base => return base
    | none => report (.notPointer (← textOf type)) span
  else
    let signature ← selectOperator cx symbol [type] span
    resultOf signature

end RuleTypes.Check
