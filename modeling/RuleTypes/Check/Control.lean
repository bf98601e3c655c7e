import RuleTypes.Check.Expression

/-!
# Blocks, branches, loops and jumps

A block has the type of its last statement, unless that is a definition or a jump. The arms of a
branch have one type; without an `else` there is no value. A loop has no value, and what its head
defines is known inside it only. A `return` fits the function around it, and `break` and `continue`
need a loop around them in the same function.
-/

namespace RuleTypes.Check

/-- Infers statements in order; the last one decides, `last` if there is none. -/
def inferStatements (cx : Setting) (infer : Infer) (last : TypeId) :
    List NodeId → Check TypeId
  | [] => pure last
  | id :: ids => do
    let type ← infer id
    let kind := (← nodeOf cx id).kind
    inferStatements cx infer (if kind.isDefinition || kind.isJump then .noValue else type) ids

/-- A block, with a frame of its own. -/
def inferBlock (cx : Setting) (infer : Infer) (statements : List NodeId) : Check TypeId := do
  openFrame .block
  let type ← inferStatements cx infer .noValue statements
  closeFrame
  return type

/-- Infers a condition, which must be one. -/
def inferCondition (cx : Setting) (infer : Infer) (condition : NodeId) : Check Unit := do
  let type ← infer condition
  requireTruth cx type (← nodeOf cx condition).span

/-- A branch. -/
def inferBranch (cx : Setting) (infer : Infer) (condition thenArm : NodeId)
    (elseArm : Option NodeId) (span : Span) : Check TypeId := do
  inferCondition cx infer condition
  let thenType ← infer thenArm
  match elseArm with
  | none => return .noValue
  | some elseArm =>
    let elseType ← infer elseArm
    require (thenType = elseType)
      (do return .branchMismatch (← textOf thenType) (← textOf elseType)) span
    return thenType

/-- Infers a part that may be missing. -/
def inferOptional (infer : Infer) : Option NodeId → Check TypeId
  | none => pure .noValue
  | some id => infer id

/-- A loop, with a frame of its own. -/
def inferLoop (cx : Setting) (infer : Infer) (start : Option NodeId) (condition body : NodeId) :
    Check TypeId := do
  openFrame .loop
  let _ ← inferOptional infer start
  inferCondition cx infer condition
  let _ ← infer body
  closeFrame
  return .noValue

/-- A jump. Its value, if any, is looked at after its place. -/
def inferJump (infer : Infer) (kind : Jump) (value : Option NodeId) (span : Span) :
    Check TypeId := do
  match kind with
  | .toCaller =>
    match (← get).scope.enclosingResult? with
    | none => report (.misplacedJump kind.keyword) span
    | some expected =>
      let found ← inferOptional infer value
      require (found = expected)
        (do return .resultMismatch (← textOf expected) (← textOf found)) span
      return .noValue
  | .afterLoop | .nextRound =>
    require (← get).scope.inLoop (pure (.misplacedJump kind.keyword)) span
    let _ ← inferOptional infer value
    return .noValue

end RuleTypes.Check
