import RuleTypes.Check.Call
import RuleTypes.Check.Control
import RuleTypes.Check.Literal

/-!
# The type of a node

`infer` looks at the parts of a node first, then applies the rule of its kind, and writes the type
down. References in an arena need not form a tree, so the descent is bounded: a node that lies
below itself is either met with its slot already written, at the latest the second time, or leads
nowhere.
-/

namespace RuleTypes.Check

/-- A variable has its declared type, or that of its initializer. Its name is bound after the
initializer, which therefore cannot use it. -/
def inferVariable (infer : Infer) (id : NodeId) (name : String) (type : TypeExpr)
    (start : NodeId) (span : Span) : Check TypeId := do
  let declared ← resolve type span
  if declared = .auto then annotateProvisional id
  let found ← infer start
  require (found ≠ .noValue) (pure (.noValue name)) span
  require (declared = .auto ∨ found = declared)
    (do return .declarationMismatch name (← textOf declared) (← textOf found)) span
  let type := if declared = .auto then found else declared
  bindName name type .var span
  return type

/-- The rule for a node, given the inference of its parts. -/
def inferNode (cx : Setting) (infer : Infer) (id : NodeId) (node : Node) : Check TypeId :=
  match node.kind with
  | .identifier name => inferIdentifier name node.span
  | .number => pure cx.builtin.number
  | .string => pure cx.builtin.string
  | .member base field => inferMember infer base field node.span
  | .index base position => inferIndex cx infer base position
  | .call callee args => inferCall cx infer callee args
  | .binary symbol left right => inferBinary cx infer symbol left right node.span
  | .unary symbol operand => inferUnary cx infer symbol operand node.span
  | .assign target value => inferAssign cx infer target value node.span
  | .literal type members => inferLiteral cx infer type members node.span
  | .branch condition thenArm elseArm =>
    inferBranch cx infer condition thenArm elseArm node.span
  | .loop start condition body => inferLoop cx infer start condition body
  | .block statements => inferBlock cx infer statements
  | .jump kind value => inferJump infer kind value node.span
  | .var name type start => inferVariable infer id name type start node.span
  | .function .. => report (.misplacedDefinition "function") node.span
  | .foreign .. => report (.misplacedDefinition "extern") node.span
  | .struct .. => report (.misplacedDefinition "type") node.span

/-- Infers a node, going at most `depth` references down. -/
def inferAt (cx : Setting) : Nat → Infer
  | 0, _ => throw (.fault .endless)
  | depth + 1, id => do
    let node ← nodeOf cx id
    let type ← inferNode cx (inferAt cx depth) id node
    annotate id type
    return type

/-- How far below a node there can be something to look at: each node at most twice. -/
def Setting.depth (cx : Setting) : Nat := 2 * cx.arena.size + 2

/-- Infers the type of a node and of everything below it. -/
def infer (cx : Setting) (id : NodeId) : Check TypeId := inferAt cx cx.depth id

end RuleTypes.Check
