import RuleTypes.NodeId
import RuleTypes.Span
import RuleTypes.TypeExpr.Basic

/-!
# Rule code

Rule code is held in an arena: a list of nodes that refer to their parts by index. A reference may
point anywhere, also nowhere. A program is an arena with the nodes that stand at top level. A
`Draft` builds an arena node by node and remembers the position given last.
-/

namespace RuleTypes

/-- The statements that leave a function or a loop. -/
inductive Jump
  /-- Leaves the function. -/
  | toCaller
  /-- Leaves the loop. -/
  | afterLoop
  /-- Goes to the next round of the loop. -/
  | nextRound
  deriving DecidableEq, Repr, Inhabited

/-- The word that writes the statement. -/
def Jump.keyword : Jump → String
  | toCaller => "return"
  | afterLoop => "break"
  | nextRound => "continue"

/-- How a function is used. -/
inductive FunctionKind
  /-- By its name. -/
  | normal
  /-- As an operator. -/
  | symbolic
  /-- On a value, which is the first parameter. -/
  | member
  deriving DecidableEq, Repr, Inhabited

/-- The kinds of nodes, with their parts. -/
inductive NodeKind
  | identifier (name : String)
  | number
  | string
  | member (base : NodeId) (field : String)
  | index (base position : NodeId)
  | call (callee : NodeId) (args : List NodeId)
  | binary (symbol : String) (left right : NodeId)
  | unary (symbol : String) (operand : NodeId)
  | assign (target value : NodeId)
  /-- A struct or slice written out; members are named or go by position. -/
  | literal (type : Option TypeExpr) (members : List (Option String × NodeId))
  | branch (condition thenArm : NodeId) (elseArm : Option NodeId)
  | loop (start : Option NodeId) (condition body : NodeId)
  | block (statements : List NodeId)
  | jump (kind : Jump) (value : Option NodeId)
  | var (name : String) (type : TypeExpr) (start : NodeId)
  | function (name : String) (kind : FunctionKind) (params : List (String × TypeExpr))
      (result : Option TypeExpr) (body : NodeId)
  /-- A function defined elsewhere. -/
  | foreign (name : String) (params : List (String × TypeExpr)) (result : Option TypeExpr)
  | struct (name : String) (fields : List (String × TypeExpr))
  deriving DecidableEq, Repr, Inhabited

namespace NodeKind

/-- Whether the node defines a name. -/
def isDefinition : NodeKind → Bool
  | var .. | function .. | foreign .. | struct .. => true
  | _ => false

/-- Whether the node leaves a function or a loop. -/
def isJump : NodeKind → Bool
  | jump .. => true
  | _ => false

/-- Whether the node may stand on the left of an assignment. -/
def isPlace : NodeKind → Bool
  | identifier _ | member .. | index .. => true
  | unary symbol _ => symbol = "*"
  | _ => false

/-- The word of a statement that leaves a function or a loop. -/
def keyword? : NodeKind → Option String
  | jump kind _ => some kind.keyword
  | _ => none

/-- The nodes a node refers to, in the order of writing. -/
def children : NodeKind → List NodeId
  | identifier _ | number | string | foreign .. | struct .. => []
  | member base _ => [base]
  | index base position => [base, position]
  | call callee args => callee :: args
  | binary _ left right => [left, right]
  | unary _ operand => [operand]
  | assign target value => [target, value]
  | literal _ members => members.map (·.2)
  | branch condition thenArm elseArm => condition :: thenArm :: elseArm.toList
  | loop start condition body => start.toList ++ [condition, body]
  | block statements => statements
  | jump _ value => value.toList
  | var _ _ start => [start]
  | function _ _ _ _ body => [body]

end NodeKind

/-- A node of rule code. -/
structure Node where
  kind : NodeKind
  span : Span
  deriving DecidableEq, Repr, Inhabited

/-- The nodes of some rule code. -/
structure Arena where
  nodes : Array Node
  deriving DecidableEq, Repr, Inhabited

/-- The number of nodes. -/
def Arena.size (arena : Arena) : Nat := arena.nodes.size

/-- The node of an id. -/
def Arena.node? (arena : Arena) (id : NodeId) : Option Node := arena.nodes[id.index]?

/-- Rule code and its top-level items, in order. -/
structure Program where
  arena : Arena
  items : List NodeId
  deriving DecidableEq, Repr, Inhabited

/-- An arena under construction, and the position the next node takes. -/
structure Draft where
  arena : Arena
  cursor : Span
  deriving Repr, Inhabited

namespace Draft

/-- The empty arena; nodes are synthetic until a position is given. -/
def new : Draft := ⟨⟨#[]⟩, .nowhere⟩

/-- Sets the position of the nodes to come. -/
def moveTo (d : Draft) (line col : Nat) : Draft := { d with cursor := .point line col }

/-- Adds a node at a position of its own. -/
def addAt (d : Draft) (span : Span) (kind : NodeKind) : Draft :=
  { d with arena := ⟨d.arena.nodes.push ⟨kind, span⟩⟩ }

/-- Adds a node at the position given last. -/
def add (d : Draft) (kind : NodeKind) : Draft := d.addAt d.cursor kind

/-- Adds a name and, after it, a call of that name. -/
def addCall (d : Draft) (name : String) (args : List NodeId) : Draft :=
  (d.add (.identifier name)).add (.call ⟨d.arena.size⟩ args)

end Draft

end RuleTypes
