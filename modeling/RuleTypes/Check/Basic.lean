import RuleTypes.Annotations
import RuleTypes.Finding
import RuleTypes.Operators
import RuleTypes.Program
import RuleTypes.Resolve
import RuleTypes.Scope
import RuleTypes.TypeTable.Declared

/-!
# The state of a check

Checking walks over rule code and writes down the type of every node. This module holds what all
its rules share: the setting, which does not change during a check; the state, which does; and the
operations on the state that can end in a finding or a fault.
-/

namespace RuleTypes

/-- The choices a program is checked under. -/
structure Config where
  /-- Expressions may stand outside any definition. -/
  topLevelExpressions : Bool
  /-- Functions may overload operators. -/
  userOperators : Bool
  deriving DecidableEq, Repr, Inhabited

/-- Everything is allowed. -/
def Config.permissive : Config := ⟨true, true⟩

/-- Only definitions are allowed, and no operators among them. -/
def Config.strict : Config := ⟨false, false⟩

namespace Check

/-- What does not change while a program is checked. -/
structure Setting where
  arena : Arena
  builtin : Operators
  config : Config
  deriving Repr, Inhabited

/-- What changes while a program is checked. -/
structure State where
  table : TypeTable
  scope : Scope
  /-- The declared structs that can be named. -/
  names : Names
  /-- Signatures of the operators the program defines. -/
  operators : NameMap (List TypeId)
  /-- Signatures of the functions called on a value, which is their first parameter. -/
  members : NameMap (List TypeId)
  annotations : Annotations
  deriving Repr, Inhabited

/-- The state in which the check of an arena of `n` nodes begins. -/
def State.start (table : TypeTable) (n : Nat) : State :=
  ⟨table, .new, .empty, .empty, .empty, .blank n⟩

end Check

/-- A step of a check. What it did to the state before it failed stays. -/
abbrev Check : Type → Type := EStateM (Failure Finding) Check.State

namespace Check

variable {α ε : Type}

/-! ## Ending a step -/

/-- Ends the step with a finding. -/
def report (problem : Problem) (span : Span) : Check α := throw (.error ⟨problem, span⟩)

/-- Ends the step with a finding unless the condition holds. The problem is put into words only
when it is needed. -/
def require (holds : Bool) (problem : Check Problem) (span : Span) : Check Unit :=
  if holds then pure () else do report (← problem) span

/-- A reading of the state, which can meet a fault. -/
def inspect (f : State → Except Fault α) : Check α := fun s =>
  match f s with
  | .ok a => .ok a s
  | .error cause => .error (.fault cause) s

/-- A change of the state, which can meet a fault. -/
def update (f : State → Except Fault State) : Check Unit := fun s =>
  match f s with
  | .ok s' => .ok () s'
  | .error cause => .error (.fault cause) s

/-! ## The table -/

/-- An operation on the table; its errors are problems at `span`. -/
def onTable (problemOf : ε → Except Fault Problem) (span : Span) (x : TableM ε α) : Check α :=
  fun s =>
    match x s.table with
    | .ok a table => .ok a { s with table }
    | .error (.fault cause) table => .error (.fault cause) { s with table }
    | .error (.error cause) table =>
      match problemOf cause with
      | .ok problem => .error (.error ⟨problem, span⟩) { s with table }
      | .error cause => .error (.fault cause) { s with table }

/-- The form of a type. -/
def formOf (id : TypeId) : Check Form := inspect fun s => s.table.form id

/-- The text of a type. -/
def textOf (id : TypeId) : Check String := inspect fun s => s.table.text id

/-- The result of a signature. -/
def resultOf (signature : TypeId) : Check TypeId := inspect fun s => s.table.resultOf signature

/-- The type of a declaration, which may be that of its initializer. -/
def resolve (type : TypeExpr) (span : Span) : Check TypeId := fun s =>
  onTable Problem.ofLoad span (type.resolve s.names) s

/-- A written type that has to be known in full. -/
def resolveConcrete (type : TypeExpr) (span : Span) : Check TypeId := fun s =>
  onTable Problem.ofLoad span (type.resolveConcrete s.names) s

/-- The candidate with exactly the parameters `args`. -/
def select (symbol : String) (candidates args : List TypeId) (span : Span) : Check TypeId :=
  fun s =>
    match s.table.selectExact symbol candidates args with
    | .ok signature => .ok signature s
    | .error (.fault cause) => .error (.fault cause) s
    | .error (.error cause) => .error (.error ⟨Problem.ofOverload cause, span⟩) s

/-! ## Nodes and annotations -/

/-- A node that has to exist. -/
def nodeOf (cx : Setting) (id : NodeId) : Check Node := inspect fun _ =>
  match cx.arena.node? id with
  | some node => .ok node
  | none => .error .outOfRange

/-- Gives a node its type. -/
def annotate (node : NodeId) (type : TypeId) : Check Unit := update fun s => do
  return { s with annotations := ← s.annotations.set node type }

/-- Marks a node whose type is that of its initializer. -/
def annotateProvisional (node : NodeId) : Check Unit := update fun s => do
  return { s with annotations := ← s.annotations.setProvisional node }

/-! ## The scope -/

/-- Opens a frame. -/
def openFrame (kind : FrameKind) : Check Unit := update fun s => do
  return { s with scope := ← s.scope.push kind }

/-- Closes the innermost frame. -/
def closeFrame : Check Unit := update fun s => do
  return { s with scope := ← s.scope.pop }

/-- The innermost binding of a name. -/
def lookup (name : String) : Check (Option Binding) := do return (← get).scope.lookup name

/-- Binds a name in the innermost frame, where it must be new. -/
def bindName (name : String) (type : TypeId) (kind : BindingKind) (span : Span) : Check Unit :=
  fun s =>
    match s.scope.bind name ⟨type, kind, span⟩ with
    | .ok scope => .ok () { s with scope }
    | .error _ => .error (.error ⟨.redefinition name, span⟩) s

/-! ## Conditions -/

/-- Requires the type of a condition. -/
def requireTruth (cx : Setting) (found : TypeId) (span : Span) : Check Unit :=
  require (found = cx.builtin.truth)
    (do return .conditionMismatch (← textOf cx.builtin.truth) (← textOf found)) span

end Check

end RuleTypes
