import RuleTypes.Check.Inference

/-!
# Bodies of functions

The body of a function with a result either has a value of the result type or returns on every
path. A checked function gets a symbol for linking, its name and the fingerprint of its signature.
-/

namespace RuleTypes

/-- A function whose body was checked without a finding. -/
structure CheckedFunction where
  name : String
  kind : FunctionKind
  signature : TypeId
  /-- The name under which the function is linked. -/
  symbol : String
  node : NodeId
  deriving DecidableEq, Repr, Inhabited

/-- Whether every path through a node ends in a `return`, looking at most `depth` references
down. -/
def Arena.returnsAt (arena : Arena) : Nat → NodeId → Except Fault Bool
  | 0, _ => .error .endless
  | depth + 1, id =>
    match arena.node? id with
    | none => .error .outOfRange
    | some node =>
      match node.kind with
      | .jump .toCaller _ => .ok true
      | .block statements =>
        match statements.getLast? with
        | some last => arena.returnsAt depth last
        | none => .ok false
      | .branch _ thenArm (some elseArm) => do
        let thenReturns ← arena.returnsAt depth thenArm
        if thenReturns then arena.returnsAt depth elseArm else return false
      | _ => .ok false

/-- Whether every path through a node ends in a `return`. -/
def Arena.returns (arena : Arena) (id : NodeId) : Except Fault Bool :=
  arena.returnsAt (arena.size + 1) id

namespace Check

/-- Binds parameters to their types. -/
def bindParams (span : Span) : List (String × TypeExpr) → List TypeId → Check Unit
  | (name, _) :: params, type :: types => do
    bindName name type .parameter span
    bindParams span params types
  | _, _ => pure ()

/-- Checks the body of a registered function. -/
def checkFunction (cx : Setting) (id : NodeId) (span : Span) (name : String)
    (kind : FunctionKind) (params : List (String × TypeExpr)) (body : NodeId) :
    Check CheckedFunction := do
  let signature ← inspect fun s =>
    match s.annotations.get? id with
    | some signature => .ok signature
    | none => .error (.unprepared id)
  match (← formOf signature).signature? with
  | none => throw (.fault (.notFunction signature))
  | some (paramTypes, result) =>
    openFrame (.function result)
    bindParams span params paramTypes
    let found ← infer cx body
    let returns ← inspect fun _ =>
      if found = .noValue then cx.arena.returns body else .ok false
    require (found = result ∨ (found = .noValue ∧ returns))
      (do return .resultMismatch (← textOf result) (← textOf found)) (← nodeOf cx body).span
    closeFrame
    let fingerprint ← inspect fun s => s.table.fingerprint signature
    return ⟨name, kind, signature, name ++ "@" ++ fingerprint.text, id⟩

end Check

end RuleTypes
