import RuleTypes.Check.Body
import RuleTypes.Check.Registration

/-!
# Checking a program

A program is checked in passes over its top-level items: reserve the structs, fill them, check
their layouts until no more of them fail, register the functions, and then look at every item in
order. The first finding in an item ends its check and discards the types found on the way; the
other items are checked all the same. The report lists the findings by the place of their items.
-/

namespace RuleTypes

/-- What the check of a program found. -/
structure Report where
  annotations : Annotations
  /-- The functions without a finding, in order. -/
  functions : List CheckedFunction
  /-- The types of the global names. -/
  globals : NameMap TypeId
  /-- The declared structs that can be named. -/
  names : Names
  findings : List Finding
  deriving Repr, Inhabited

namespace Report

/-- Whether nothing was found to be wrong. -/
def isOk (r : Report) : Bool := r.findings.isEmpty

/-- The first checked function of a name. -/
def function? (r : Report) (name : String) : Option CheckedFunction :=
  r.functions.find? fun f => f.name == name

end Report

namespace Check

/-- A top-level item: its place among the items, its node and what is there. -/
structure Item where
  position : Nat
  id : NodeId
  node : Node
  deriving DecidableEq, Repr, Inhabited

/-- The top-level items of a program, all of which have to exist. -/
def itemsFrom (arena : Arena) (position : Nat) : List NodeId → Except Fault (List Item)
  | [] => .ok []
  | id :: ids => do
    match arena.node? id with
    | none => .error .outOfRange
    | some node => return ⟨position, id, node⟩ :: (← itemsFrom arena (position + 1) ids)

/-- The struct that an item defines. -/
def Item.structDef? (item : Item) : Option (Nat × StructDef) :=
  match item.node.kind with
  | .struct name fields => some (item.position, ⟨item.id, item.node.span, name, fields⟩)
  | _ => none

/-- The function that an item defines, here or elsewhere. -/
def Item.functionDef? (item : Item) : Option (Nat × FunctionDef) :=
  match item.node.kind with
  | .function name kind params result _ =>
    some (item.position, ⟨item.id, item.node.span, name, some kind, params, result⟩)
  | .foreign name params result =>
    some (item.position, ⟨item.id, item.node.span, name, none, params, result⟩)
  | _ => none

/-- How far a check has come. -/
structure Progress where
  state : State
  /-- The items that could not be registered. -/
  failed : List NodeId
  /-- The findings and the places of their items, in the order they were made. -/
  findings : List (Nat × Finding)
  functions : List CheckedFunction
  deriving Repr, Inhabited

/-- Runs a step on one item. If it ends in a finding, the types it found are discarded and its
frames are closed. -/
def attempt {α : Type} (step : Check α) (s : State) :
    Except Fault (Except Finding α × State) :=
  match step s with
  | .ok a s' => .ok (.ok a, s')
  | .error (.fault cause) _ => .error cause
  | .error (.error finding) s' => do
    let annotations ← s'.annotations.rollback s.annotations.mark
    return (.error finding, { s' with annotations, scope := s'.scope.unwind })

/-- Runs a registration step on one item. -/
def Progress.register (p : Progress) (position : Nat) (id : NodeId) (step : Check Unit) :
    Except Fault Progress := do
  match ← attempt step p.state with
  | (.ok (), state) => return { p with state }
  | (.error finding, state) =>
    return { p with
      state
      failed := id :: p.failed
      findings := p.findings ++ [(position, finding)] }

/-- Runs a step on every struct definition that has not failed. -/
def Progress.registerStructs (step : StructDef → Check Unit) (p : Progress) :
    List (Nat × StructDef) → Except Fault Progress
  | [] => .ok p
  | (position, d) :: defs => do
    let p ← if p.failed.contains d.node then pure p else p.register position d.node (step d)
    p.registerStructs step defs

/-- Checks layouts again and again until no more structs fail, at most `rounds` times. -/
def Progress.checkLayouts (defs : List (Nat × StructDef)) (p : Progress) :
    Nat → Except Fault Progress
  | 0 => .ok p
  | rounds + 1 => do
    let p' ← p.registerStructs checkLayout defs
    if p'.failed.length = p.failed.length then return p' else p'.checkLayouts defs rounds

/-- Reserves every struct, whatever happened to the ones before. -/
def Progress.declareStructs (p : Progress) : List (Nat × StructDef) → Except Fault Progress
  | [] => .ok p
  | (position, d) :: defs => do
    let p ← p.register position d.node (declareStruct d)
    p.declareStructs defs

/-- Registers every function. -/
def Progress.registerFunctions (cx : Setting) (p : Progress) :
    List (Nat × FunctionDef) → Except Fault Progress
  | [] => .ok p
  | (position, d) :: defs => do
    let p ← p.register position d.node (registerFunction cx d)
    p.registerFunctions cx defs

/-- Checks one item. Structs and functions defined elsewhere are done when they are registered. -/
def checkItem (cx : Setting) (item : Item) : Check (Option CheckedFunction) := do
  match item.node.kind with
  | .struct .. | .foreign .. => return none
  | .function name kind params _ body =>
    return some (← checkFunction cx item.id item.node.span name kind params body)
  | .var .. =>
    let _ ← infer cx item.id
    return none
  | _ =>
    require cx.config.topLevelExpressions (pure .topLevelExpression) item.node.span
    let _ ← infer cx item.id
    return none

/-- Checks every item that was registered. -/
def Progress.checkItems (cx : Setting) (p : Progress) : List Item → Except Fault Progress
  | [] => .ok p
  | item :: items => do
    if p.failed.contains item.id then p.checkItems cx items
    else
      match ← attempt (checkItem cx item) p.state with
      | (.ok function?, state) =>
        let p := { p with state, functions := p.functions ++ function?.toList }
        p.checkItems cx items
      | (.error finding, state) =>
        let p := { p with state, findings := p.findings ++ [(item.position, finding)] }
        p.checkItems cx items

/-- The report of a finished check. Findings are ordered by the place of their item, and those of
one item as they were made. -/
def Progress.report (p : Progress) : Report where
  annotations := p.state.annotations
  functions := p.functions
  globals := p.state.scope.globals.map (·.type)
  names := p.state.names
  findings := (p.findings.mergeSort fun a b => decide (a.1 ≤ b.1)).map (·.2)

/-- Runs all passes. -/
def run (cx : Setting) (items : List NodeId) (table : TypeTable) : Except Fault Progress := do
  let items ← itemsFrom cx.arena 0 items
  let structs := items.filterMap Item.structDef?
  let functions := items.filterMap Item.functionDef?
  let p : Progress := ⟨State.start table cx.arena.size, [], [], []⟩
  let p ← p.declareStructs structs
  let p ← p.registerStructs fillStruct structs
  let p ← p.checkLayouts structs (structs.length + 1)
  let p ← p.registerFunctions cx functions
  p.checkItems cx items

end Check

/-- Checks a program against a table. The types it needed stay in the table. -/
def Program.check (program : Program) (builtin : Operators) (config : Config)
    (table : TypeTable) : Except Fault (Report × TypeTable) := do
  let p ← Check.run ⟨program.arena, builtin, config⟩ program.items table
  return (p.report, p.state.table)

end RuleTypes
