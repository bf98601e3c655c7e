import RuleTypes.Check.Layout

/-!
# Registering definitions

Before any body is looked at, the structs of a program are reserved, filled and checked for a
layout, and the signatures of its functions are bound. So definitions may refer to each other in
any order.
-/

namespace RuleTypes.Check

/-! ## Structs -/

/-- The definition of a struct: its node, where it stands, and what it says. -/
structure StructDef where
  node : NodeId
  span : Span
  name : String
  fields : List (String × TypeExpr)
  deriving DecidableEq, Repr, Inhabited

/-- Reserves a struct under its name, which must be new. -/
def declareStruct (d : StructDef) : Check Unit := do
  require (!isReserved d.name) (pure (.reservedName d.name)) d.span
  let s ← get
  require (!s.names.contains d.name && (s.table.primitive? d.name).isNone)
    (pure (.redefinition d.name)) d.span
  let id ← onTable Problem.ofTable d.span (TypeTable.reserve d.name)
  modify fun s => { s with names := s.names.insert d.name id }
  annotate d.node id

/-- The id a struct was reserved under. -/
def reservedId (d : StructDef) : Check TypeId := inspect fun s =>
  match s.annotations.get? d.node with
  | some id => .ok id
  | none => .error (.unprepared d.node)

/-- Unbinds the name of a struct that failed. -/
def forget (name : String) (id : TypeId) (s : State) : State :=
  if s.names.get? name = some id then { s with names := s.names.erase name } else s

/-- Runs a step on a struct; if it ends in a finding, the struct can no longer be named. -/
def orForget (name : String) (id : TypeId) (step : Check Unit) : Check Unit := fun s =>
  match step s with
  | .error (.error finding) s => .error (.error finding) (forget name id s)
  | result => result

/-- The fields of a struct with their types. -/
def resolveFields (span : Span) :
    List (String × TypeExpr) → Check (List (String × TypeId))
  | [] => pure []
  | (name, type) :: fields => do
    let type ← resolveConcrete type span
    let fields ← resolveFields span fields
    return (name, type) :: fields

/-- Fills a reserved struct with its fields. -/
def fillStruct (d : StructDef) : Check Unit := do
  let id ← reservedId d
  orForget d.name id do
    let fields ← resolveFields d.span d.fields
    onTable Problem.ofTable d.span (TypeTable.fill id fields)

/-- Requires a finite layout of a struct and of everything it mentions. -/
def checkLayout (d : StructDef) : Check Unit := do
  let id ← reservedId d
  orForget d.name id do
    let recursive ← inspect fun s => s.table.containsItself id
    require (!recursive) (pure (.recursiveStruct d.name)) d.span
    match ← inspect fun s => s.table.firstBroken? s.names id with
    | none => pure ()
    | some name => report (.unknownType name) d.span

/-! ## Functions -/

/-- The definition of a function up to its body. A function defined elsewhere has no kind. -/
structure FunctionDef where
  node : NodeId
  span : Span
  name : String
  kind : Option FunctionKind
  params : List (String × TypeExpr)
  result : Option TypeExpr
  deriving DecidableEq, Repr, Inhabited

/-- The types of parameters. -/
def resolveParams (span : Span) : List (String × TypeExpr) → Check (List TypeId)
  | [] => pure []
  | (_, type) :: params => do
    let type ← resolveConcrete type span
    let types ← resolveParams span params
    return type :: types

/-- The type of a function. -/
def signatureOf (d : FunctionDef) : Check TypeId := do
  let params ← resolveParams d.span d.params
  let result ← match d.result with
    | some result => resolveConcrete result d.span
    | none => pure .noValue
  onTable Problem.ofTable d.span (TypeTable.internFunction params result)

/-- Adds an operator. It takes one or two operands, and no two operators of one symbol have the
same signature. -/
def registerOperator (cx : Setting) (symbol : String) (arity : Nat) (signature : TypeId)
    (span : Span) : Check Unit := do
  require cx.config.userOperators (pure (.userOperator symbol)) span
  require (1 ≤ arity ∧ arity ≤ 2) (pure (.operatorArity symbol arity)) span
  let own := ((← get).operators.get? symbol).getD []
  require (!(cx.builtin.candidates symbol).contains signature && !own.contains signature)
    (pure (.redefinition symbol)) span
  modify fun s => { s with operators := s.operators.insert symbol (own ++ [signature]) }

/-- Adds a member function. It has a receiver, and no two of one name take the same parameters. -/
def registerMember (name : String) (arity : Nat) (signature : TypeId) (span : Span) :
    Check Unit := do
  require (arity ≠ 0) (pure (.missingReceiver name)) span
  let own := ((← get).members.get? name).getD []
  let params := fun form : Form => form.signature?.map (·.1)
  let form ← formOf signature
  let others ← inspect fun s => own.mapM s.table.form
  require (others.all fun other => params other ≠ params form) (pure (.redefinition name)) span
  modify fun s => { s with members := s.members.insert name (own ++ [signature]) }

/-- Binds the signature of a function under its name. -/
def registerFunction (cx : Setting) (d : FunctionDef) : Check Unit := do
  let signature ← signatureOf d
  match d.kind with
  | some .symbolic => registerOperator cx d.name d.params.length signature d.span
  | some .normal => bindName d.name signature .function d.span
  | some .member => registerMember d.name d.params.length signature d.span
  | none => bindName d.name signature .foreign d.span
  annotate d.node signature

end RuleTypes.Check
