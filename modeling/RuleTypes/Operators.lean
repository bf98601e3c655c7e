import RuleTypes.TypeTable.Render

/-!
# Operators

An operator is a symbol with a list of signatures. A use of the symbol means the one signature
whose parameters are exactly the argument types; there are no conversions and no ranking.
`Operators` also fixes the types of number and string literals and the type a condition must have.
-/

namespace RuleTypes

/-- Operators on two numbers. -/
def numericBinarySymbols : List String :=
  ["+", "-", "*", "/", "%", ">", "<", "==", "!=", ">=", "<=", "&&", "and", "||", "or"]

/-- Operators on one number. -/
def numericUnarySymbols : List String := ["-", "!", "not"]

namespace TypeTable

/-- The candidates that are functions with exactly the parameters `args`. -/
def matching (t : TypeTable) (args : List TypeId) : List TypeId → Except Fault (List TypeId)
  | [] => .ok []
  | candidate :: candidates => do
    let form ← t.form candidate
    let rest ← t.matching args candidates
    return if form.signature?.map (·.1) = some args then candidate :: rest else rest

/-- The one candidate whose parameters are `args`. -/
def selectExact (t : TypeTable) (symbol : String) (candidates args : List TypeId) :
    Except (Failure OverloadError) TypeId :=
  match t.matching args candidates with
  | .error cause => .error (.fault cause)
  | .ok [candidate] => .ok candidate
  | .ok found =>
    match t.listText args with
    | .error cause => .error (.fault cause)
    | .ok text =>
      if found.isEmpty then .error (.error (.noMatch symbol text))
      else .error (.error (.ambiguous symbol text found.length))

/-- The result type of a signature. -/
def resultOf (t : TypeTable) (signature : TypeId) : Except Fault TypeId := do
  match (← t.form signature).signature? with
  | some (_, result) => return result
  | none => .error (.notFunction signature)

end TypeTable

/-- The built-in types and operators of a rule program. -/
structure Operators where
  /-- The type of number literals. -/
  number : TypeId
  /-- The type of string literals. -/
  string : TypeId
  /-- The type of conditions. -/
  truth : TypeId
  overloads : NameMap (List TypeId)
  deriving Repr, Inhabited

namespace Operators

variable {ε : Type}

/-- No operators over the given types. -/
def bare (number string truth : TypeId) : Operators := ⟨number, string, truth, .empty⟩

/-- Whether a symbol has a signature. -/
def has (ops : Operators) (symbol : String) : Bool := ops.overloads.contains symbol

/-- The signatures of a symbol, in the order they were registered. -/
def candidates (ops : Operators) (symbol : String) : List TypeId :=
  (ops.overloads.get? symbol).getD []

/-- Adds a signature to a symbol, unless the symbol has it. -/
def add (ops : Operators) (symbol : String) (signature : TypeId) : Operators :=
  let known := ops.candidates symbol
  let known := if known.contains signature then known else known ++ [signature]
  { ops with overloads := ops.overloads.insert symbol known }

/-- Adds the signature from `params` to `result` to a symbol. -/
def register (ops : Operators) (symbol : String) (params : List TypeId) (result : TypeId) :
    TableM ε Operators := do
  let signature ← TypeTable.internFunction params result
  return ops.add symbol signature

/-- Registers signatures one after another. -/
def registerAll (ops : Operators) :
    List (String × List TypeId × TypeId) → TableM ε Operators
  | [] => pure ops
  | (symbol, params, result) :: rest => do
    let ops ← ops.register symbol params result
    ops.registerAll rest

/-- The operators of the rule language. Numbers serve as truth values too. -/
def standard : TableM ε Operators := do
  let number ← TypeTable.internPrimitive "f64"
  let string ← TypeTable.internPrimitive "string"
  let binary := numericBinarySymbols.map fun symbol => (symbol, [number, number], number)
  let onStrings := [("+", [string, string], string), ("==", [string, string], number),
    ("!=", [string, string], number)]
  let unary := numericUnarySymbols.map fun symbol => (symbol, [number], number)
  (bare number string number).registerAll (binary ++ onStrings ++ unary)

/-- The primitive types of a list of names. -/
def internPrimitives : List String → TableM ε (List TypeId)
  | [] => pure []
  | name :: names => do
    let id ← TypeTable.internPrimitive name
    let ids ← internPrimitives names
    return id :: ids

/-- Signatures over primitive types. -/
def internSignatures :
    List (String × List String × String) → TableM ε (List (String × List TypeId × TypeId))
  | [] => pure []
  | (symbol, params, result) :: rest => do
    let params ← internPrimitives params
    let result ← TypeTable.internPrimitive result
    let rest ← internSignatures rest
    return (symbol, params, result) :: rest

/-- Operators over primitive types, all of which are added before the first signature. -/
def ofPrimitives (number string truth : String)
    (signatures : List (String × List String × String)) : TableM ε Operators := do
  let number ← TypeTable.internPrimitive number
  let string ← TypeTable.internPrimitive string
  let truth ← TypeTable.internPrimitive truth
  let signatures ← internSignatures signatures
  (bare number string truth).registerAll signatures

/-- The signature of `symbol` that takes exactly `args`. -/
def select (ops : Operators) (t : TypeTable) (symbol : String) (args : List TypeId) :
    Except (Failure OverloadError) TypeId :=
  t.selectExact symbol (ops.candidates symbol) args

/-- The type of `symbol` applied to `args`. -/
def apply (ops : Operators) (t : TypeTable) (symbol : String) (args : List TypeId) :
    Except (Failure OverloadError) TypeId := do
  let signature ← ops.select t symbol args
  (t.resultOf signature).mapError .fault

end Operators

end RuleTypes
