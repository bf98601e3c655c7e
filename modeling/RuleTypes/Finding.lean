import RuleTypes.Failure
import RuleTypes.Span

/-!
# Findings

A finding is a problem of rule code at a place in it. Types are given by their text, so that a
finding can be read without the table it came from. The errors of the table, of type names and of
overloads become problems of the code that caused them.
-/

namespace RuleTypes

/-- What can be wrong with rule code. -/
inductive Problem
  | undefinedSymbol (name : String)
  | unknownType (name : String)
  | notStruct (type : String)
  | unknownField (type field : String)
  | arityMismatch (callee : String) (expected found : Nat)
  /-- Arguments are counted from zero. -/
  | argumentMismatch (index : Nat) (expected found : String)
  | branchMismatch (thenType elseType : String)
  | declarationMismatch (name expected found : String)
  | duplicateField (owner field : String)
  | invalidArity (generic : String) (expected found : Nat)
  | unknownGeneric (name : String)
  | noMatchingOverload (symbol args : String)
  | ambiguousOverload (symbol args : String) (candidates : Nat)
  | notCallable (type : String)
  | notIndexable (type : String)
  | notPointer (type : String)
  | notAssignable
  | assignmentMismatch (target value : String)
  | memberMismatch (field expected found : String)
  | conditionMismatch (expected found : String)
  | resultMismatch (expected found : String)
  | misplacedJump (keyword : String)
  | misplacedDefinition (what : String)
  | misplacedAuto
  | noValue (name : String)
  | redefinition (name : String)
  | operatorArity (symbol : String) (found : Nat)
  | topLevelExpression
  | userOperator (symbol : String)
  | recursiveStruct (name : String)
  | reservedName (name : String)
  | missingReceiver (name : String)
  deriving DecidableEq, Repr, Inhabited

namespace Problem

/-- The wording of a problem. -/
def text : Problem → String
  | undefinedSymbol name => "undefined symbol '" ++ name ++ "'"
  | unknownType name => "unknown type '" ++ name ++ "'"
  | notStruct type => "'" ++ type ++ "' is not a struct"
  | unknownField type field => "'" ++ type ++ "' has no field '" ++ field ++ "'"
  | arityMismatch callee expected found =>
    "'" ++ callee ++ "' expects " ++ toString expected ++ " argument(s), " ++ toString found
      ++ " given"
  | argumentMismatch index expected found =>
    "argument " ++ toString index ++ " expects '" ++ expected ++ "', found '" ++ found ++ "'"
  | branchMismatch thenType elseType =>
    "branch arms differ: '" ++ thenType ++ "' and '" ++ elseType ++ "'"
  | declarationMismatch name expected found =>
    "'" ++ name ++ "' is declared '" ++ expected ++ "' but initialized with '" ++ found ++ "'"
  | duplicateField owner field =>
    "'" ++ owner ++ "' has more than one field named '" ++ field ++ "'"
  | invalidArity generic expected found => (TableError.invalidArity generic expected found).text
  | unknownGeneric name => (TableError.unknownGeneric name).text
  | noMatchingOverload symbol args => (OverloadError.noMatch symbol args).text
  | ambiguousOverload symbol args candidates =>
    (OverloadError.ambiguous symbol args candidates).text
  | notCallable type => "cannot call a value of type '" ++ type ++ "'"
  | notIndexable type => "cannot index a value of type '" ++ type ++ "'"
  | notPointer type => "cannot dereference a value of type '" ++ type ++ "'"
  | notAssignable => "left side of assignment is not assignable"
  | assignmentMismatch target value => "cannot assign '" ++ value ++ "' to '" ++ target ++ "'"
  | memberMismatch field expected found =>
    "field '" ++ field ++ "' expects '" ++ expected ++ "', found '" ++ found ++ "'"
  | conditionMismatch expected found =>
    "condition must be '" ++ expected ++ "', found '" ++ found ++ "'"
  | resultMismatch expected found =>
    "expected return type '" ++ expected ++ "', found '" ++ found ++ "'"
  | misplacedJump keyword => "'" ++ keyword ++ "' is not allowed here"
  | misplacedDefinition what => what ++ " definitions are only allowed at top level"
  | misplacedAuto => "'auto' is not allowed here"
  | noValue name => "initializer of '" ++ name ++ "' produces no value"
  | redefinition name => "'" ++ name ++ "' is already defined"
  | operatorArity symbol found =>
    "operator '" ++ symbol ++ "' cannot take " ++ toString found ++ " parameter(s)"
  | topLevelExpression => "top-level expressions are disabled"
  | userOperator symbol => "user-defined operator '" ++ symbol ++ "' is disabled"
  | recursiveStruct name => "struct '" ++ name ++ "' contains itself by value"
  | reservedName name => "'" ++ name ++ "' is a reserved word"
  | missingReceiver name => "member function '" ++ name ++ "' has no receiver parameter"

/-- The problem behind an error of the type table. That a struct was not waiting for its fields is
no problem of the code. -/
def ofTable : TableError → Except Fault Problem
  | .duplicateField owner field => .ok (duplicateField owner field)
  | .reservedField _ field => .ok (reservedName field)
  | .invalidArity generic expected found => .ok (invalidArity generic expected found)
  | .unknownGeneric name => .ok (unknownGeneric name)
  | .notPlaceholder type | .alreadySealed type => .error (.sealing type)

/-- The problem behind an error with a written type. -/
def ofLoad : LoadError → Except Fault Problem
  | .unknownType name => .ok (unknownType name)
  | .misplacedAuto => .ok misplacedAuto
  | .table error => ofTable error
  | .malformed message _ => .ok (unknownType message)

/-- The problem behind the failed choice of an overload. -/
def ofOverload : OverloadError → Problem
  | .noMatch symbol args => noMatchingOverload symbol args
  | .ambiguous symbol args candidates => ambiguousOverload symbol args candidates

end Problem

/-- A problem and where it is. -/
structure Finding where
  problem : Problem
  span : Span
  deriving DecidableEq, Repr, Inhabited

namespace Finding

/-- The message of a finding. -/
def text (f : Finding) : String := "at " ++ f.span.text ++ ": " ++ f.problem.text

/-- The messages of findings, one on a line. -/
def listText (findings : List Finding) : String := "\n".intercalate (findings.map text)

end Finding

end RuleTypes
