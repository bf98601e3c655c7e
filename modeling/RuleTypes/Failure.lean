import RuleTypes.NodeId
import RuleTypes.TypeId

/-!
# Errors and faults

Two things can keep an operation from answering. An *error* is about the rule code or the type
that was handed in, and is reported to whoever wrote it. A *fault* is a broken contract between
callers: an id that no table issued, a node that does not exist, a slot written twice. Faults are
not reported against the code; an operation that meets one stops.

Causes are data here. Their wording is the function `text` of each type.
-/

namespace RuleTypes

/-- Errors of the type table. -/
inductive TableError
  | duplicateField (owner field : String)
  | reservedField (owner field : String)
  /-- A generic applied to the wrong number of arguments. -/
  | invalidArity (generic : String) (expected found : Nat)
  | unknownGeneric (name : String)
  /-- Only a reserved struct can be filled in. -/
  | notPlaceholder (type : String)
  | alreadySealed (type : String)
  deriving DecidableEq, Repr, Inhabited

/-- The wording of a table error. -/
def TableError.text : TableError → String
  | duplicateField owner field =>
    "struct '" ++ owner ++ "' declares field '" ++ field ++ "' more than once"
  | reservedField owner field => "struct '" ++ owner ++ "' cannot name a field '" ++ field ++ "'"
  | invalidArity generic expected found =>
    "generic '" ++ generic ++ "' expects " ++ toString expected ++ " type argument(s), found "
      ++ toString found
  | unknownGeneric name => "unknown generic type '" ++ name ++ "'"
  | notPlaceholder type => "type '" ++ type ++ "' is not a struct placeholder"
  | alreadySealed type => "struct '" ++ type ++ "' is already sealed"

/-- Errors met on the way from a text to a type. -/
inductive LoadError
  /-- The text is not a type. -/
  | malformed (message : String) (offset : Nat)
  | unknownType (name : String)
  /-- The type of an initializer was asked for inside another type. -/
  | misplacedAuto
  | table (error : TableError)
  deriving DecidableEq, Repr, Inhabited

/-- The wording of a load error. -/
def LoadError.text : LoadError → String
  | malformed message offset =>
    "type syntax error at offset " ++ toString offset ++ ": " ++ message
  | unknownType name => "unknown type '" ++ name ++ "'"
  | misplacedAuto => "'auto' cannot be used inside a compound type"
  | table error => error.text

/-- Errors of the choice between overloads; `args` is the text of the argument types. -/
inductive OverloadError
  | noMatch (symbol args : String)
  | ambiguous (symbol args : String) (candidates : Nat)
  deriving DecidableEq, Repr, Inhabited

/-- The wording of an overload error. -/
def OverloadError.text : OverloadError → String
  | noMatch symbol args => "no overload of '" ++ symbol ++ "' accepts (" ++ args ++ ")"
  | ambiguous symbol args candidates =>
    toString candidates ++ " overloads of '" ++ symbol ++ "' accept (" ++ args ++ ")"

/-- Broken contracts. -/
inductive Fault
  /-- A type id that the table did not issue. -/
  | unissued (id : TypeId)
  /-- A node that has its final type was given another: the assertion of a debug build that a
  release build does not make. -/
  | annotatedTwice (node : NodeId)
  /-- A node, a mark or an argument that does not exist. -/
  | outOfRange
  /-- A slice was asked for, and the slice generic does not take one argument. -/
  | sliceGeneric (cause : TableError)
  /-- A struct was filled in that was not waiting for its fields. -/
  | sealing (type : String)
  /-- A chosen overload that is not a function. -/
  | notFunction (id : TypeId)
  | secondGlobalFrame
  | globalFramePopped
  /-- An item was used before the step that prepares it. -/
  | unprepared (node : NodeId)
  /-- A chain of references that does not end. -/
  | endless
  deriving DecidableEq, Repr, Inhabited

/-- The wording of a fault, where it has one. -/
def Fault.text : Fault → Option String
  | unissued id => some (id.text ++ " was not issued by this type table")
  | annotatedTwice node => some (node.text ++ " annotated twice")
  | outOfRange => none
  | sliceGeneric cause => some ("slice generic missing from arity table: " ++ cause.text)
  | sealing type => some ("struct sealing bookkeeping broken for '" ++ type ++ "'")
  | notFunction id => some ("candidate " ++ id.text ++ " is not a function")
  | secondGlobalFrame => some "only one global frame"
  | globalFramePopped => some "global frame popped"
  | unprepared _ => none
  | endless => none

/-- What an operation with errors in `ε` can fail with. -/
inductive Failure (ε : Type)
  | error (cause : ε)
  | fault (cause : Fault)
  deriving DecidableEq, Repr

/-- Rewords the errors and keeps the faults. -/
def Failure.mapError {ε ε' : Type} (f : ε → ε') : Failure ε → Failure ε'
  | error cause => error (f cause)
  | fault cause => fault cause

end RuleTypes
