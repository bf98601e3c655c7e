import RuleTypes.TypeId

/-!
# Forms of types

A form is what a type id stands for. The components of a form are ids again, so that two forms
are compared without looking into their components. A struct is either declared, and then known
by its name, or a record, and then known by its fields.
-/

namespace RuleTypes

/-- What a type id stands for. -/
inductive Form
  /-- The type of an initializer, not yet known. -/
  | auto
  /-- The type of what produces no value. -/
  | noValue
  | primitive (name : String)
  | pointer (base : TypeId)
  | function (params : List TypeId) (result : TypeId)
  /-- A generic type applied to its arguments. -/
  | generic (name : String) (args : List TypeId)
  /-- A struct without a name. -/
  | record (fields : List (String × TypeId))
  /-- A struct with a name of its own. -/
  | declared (name : String) (fields : List (String × TypeId))
  deriving DecidableEq, Repr, Inhabited

namespace Form

/-- The generic whose instances are slices. -/
def sliceName : String := "[]"

/-- The kind of a form, as listings name it. -/
def kindName : Form → String
  | auto | noValue => "sentinel"
  | primitive _ => "primitive"
  | pointer _ => "pointer"
  | function _ _ => "function"
  | generic _ _ => "instantiation"
  | record _ | declared _ _ => "struct"

/-- The fields of a struct. -/
def fields? : Form → Option (List (String × TypeId))
  | record fields | declared _ fields => some fields
  | _ => none

/-- Parameters and result of a function. -/
def signature? : Form → Option (List TypeId × TypeId)
  | function params result => some (params, result)
  | _ => none

/-- What a pointer points to. -/
def base? : Form → Option TypeId
  | pointer base => some base
  | _ => none

/-- What a slice consists of. -/
def element? : Form → Option TypeId
  | generic name (element :: _) => if name = sliceName then some element else none
  | _ => none

/-- Whether the form is a struct with a name. -/
def isDeclared : Form → Bool
  | declared _ _ => true
  | _ => false

/-- The ids that occur in a form, in the order of writing. -/
def components : Form → List TypeId
  | auto | noValue | primitive _ => []
  | pointer base => [base]
  | function params result => params ++ [result]
  | generic _ args => args
  | record fields | declared _ fields => fields.map (·.2)

end Form

end RuleTypes
