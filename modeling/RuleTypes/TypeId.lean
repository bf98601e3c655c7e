/-!
# Type identities

A type is known by its place in the table that issued it. The first two places are taken in
every table: `auto`, which asks for the type of an initializer, and `noValue`, the type of what
produces no value.
-/

namespace RuleTypes

/-- The identity of a type: its index in the table that issued it. -/
structure TypeId where
  index : Nat
  deriving DecidableEq, Repr, Inhabited

namespace TypeId

/-- Stands for the type of an initializer, until that is known. -/
def auto : TypeId := ⟨0⟩

/-- The type of statements, definitions and everything else without a value. -/
def noValue : TypeId := ⟨1⟩

/-- Whether the id is one of the two that every table begins with. -/
def isSentinel (id : TypeId) : Bool := id.index < 2

/-- The id as faults and listings name it. -/
def text (id : TypeId) : String :=
  if id = auto then "TypeId(auto)"
  else if id = noValue then "TypeId(none)"
  else s!"TypeId({id.index})"

end TypeId

end RuleTypes
