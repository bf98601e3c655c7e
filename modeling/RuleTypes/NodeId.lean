/-!
# Node identities

A node of rule code is known by its place in the arena that holds it.
-/

namespace RuleTypes

/-- The identity of a node: its index in the arena. -/
structure NodeId where
  index : Nat
  deriving DecidableEq, Repr, Inhabited

/-- The node as faults name it. -/
def NodeId.text (id : NodeId) : String := s!"NodeId({id.index})"

end RuleTypes
