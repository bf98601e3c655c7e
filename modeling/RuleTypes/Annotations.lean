import RuleTypes.Failure

/-!
# Annotations

The types found for the nodes of an arena. A slot is written once, with one exception: the slot of
a variable whose type is that of its initializer holds `auto` while the initializer is looked at.
A journal lists the nodes in the order they were first written, newest first. A mark is a length
of the journal, and going back to it clears what was written since.
-/

namespace RuleTypes

/-- The types found so far, one slot for each node. -/
structure Annotations where
  slots : Array (Option TypeId)
  /-- The annotated nodes, newest first. -/
  journal : List NodeId
  deriving DecidableEq, Repr, Inhabited

namespace Annotations

/-- No annotations, for an arena of `n` nodes. -/
def blank (n : Nat) : Annotations := ⟨Array.replicate n none, []⟩

/-- The type found for a node. -/
def get? (a : Annotations) (node : NodeId) : Option TypeId := (a.slots[node.index]?).join

/-- Writes a slot that exists. -/
def write (a : Annotations) (node : NodeId) (type : Option TypeId) : Annotations :=
  { a with slots := a.slots.setIfInBounds node.index type }

/-- Adds a node to the journal. -/
def log (a : Annotations) (node : NodeId) : Annotations := { a with journal := node :: a.journal }

/-- Gives a node its type. That it has no final type yet is an assertion of debug builds, and
`annotatedTwice` is its failure; a release build goes on and overwrites the type. -/
def set (a : Annotations) (node : NodeId) (type : TypeId) : Except Fault Annotations :=
  match a.slots[node.index]? with
  | none => .error .outOfRange
  | some none => .ok ((a.write node (some type)).log node)
  | some (some old) =>
    if old = .auto then .ok (a.write node (some type)) else .error (.annotatedTwice node)

/-- Marks a node whose type is still that of its initializer. That it has no type at all yet is an
assertion of debug builds, and `annotatedTwice` is its failure; a release build goes on, overwrites
the type and adds the node to the journal once more. -/
def setProvisional (a : Annotations) (node : NodeId) : Except Fault Annotations :=
  match a.slots[node.index]? with
  | none => .error .outOfRange
  | some none => .ok ((a.write node (some .auto)).log node)
  | some (some _) => .error (.annotatedTwice node)

/-- Whether the type of a node is still that of its initializer. -/
def isProvisional (a : Annotations) (node : NodeId) : Bool := a.get? node = some .auto

/-- The present length of the journal. -/
def mark (a : Annotations) : Nat := a.journal.length

/-- Clears the slots of the given nodes. -/
def clear (a : Annotations) (nodes : List NodeId) : Annotations :=
  nodes.foldl (fun a node => a.write node none) a

/-- Clears every slot first written after the journal had the length `mark`. -/
def rollback (a : Annotations) (mark : Nat) : Except Fault Annotations :=
  if a.journal.length < mark then .error .outOfRange
  else
    let newer := a.journal.length - mark
    .ok { a.clear (a.journal.take newer) with journal := a.journal.drop newer }

/-- The number of nodes there is a slot for. -/
def size (a : Annotations) : Nat := a.slots.size

/-- The annotated nodes with their types, in the order of the arena. -/
def toList (a : Annotations) : List (NodeId × TypeId) :=
  a.slots.toList.zipIdx.filterMap fun slot => slot.1.map fun type => (⟨slot.2⟩, type)

/-- The number of annotated nodes. -/
def count (a : Annotations) : Nat := a.toList.length

end Annotations

end RuleTypes
