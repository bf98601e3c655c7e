import RuleTypes.Failure
import RuleTypes.NameMap
import RuleTypes.Span

/-!
# Scopes

A scope is a stack of frames over the global frame, which is always there. A name means its
innermost binding. A frame remembers what opened it, so that `return`, `break` and `continue` can
find what they leave: a function ends the search for a loop, a block does not.
-/

namespace RuleTypes

/-- What a name was bound by. -/
inductive BindingKind
  | var
  | parameter
  | function
  /-- A function defined elsewhere. -/
  | foreign
  deriving DecidableEq, Repr, Inhabited

/-- Whether the name may stand on the left of an assignment. -/
def BindingKind.isAssignable : BindingKind → Bool
  | var | parameter => true
  | function | foreign => false

/-- What a name is bound to. -/
structure Binding where
  type : TypeId
  kind : BindingKind
  /-- Where the name was declared. -/
  span : Span
  deriving DecidableEq, Repr, Inhabited

/-- What opened a frame. -/
inductive FrameKind
  | global
  | function (result : TypeId)
  | loop
  | block
  deriving DecidableEq, Repr, Inhabited

/-- An open frame and the names bound in it. -/
structure Frame where
  kind : FrameKind
  bindings : NameMap Binding
  deriving Repr, Inhabited

/-- The frames opened over the global one, innermost first, and the global bindings. -/
structure Scope where
  frames : List Frame
  globals : NameMap Binding
  deriving Repr, Inhabited

namespace Scope

/-- The scope with nothing but an empty global frame. -/
def new : Scope := ⟨[], .empty⟩

/-- Opens a frame. There is only one global frame. -/
def push (s : Scope) (kind : FrameKind) : Except Fault Scope :=
  if kind = .global then .error .secondGlobalFrame
  else .ok { s with frames := ⟨kind, .empty⟩ :: s.frames }

/-- Closes the innermost frame. The global frame stays open. -/
def pop (s : Scope) : Except Fault Scope :=
  match s.frames with
  | [] => .error .globalFramePopped
  | _ :: frames => .ok { s with frames }

/-- Closes every frame but the global one. -/
def unwind (s : Scope) : Scope := { s with frames := [] }

/-- The number of frames over the global one. -/
def depth (s : Scope) : Nat := s.frames.length

/-- Whether only the global frame is open. -/
def isGlobal (s : Scope) : Bool := s.frames.isEmpty

/-- The bindings of the innermost frame. -/
def current (s : Scope) : NameMap Binding :=
  match s.frames with
  | [] => s.globals
  | frame :: _ => frame.bindings

/-- Binds a name in the innermost frame. A name bound there already keeps its binding, which is
then the answer. -/
def bind (s : Scope) (name : String) (binding : Binding) : Except Binding Scope :=
  match s.current.get? name with
  | some existing => .error existing
  | none =>
    match s.frames with
    | [] => .ok { s with globals := s.globals.insert name binding }
    | frame :: frames =>
      .ok { s with
        frames := { frame with bindings := frame.bindings.insert name binding } :: frames }

/-- The innermost binding of a name. -/
def lookup (s : Scope) (name : String) : Option Binding :=
  (s.frames.findSome? fun frame => frame.bindings.get? name).or (s.globals.get? name)

/-- Whether a name is bound in the innermost frame. -/
def isBoundHere (s : Scope) (name : String) : Bool := s.current.contains name

/-- The result type of the innermost function around. -/
def enclosingResult? (s : Scope) : Option TypeId :=
  s.frames.findSome? fun frame =>
    match frame.kind with
    | .function result => some result
    | _ => none

/-- Whether a loop is around, inside the innermost function. -/
def inLoop (s : Scope) : Bool := go s.frames
where
  /-- Looks outwards from the innermost frame. -/
  go : List Frame → Bool
    | [] => false
    | frame :: frames =>
      match frame.kind with
      | .loop => true
      | .function _ | .global => false
      | .block => go frames

end Scope

end RuleTypes
