import RuleTypes.Proofs.Check.Globals

/-!
# Lexical scope

What inference does to the stack of frames, seen as a whole: whether it answers or fails, the frames
from before stand at the bottom, and only the innermost of them has gained names, those of variables
outside blocks and loops (`inference_respects_lexical_scope`). So a name that was bound in a block,
a loop or a function is not visible after it, and what it hid is visible again.
-/

namespace RuleTypes

open Relation

/-- A name that is not to be gained has the value it had. -/
theorem NameMap.Gains.get?_eq_of_not {α : Type} {W : String → α → Prop} {m m' : NameMap α}
    (h : m.Gains W m') {name : String} (hname : ∀ value, ¬ W name value) :
    m'.get? name = m.get? name := by
  refine Option.ext fun value => ⟨fun hm => ?_, h.kept name value⟩
  exact (h.new name value hm).resolve_right (hname value)

namespace Scope

variable {sc sc' : Scope} {W : String → Binding → Prop} {opened : List Frame} {name : String}

/-! ## The stack of frames -/

/-- All frames, the innermost one first and the global one last. -/
def stack (sc : Scope) : List Frame := sc.frames ++ [⟨.global, sc.globals⟩]

/-- The frames below the innermost one are the same, that one has gained bindings, and the frames
`opened` stand over it. -/
def GainsUnder (W : String → Binding → Prop) (opened : List Frame) (sc sc' : Scope) : Prop :=
  ∃ top top' outer, sc.stack = top :: outer ∧ sc'.stack = opened ++ top' :: outer ∧
    top'.kind = top.kind ∧ top.bindings.Gains W top'.bindings

theorem lookup_eq_findSome? (sc : Scope) (name : String) :
    sc.lookup name = sc.stack.findSome? fun frame => frame.bindings.get? name := by
  rw [lookup, stack, List.findSome?_append]
  cases h : sc.globals.get? name <;> simp [h]

theorem Gains.gainsUnder (h : sc.Gains W sc') : sc.GainsUnder W [] sc' := by
  cases h with
  | @global globals globals' h =>
    exact ⟨⟨.global, globals⟩, ⟨.global, globals'⟩, [], rfl, rfl, rfl, h⟩
  | @inner kind bindings bindings' frames globals h =>
    exact ⟨⟨kind, bindings⟩, ⟨kind, bindings'⟩, frames ++ [⟨.global, globals⟩], rfl, rfl, rfl, h⟩

theorem Leaves.gainsUnder (h : sc.Leaves W sc') : ∃ opened, sc.GainsUnder W opened sc' := by
  obtain ⟨mid, opened, hmid, rfl⟩ := h
  obtain ⟨top, top', outer, hstack, hstack', hkind, hgains⟩ := hmid.gainsUnder
  refine ⟨opened, top, top', outer, hstack, ?_, hkind, hgains⟩
  rw [stack, List.append_assoc]
  exact congrArg (opened ++ ·) hstack'

/-- Names that are not gained mean what they meant. -/
theorem GainsUnder.lookup_eq (h : sc.GainsUnder W [] sc') (hname : ∀ binding, ¬ W name binding) :
    sc'.lookup name = sc.lookup name := by
  obtain ⟨top, top', outer, hstack, hstack', -, hgains⟩ := h
  rw [lookup_eq_findSome?, lookup_eq_findSome?, hstack, hstack', List.nil_append,
    List.findSome?_cons, List.findSome?_cons, hgains.get?_eq_of_not hname]

end Scope

namespace Arena

variable {arena : Arena} {id : NodeId} {node : Node} {name : String} {binding : Binding}

/-- All variables of a block or loop are inside it. -/
theorem not_declares_of_frame (hnode : arena.node? id = some node)
    (hframe : node.kind.opensFrame = true) : ¬ arena.Declares id name binding := by
  rintro ⟨v, hv, other, type, start, hother, hkind, -⟩
  obtain rfl | ⟨child, ⟨opening, hopening, hclosed, -⟩, -⟩ := ReflTransGen.cases_head hv
  · cases hnode.symm.trans hother
    simp [hkind, NodeKind.opensFrame] at hframe
  · cases hnode.symm.trans hopening
    simp [hclosed] at hframe

end Arena

namespace Check

/-- **Inference respects lexical scope.** When the inference of a node answers, the same frames are
open as before, and the innermost one has gained at most the variables that stand below the node
outside blocks and loops; all other names mean what they meant. When it fails, the frames from
before are still there, with no more than that in the innermost one. After a block, a loop or a
function every name means what it meant before it. -/
theorem inference_respects_lexical_scope (cx : Setting) (s : State) :
    (∀ id type s', infer cx id s = .ok type s' →
      s.scope.GainsUnder (cx.arena.Declares id) [] s'.scope ∧
      (∀ name, (∀ binding, ¬ cx.arena.Declares id name binding) →
        s'.scope.lookup name = s.scope.lookup name) ∧
      ∀ node, cx.arena.node? id = some node → node.kind.opensFrame = true →
        ∀ name, s'.scope.lookup name = s.scope.lookup name) ∧
    (∀ id failure s', infer cx id s = .error failure s' →
      ∃ opened, s.scope.GainsUnder (cx.arena.Declares id) opened s'.scope) ∧
    (∀ id span name kind params body f s',
      checkFunction cx id span name kind params body s = .ok f s' →
        ∀ other, s'.scope.lookup other = s.scope.lookup other) ∧
    ∀ id span name kind params body failure s',
      checkFunction cx id span name kind params body s = .error failure s' →
        ∃ opened, s.scope.GainsUnder (fun _ _ => False) opened s'.scope := by
  refine ⟨fun id type s' h => ?_, fun id failure s' h => ?_,
    fun id span name kind params body f s' h other => ?_,
    fun id span name kind params body failure s' h => ?_⟩
  · have hgains := Scope.Gains.gainsUnder ((inferAt_scope cx.depth id).ok h)
    refine ⟨hgains, fun name => hgains.lookup_eq, fun node hnode hframe name => ?_⟩
    exact hgains.lookup_eq fun binding => Arena.not_declares_of_frame hnode hframe
  · exact Scope.Leaves.gainsUnder ((inferAt_scope cx.depth id).error h)
  · rw [checkFunction_scope h]
  · exact Scope.Leaves.gainsUnder ((checkFunction_binds id span name kind params body).error h)

/-- A variable that starts with the value of a block, in which a variable `x` is declared and
used. -/
def variableOfBlock : Setting :=
  { arena := ⟨#[⟨.number, default⟩, ⟨.var "x" .auto ⟨0⟩, default⟩, ⟨.identifier "x", default⟩,
      ⟨.block [⟨1⟩, ⟨2⟩], default⟩, ⟨.var "y" .auto ⟨3⟩, default⟩]⟩
    builtin := ⟨⟨2⟩, ⟨3⟩, ⟨4⟩, .empty⟩
    config := .permissive }

/-- A block in which `x` is a text is open. -/
def insideBlock : State :=
  { State.start (.new .standard) 5 with
    scope := ⟨[⟨.block, ⟨[("x", ⟨⟨3⟩, .var, default⟩)]⟩⟩], .empty⟩ }

/-- The variable is bound, and `x` is a text again. -/
theorem inference_respects_lexical_scope_variableOfBlock :
    ∃ type s', infer variableOfBlock ⟨4⟩ insideBlock = .ok type s' ∧
      insideBlock.scope.GainsUnder (variableOfBlock.arena.Declares ⟨4⟩) [] s'.scope ∧
      s'.scope.lookup "y" = some ⟨⟨2⟩, .var, default⟩ ∧
      s'.scope.lookup "x" = some ⟨⟨3⟩, .var, default⟩ := by
  have hrun : (infer variableOfBlock ⟨4⟩ >>= fun _ => return (← get).scope.lookup "y").run'
      insideBlock = some (some ⟨⟨2⟩, .var, default⟩) := by decide +kernel
  obtain ⟨s₁, hrun⟩ := run'_eq_some.mp hrun
  obtain ⟨type, s', hinfer, hrun⟩ := bind_eq_ok.mp hrun
  obtain ⟨_, _, hget, hrun⟩ := bind_eq_ok.mp hrun
  obtain ⟨rfl, -⟩ := get_eq_ok.mp hget
  obtain ⟨hgains, hlookup, -⟩ :=
    (inference_respects_lexical_scope variableOfBlock insideBlock).1 ⟨4⟩ type s' hinfer
  refine ⟨type, s', hinfer, hgains, (pure_eq_ok.mp hrun).1, (hlookup "x" ?_).trans (by decide)⟩
  rintro binding ⟨v, hv, node, written, start, hnode, hkind, hbinding⟩
  obtain rfl | ⟨child, ⟨_, hvariable, -, hchild⟩, hbelow⟩ := ReflTransGen.cases_head hv
  · cases hnode
    have hnames : "y" = "x" := (NodeKind.var.inj hkind).1
    exact absurd hnames (by decide)
  · cases hvariable
    obtain rfl := List.mem_singleton.mp hchild
    exact Arena.not_declares_of_frame rfl rfl ⟨v, hbelow, node, written, start, hnode, hkind,
      hbinding⟩

end Check

end RuleTypes
