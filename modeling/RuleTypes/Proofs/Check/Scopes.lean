import RuleTypes.Proofs.Check.Rules
import RuleTypes.Proofs.Program.Tree
import RuleTypes.Proofs.Scope

/-!
# Inference and scopes

The inference of a node binds in the innermost frame only, and binds only the variables that stand
below the node outside blocks and loops (`inferAt_scope`). When it answers, the same frames are
open as before; when it fails, frames of blocks and loops may be left open over them.
-/

namespace RuleTypes

open Relation

/-! ## Variables outside blocks and loops -/

namespace Arena

variable {arena : Arena} {a b c : NodeId}

/-- The second node is a part of the first, and no frame is opened in between. -/
def Exposes (arena : Arena) (parent child : NodeId) : Prop :=
  ∃ node, arena.node? parent = some node ∧ node.kind.opensFrame = false ∧
    child ∈ node.kind.children

/-- The second node is the first or lies below it, outside blocks and loops. -/
def Exposed (arena : Arena) : NodeId → NodeId → Prop := ReflTransGen arena.Exposes

theorem Exposes.isChild (h : arena.Exposes a b) : arena.IsChild a b :=
  have ⟨node, hnode, _, hchild⟩ := h
  ⟨node, hnode, hchild⟩

theorem Exposed.below (h : arena.Exposed a b) : arena.Below a b :=
  ReflTransGen.mono (fun _ _ => Exposes.isChild) _ _ h

/-- The node is a variable of the name, and the binding is one that it can be given. -/
def DeclaredAt (arena : Arena) (v : NodeId) (name : String) (binding : Binding) : Prop :=
  ∃ node type start, arena.node? v = some node ∧ node.kind = .var name type start ∧
    binding.kind = .var ∧ binding.span = node.span

/-- The binding is that of a variable of the name that stands below the node outside blocks and
loops. -/
def Declares (arena : Arena) (id : NodeId) (name : String) (binding : Binding) : Prop :=
  ∃ v, arena.Exposed id v ∧ arena.DeclaredAt v name binding

theorem Declares.of_exposes {name : String} {binding : Binding} (hab : arena.Exposes a b)
    (h : arena.Declares b name binding) : arena.Declares a name binding :=
  have ⟨v, hv, hdeclared⟩ := h
  ⟨v, .head hab hv, hdeclared⟩

/-- In a forest, what lies below a part of a block or loop is out of sight. -/
theorem IsForest.not_exposed_of_frame (h : arena.IsForest) {node : Node} (ha : arena.Exposed a b)
    (hnode : arena.node? b = some node) (hframe : node.kind.opensFrame = true) {child : NodeId}
    (hchild : child ∈ node.kind.children) {v : NodeId} (hv : arena.Below child v) :
    ¬ arena.Exposed a v := by
  intro hexposed
  induction hexposed with
  | refl => exact h.not_below_of_isChild ⟨node, hnode, hchild⟩ (hv.trans ha.below)
  | @tail u v _ huv ih =>
    obtain rfl | ⟨q, hq, hqv⟩ := ReflTransGen.cases_tail hv
    · obtain rfl := h.eq_of_isChild u b v huv.isChild ⟨node, hnode, hchild⟩
      obtain ⟨node', hnode', hframe', -⟩ := huv
      obtain rfl := Option.some.inj (hnode'.symm.trans hnode)
      exact absurd hframe (by simp [hframe'])
    · obtain rfl := h.eq_of_isChild q u v hqv huv.isChild
      exact ih hq

end Arena

namespace Check

variable {α : Type} {cx : Setting} {infer : Infer} {W W' : String → Binding → Prop}

/-! ## Steps -/

/-- The innermost frame gained bindings. -/
def Binds (W : String → Binding → Prop) (s s' : State) : Prop := s.scope.Gains W s'.scope

/-- The innermost frame gained bindings, and frames were left open. -/
def Abandons (W : String → Binding → Prop) (_ : Failure Finding) (s s' : State) : Prop :=
  s.scope.Leaves W s'.scope

instance : Extensible (Binds W) (Abandons W) where
  refl s := .refl W s.scope
  trans _ _ _ := .trans
  fails _ s := (Scope.Gains.refl W s.scope).leaves
  after h h' := Scope.Gains.trans_leaves h h'
  table s _ _ := .refl W s.scope

theorem binds_mono {x : Check α} (hW : ∀ name binding, W name binding → W' name binding)
    (h : Goes (Binds W) (Abandons W) x) : Goes (Binds W') (Abandons W') x :=
  h.mono (fun _ _ h => h.mono hW) fun _ _ _ ⟨mid, opened, hmid, heq⟩ =>
    ⟨mid, opened, hmid.mono hW, heq⟩

theorem annotate_binds (node : NodeId) (type : TypeId) :
    Goes (Binds W) (Abandons W) (annotate node type) :=
  .of_moves (update_moves fun s s' h => by
    obtain ⟨annotations, -, rfl⟩ := annotate_eq_ok.mp (update_eq_ok (u := ()).mpr h)
    exact .refl W s.scope)

theorem annotateProvisional_binds (node : NodeId) :
    Goes (Binds W) (Abandons W) (annotateProvisional node) :=
  .of_moves (update_moves fun s s' h => by
    obtain ⟨annotations, -, rfl⟩ := annotateProvisional_eq_ok.mp (update_eq_ok (u := ()).mpr h)
    exact .refl W s.scope)

theorem bindName_binds {name : String} {type : TypeId} {kind : BindingKind} {span : Span}
    (hW : W name ⟨type, kind, span⟩) :
    Goes (Binds W) (Abandons W) (bindName name type kind span) := .of_moves fun s => by
  unfold bindName
  cases hbind : s.scope.bind name ⟨type, kind, span⟩ with
  | error existing => exact .refl W s.scope
  | ok scope =>
    obtain ⟨hnew, rfl⟩ := Scope.bind_eq_ok.mp hbind
    exact .withBinding hnew hW

/-- What happens between opening a frame and closing it stays there. -/
theorem enclosed_binds {β : Type} {kind : FrameKind} {x : Check α} (f : α → β)
    (hx : Goes (Binds W) (Abandons W) x) :
    Goes (Binds W') (Abandons W') (do
      openFrame kind
      let a ← x
      closeFrame
      return f a) := by
  refine .of_ends (fun {s a s'} h => ?_) fun {s e s'} h => ?_
  · obtain ⟨_, s₁, hopen, h⟩ := bind_eq_ok.mp h
    obtain ⟨a, s₂, hx₂, h⟩ := bind_eq_ok.mp h
    obtain ⟨_, s₃, hclose, h⟩ := bind_eq_ok.mp h
    obtain ⟨-, rfl⟩ := pure_eq_ok.mp h
    obtain ⟨opened, hpush, rfl⟩ := openFrame_eq_ok.mp hopen
    obtain ⟨-, rfl⟩ := Scope.push_eq_ok.mp hpush
    obtain ⟨closed, hpop, rfl⟩ := closeFrame_eq_ok.mp hclose
    obtain rfl := (hx.ok hx₂).eq_of_pop hpop
    exact .refl W' s.scope
  · obtain hopen | ⟨_, s₁, hopen, h⟩ := bind_eq_error.mp h
    · obtain ⟨_, -, -, rfl⟩ := update_eq_error.mp hopen
      exact (Scope.Gains.refl W' s.scope).leaves
    obtain ⟨opened, hpush, rfl⟩ := openFrame_eq_ok.mp hopen
    obtain ⟨-, rfl⟩ := Scope.push_eq_ok.mp hpush
    obtain hx₂ | ⟨a, s₂, hx₂, h⟩ := bind_eq_error.mp h
    · exact Scope.Leaves.of_opened (hx.error hx₂)
    obtain hclose | ⟨_, s₃, -, h⟩ := bind_eq_error.mp h
    · obtain ⟨_, -, -, rfl⟩ := update_eq_error.mp hclose
      exact Scope.Leaves.of_opened (hx.ok hx₂).leaves
    · exact (pure_eq_error.mp h).elim

/-! ## Rules -/

theorem inferBlock_binds {statements : List NodeId}
    (h : ∀ id ∈ statements, Goes (Binds W) (Abandons W) (infer id)) :
    Goes (Binds W') (Abandons W') (inferBlock cx infer statements) :=
  enclosed_binds (fun type => type) (inferStatements_goes h)

theorem inferLoop_eq (start : Option NodeId) (condition body : NodeId) :
    inferLoop cx infer start condition body = (do
      openFrame .loop
      let _ ← (do
        let _ ← inferOptional infer start
        inferCondition cx infer condition
        infer body)
      closeFrame
      return .noValue) := by
  simp only [inferLoop, bind_assoc]

theorem inferLoop_binds {start : Option NodeId} {condition body : NodeId}
    (hstart : ∀ id ∈ start.toList, Goes (Binds W) (Abandons W) (infer id))
    (hcondition : Goes (Binds W) (Abandons W) (infer condition))
    (hbody : Goes (Binds W) (Abandons W) (infer body)) :
    Goes (Binds W') (Abandons W') (inferLoop cx infer start condition body) := by
  rw [inferLoop_eq]
  exact enclosed_binds (fun _ => TypeId.noValue) (.bind (inferOptional_goes hstart) fun _ =>
    .bind (inferCondition_goes hcondition) fun _ => hbody)

/-- **Inference respects lexical scope.** It binds in the innermost frame only, and only variables
that stand below the node outside blocks and loops. -/
theorem inferAt_scope (depth : Nat) : ∀ id, Goes (Binds (cx.arena.Declares id))
    (Abandons (cx.arena.Declares id)) (inferAt cx depth id) := by
  induction depth with
  | zero => exact fun _ => .throw _
  | succ depth ih =>
    intro id
    refine .bind_of (.reads (nodeOf_moves _ _)) fun node s s' hread => ?_
    obtain ⟨hnode, -⟩ := nodeOf_eq_ok.mp hread
    refine .bind ?_ fun _ => .bind (annotate_binds _ _) fun _ => .pure _
    -- inside a block or loop, whatever is bound is out of scope afterwards
    have hinside : ∀ child, Goes (Binds fun _ _ => True) (Abandons fun _ _ => True)
        (inferAt cx depth child) := fun child => binds_mono (fun _ _ _ => trivial) (ih child)
    have hpart : ∀ child, cx.arena.Exposes id child → Goes (Binds (cx.arena.Declares id))
        (Abandons (cx.arena.Declares id)) (inferAt cx depth child) := fun child hchild =>
      binds_mono (fun _ _ => .of_exposes hchild) (ih child)
    refine inferNode_goes
      (fun hframe child hchild => hpart child ⟨node, hnode, hframe, hchild⟩) ?_ ?_
      (fun _ _ => inferBlock_binds fun child _ => hinside child)
      (fun _ _ _ _ => inferLoop_binds (fun child _ => hinside child) (hinside _) (hinside _)) ?_
    · exact fun _ _ _ _ _ _ _ => annotate_binds _ _
    · intro callee calleeNode base field hcallee hframe hcalleeNode hmember
      have hcallee : cx.arena.Exposes id callee := ⟨node, hnode, hframe, hcallee⟩
      have hbase : cx.arena.Exposes callee base :=
        ⟨calleeNode, hcalleeNode, by rw [hmember]; rfl, by rw [hmember]; exact .head _⟩
      exact binds_mono (fun _ _ h => .of_exposes hcallee (.of_exposes hbase h)) (ih base)
    · intro name type start hkind
      refine inferVariable_goes (annotateProvisional_binds _)
        (hpart start ⟨node, hnode, by rw [hkind]; rfl, ?_⟩) (fun found => bindName_binds ?_) type
      · rw [hkind]
        exact .head _
      · exact ⟨id, .refl, node, type, start, hnode, hkind, rfl, rfl⟩

end Check

end RuleTypes
