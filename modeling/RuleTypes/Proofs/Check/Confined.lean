import RuleTypes.Check.Report
import RuleTypes.Proofs.Check.Rules
import RuleTypes.Proofs.Program.Tree

/-!
# Inference is confined to the nodes below

Whatever becomes of the inference of a node, it gives types only to nodes below it
(`inferAt_later`). A set of nodes that is closed under parts stands for "below". What lies apart is
left as it was (`Keeps`), so nodes that were not looked at stay without types (`Fresh.keeps`).
-/

namespace RuleTypes.Check

variable {cx : Setting} {infer : Infer} {s s' : State} {N : NodeId → Prop} {id : NodeId}

/-- With a node, its parts are in the set. -/
def Closed (cx : Setting) (N : NodeId → Prop) : Prop :=
  ∀ parent child, cx.arena.IsChild parent child → N parent → N child

theorem closed_below (cx : Setting) (id : NodeId) : Closed cx (cx.arena.Below id) :=
  fun _ _ hchild hbelow => hbelow.tail hchild

/-! ## Nodes -/

instance : Extensible (Later N) (fun _ => Later N) where
  table _ _ h := .of_table h

/-- A node's rule gives types only to the node itself and to what the inference of its parts gives
types to. -/
theorem inferNode_later (hN : Closed cx N) {id : NodeId} {node : Node} (hid : N id)
    (hnode : cx.arena.node? id = some node) (h : ∀ child, N child → Moves (Later N) (infer child)) :
    Moves (Later N) (inferNode cx infer id node) := by
  have hmem : ∀ child ∈ node.kind.children, N child := fun child hchild =>
    hN id child ⟨node, hnode, hchild⟩ hid
  have hpart : ∀ child ∈ node.kind.children, Moves (Later N) (infer child) :=
    fun child hchild => h child (hmem child hchild)
  refine (inferNode_goes (fun _ child hchild => (hpart child hchild).goes) ?_ ?_ ?_ ?_ ?_).moves
  · exact fun callee _ hcallee _ _ _ type => (annotate_later (hmem callee hcallee) type).goes
  · -- the base of a member function's callee is a part of a part
    intro callee calleeNode base field hcallee _ hcalleeNode hmember
    have hbase := hN callee base ⟨calleeNode, hcalleeNode, by simp [hmember, NodeKind.children]⟩
    exact (h base (hbase (hmem callee hcallee))).goes
  · intro statements hkind
    exact inferBlock_goes (openFrame_later _).goes closeFrame_later.goes fun child hchild =>
      (hpart child (by rwa [hkind])).goes
  · intro start condition body hkind
    rw [hkind] at hpart
    exact inferLoop_goes (openFrame_later _).goes closeFrame_later.goes
      (fun child hchild => (hpart child (List.mem_append_left _ hchild)).goes)
      (hpart condition (by simp [NodeKind.children])).goes
      (hpart body (by simp [NodeKind.children])).goes
  · intro name type start hkind
    exact inferVariable_goes (annotateProvisional_later hid).goes
      (hpart start (by simp [hkind, NodeKind.children])).goes
      (fun _ => (bindName_later _ _ _ _).goes) type

/-- **Inference is confined.** It gives types to nodes of a set closed under parts only, when it
starts there. -/
theorem inferAt_later (hN : Closed cx N) (depth : Nat) :
    ∀ id, N id → Moves (Later N) (inferAt cx depth id) := by
  induction depth with
  | zero => exact fun _ _ => .throw _
  | succ depth ih =>
    intro id hid
    refine .bind_of (nodeOf_moves _ _) fun node s s' hread => ?_
    obtain ⟨hnode, -⟩ := nodeOf_eq_ok.mp hread
    exact .bind (inferNode_later hN hid hnode ih) fun _ =>
      .bind (annotate_later hid _) fun _ => .pure _

theorem infer_later (cx : Setting) (id : NodeId) :
    Moves (Later (cx.arena.Below id)) (Check.infer cx id) :=
  inferAt_later (closed_below cx id) _ id (.refl id)

/-! ## Nodes apart -/

/-- The later state knows as much about types, and as much about the nodes in `K`. -/
structure Keeps (K : NodeId → Prop) (s s' : State) : Prop where
  table : s.table.Extends s'.table
  names : s'.names = s.names
  operators : s'.operators = s.operators
  members : s'.members = s.members
  annotations : ∀ id, K id → s'.annotations.get? id = s.annotations.get? id

theorem Later.keeps {K : NodeId → Prop} (h : Later N s s') (hK : ∀ id, K id → ¬ N id) :
    Keeps K s s' :=
  ⟨h.table, h.names, h.operators, h.members, fun id hid => h.get?_eq (hK id hid)⟩

theorem Keeps.mono {K K' : NodeId → Prop} (h : Keeps K s s') (hK : ∀ id, K' id → K id) :
    Keeps K' s s' :=
  ⟨h.table, h.names, h.operators, h.members, fun id hid => h.annotations id (hK id hid)⟩

/-- Nothing below the node has a type. -/
def Fresh (cx : Setting) (s : State) (id : NodeId) : Prop :=
  ∀ x, cx.arena.Below id x → s.annotations.get? x = none

theorem Fresh.keeps (h : Fresh cx s id) (hkeeps : Keeps (cx.arena.Below id) s s') :
    Fresh cx s' id := fun x hx => (hkeeps.annotations x hx).trans (h x hx)

theorem Fresh.part (h : Fresh cx s id) {child : NodeId} (hchild : cx.arena.IsChild id child) :
    Fresh cx s child := fun x hx => h x (hchild.below.trans hx)

/-! ## Items -/

theorem bindParams_later (span : Span) (params : List (String × TypeExpr)) (types : List TypeId) :
    Moves (Later N) (bindParams span params types) := by
  induction params generalizing types with
  | nil => exact .pure _
  | cons param params ih =>
    cases types with
    | nil => exact .pure _
    | cons type types => exact .bind (bindName_later _ _ _ _) fun _ => ih types

/-- Checking a function gives types to nodes of its body only. -/
theorem checkFunction_later (id : NodeId) (span : Span) (name : String) (kind : FunctionKind)
    (params : List (String × TypeExpr)) (body : NodeId) :
    Moves (Later (cx.arena.Below body)) (checkFunction cx id span name kind params body) := fun _ =>
  checkFunction_at (fun _ _ _ _ _ => openFrame_later _ _) closeFrame_later
    (fun _ types _ _ _ _ => bindParams_later span params types _) (infer_later cx body) name kind

end RuleTypes.Check
