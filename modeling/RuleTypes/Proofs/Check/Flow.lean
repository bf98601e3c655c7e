import RuleTypes.Proofs.Check.Known
import RuleTypes.Proofs.Check.Scopes

/-!
# Control flow that was checked

When the inference of a node answers, every node below it has a final type, and control flow stands
where it may: a `return` carries the result of the function around it, `break` and `continue` have
a loop around them, and blocks and branches have the types of what they end with. `Flows` says so of
the finished annotations. It is carried from the parts of a node to the node (`inferNode_flows`), so
it holds of every node whose inference answers (`inferAt_flows`), and it goes on holding while other
nodes get their types (`Flows.mono`).
-/

namespace RuleTypes

open Relation

/-- Whether the node is a loop. -/
def NodeKind.isLoop : NodeKind → Bool
  | loop .. => true
  | _ => false

namespace Check

variable {cx : Setting} {infer : Infer} {s s' s₁ s₂ : State} {id : NodeId} {node : Node}
  {type : TypeId} {ids : List NodeId} {types : List TypeId}

/-! ## Control flow in its place -/

/-- The type of a block, going by its last statement. -/
def BlockType (cx : Setting) (s : State) (statements : List NodeId) (type : TypeId) : Prop :=
  match statements.getLast? with
  | none => type = .noValue
  | some last => ∃ node, cx.arena.node? last = some node ∧
    if node.kind.isDefinition || node.kind.isJump then type = .noValue
    else s.annotations.get? last = some type

/-- What a rule says about control flow, given the types of the parts. `result` is that of the
function around, if there is one, and `loop` says whether a loop is around. -/
def FlowRule (cx : Setting) (s : State) (result : Option TypeId) (loop : Bool) (type : TypeId) :
    NodeKind → Prop
  | .block statements => BlockType cx s statements type
  | .branch _ _ none => type = .noValue
  | .branch _ thenArm (some elseArm) =>
    s.annotations.get? thenArm = some type ∧ s.annotations.get? elseArm = some type
  | .loop .. => type = .noValue
  | .assign .. => type = .noValue
  | .jump .toCaller none => result = some .noValue
  | .jump .toCaller (some value) => result ≠ none ∧ s.annotations.get? value = result
  | .jump .afterLoop _ => loop = true
  | .jump .nextRound _ => loop = true
  | _ => True

/-- The node and all nodes below it have final types, and control flow among them is in its
place. -/
inductive Flows (cx : Setting) (s : State) (result : Option TypeId) : Bool → NodeId → Prop
  | intro {loop : Bool} {id : NodeId} {node : Node} {type : TypeId}
      (hnode : cx.arena.node? id = some node) (htype : s.annotations.get? id = some type)
      (hfinal : type ≠ .auto) (hrule : FlowRule cx s result loop type node.kind)
      (hparts : ∀ child ∈ node.kind.children,
        Flows cx s result (loop || node.kind.isLoop) child) : Flows cx s result loop id

/-- Final types stay. -/
def Lasts (s s' : State) : Prop :=
  ∀ id type, s.annotations.get? id = some type → type ≠ .auto → s'.annotations.get? id = some type

theorem Later.lasts {N : NodeId → Prop} (h : Later N s s') : Lasts s s' := h.annotations.final

theorem BlockType.lasts (hlasts : Lasts s s') (hfinal : type ≠ .auto) {statements : List NodeId}
    (h : BlockType cx s statements type) : BlockType cx s' statements type := by
  unfold BlockType at h ⊢
  cases hlast : statements.getLast? with
  | none => rwa [hlast] at h
  | some last =>
    rw [hlast] at h
    obtain ⟨node, hnode, h⟩ := h
    refine ⟨node, hnode, ?_⟩
    split at h
    · rwa [if_pos ‹_›]
    · rw [if_neg ‹_›]
      exact hlasts last type h hfinal

/-- A rule goes on being kept to while final types stay. -/
theorem FlowRule.lasts {result : Option TypeId} {loop : Bool} {kind : NodeKind}
    (hlasts : Lasts s s') (hfinal : type ≠ .auto)
    (hparts : ∀ child ∈ kind.children, ∃ found, s.annotations.get? child = some found ∧
      found ≠ .auto) (h : FlowRule cx s result loop type kind) :
    FlowRule cx s' result loop type kind := by
  cases kind with
  | block statements => exact BlockType.lasts hlasts hfinal h
  | branch condition thenArm elseArm =>
    cases elseArm with
    | none => exact h
    | some elseArm => exact ⟨hlasts thenArm type h.1 hfinal, hlasts elseArm type h.2 hfinal⟩
  | jump jump value =>
    cases jump with
    | afterLoop | nextRound => exact h
    | toCaller =>
      cases value with
      | none => exact h
      | some value =>
        obtain ⟨found, hfound, hfoundFinal⟩ := hparts value (List.mem_singleton.mpr rfl)
        refine ⟨h.1, ?_⟩
        rw [hlasts value found hfound hfoundFinal, ← hfound]
        exact h.2
  | _ => exact h

namespace Flows

variable {result : Option TypeId} {loop : Bool}

theorem exists_type (h : Flows cx s result loop id) :
    ∃ type, s.annotations.get? id = some type ∧ type ≠ .auto := by
  obtain ⟨-, htype, hfinal, -, -⟩ := h
  exact ⟨_, htype, hfinal⟩

/-- Every node below has a final type. -/
theorem exists_type_below (h : Flows cx s result loop id) {x : NodeId} (hx : cx.arena.Below id x) :
    ∃ type, s.annotations.get? x = some type ∧ type ≠ .auto := by
  induction h with
  | @intro loop id node type hnode htype hfinal _ _ ih =>
    obtain rfl | ⟨child, ⟨node', hnode', hchild⟩, hbelow⟩ := ReflTransGen.cases_head hx
    · exact ⟨type, htype, hfinal⟩
    · obtain rfl : node' = node := Option.some.inj (hnode'.symm.trans hnode)
      exact ih child hchild hbelow

/-- What holds of control flow goes on holding while final types stay. -/
theorem mono (hlasts : Lasts s s') (h : Flows cx s result loop id) :
    Flows cx s' result loop id := by
  induction h with
  | @intro loop id node type hnode htype hfinal hrule hparts ih =>
    refine .intro hnode (hlasts id type htype hfinal) hfinal ?_ ih
    exact hrule.lasts hlasts hfinal fun child hchild => (hparts child hchild).exists_type

end Flows

/-! ## Going on in the same place -/

/-- The later state goes on from the earlier one, in the same function and the same loop. -/
structure Proceeds (cx : Setting) (s s' : State) : Prop where
  later : Later (fun _ => True) s s'
  carries : Carries .known [] cx s s'
  result : s'.scope.enclosingResult? = s.scope.enclosingResult?
  inLoop : s'.scope.inLoop = s.scope.inLoop

/-- Every type that the check can come by is known in full, and `auto` is what it says. -/
structure Aware (cx : Setting) (s : State) : Prop extends Knows .known [] cx s where
  auto : s.table.form? .auto = some .auto

theorem Aware.ne_auto (h : Aware cx s) (htype : s.table.Known type) : type ≠ .auto :=
  htype.ne_auto h.auto

namespace Proceeds

theorem aware (h : Proceeds cx s s') (hs : Aware cx s) : Aware cx s' :=
  ⟨h.carries hs.toKnows, h.later.table.form? hs.auto⟩

theorem refl (cx : Setting) (s : State) : Proceeds cx s s := ⟨.refl _ s, id, rfl, rfl⟩

theorem trans (h : Proceeds cx s s₁) (h' : Proceeds cx s₁ s₂) : Proceeds cx s s₂ :=
  ⟨h.later.trans h'.later, h'.carries ∘ h.carries, h'.result.trans h.result,
    h'.inLoop.trans h.inLoop⟩

theorem of_table {table : TypeTable} (h : s.table.Extends table) : Proceeds cx s { s with table } :=
  ⟨.of_table h, fun hs => hs.withTable fun _ hid => hid.extends h, rfl, rfl⟩

theorem of_block {scope : Scope} (h : s.scope.push .block = .ok scope) :
    Proceeds cx s { s with scope } := by
  refine ⟨.of_scope s scope, fun hs => hs.push h nofun, ?_, ?_⟩ <;>
    obtain ⟨-, rfl⟩ := Scope.push_eq_ok.mp h <;> rfl

end Proceeds

/-- Inference leaves a function and a loop as it found them. -/
theorem inferAt_proceeds {depth : Nat} (h : inferAt cx depth id s = .ok type s') :
    Proceeds cx s s' := by
  have hscope : s.scope.Gains _ s'.scope := (inferAt_scope depth id).ok h
  exact ⟨(inferAt_later (fun _ _ _ _ => trivial) depth id trivial).ok h,
    ((inferAt_reveals depth).carries id).ok h, hscope.enclosingResult?_eq, hscope.inLoop_eq⟩

theorem proceeds_of_markVariable {declared : TypeId} (hnode : cx.arena.node? id = some node)
    (hkind : node.kind.isVar = true) (h : markVariable id declared s = .ok () s') :
    Proceeds cx s s' ∧ s'.scope = s.scope := by
  have hlater : Later (fun _ => True) s s' :=
    (markVariable_goes (annotateProvisional_later trivial).goes declared).ok h
  have hscope : s'.scope = s.scope := by
    unfold markVariable at h
    split at h
    · obtain ⟨annotations, -, rfl⟩ := annotateProvisional_eq_ok.mp h
      rfl
    · rw [(pure_eq_ok.mp h).2]
  exact ⟨⟨hlater, (markVariable_carries hnode hkind declared).ok h, by rw [hscope],
    by rw [hscope]⟩, hscope⟩

/-! ## Parts one after another -/

/-- Nodes are inferred one after another. -/
inductive Chain (infer : Infer) : State → List NodeId → List TypeId → State → Prop
  | nil {s : State} : Chain infer s [] [] s
  | cons {s s₁ s' : State} {id : NodeId} {type : TypeId} {ids : List NodeId} {types : List TypeId}
      (hfirst : infer id s = .ok type s₁) (hrest : Chain infer s₁ ids types s') :
      Chain infer s (id :: ids) (type :: types) s'

namespace Chain

theorem single (h : infer id s = .ok type s') : Chain infer s [id] [type] s' := .cons h .nil

theorem append {ids' : List NodeId} {types' : List TypeId} (h : Chain infer s ids types s₁)
    (h' : Chain infer s₁ ids' types' s') : Chain infer s (ids ++ ids') (types ++ types') s' := by
  induction h with
  | nil => exact h'
  | cons hfirst _ ih => exact .cons hfirst (ih h')

theorem proceeds (hinfer : ∀ {id s type s'}, infer id s = .ok type s' → Proceeds cx s s')
    (h : Chain infer s ids types s') : Proceeds cx s s' := by
  induction h with
  | nil => exact .refl cx _
  | cons hfirst _ ih => exact (hinfer hfirst).trans ih

end Chain

theorem chain_of_inferAll (h : inferAll infer ids s = .ok types s') :
    Chain infer s ids types s' := by
  induction ids generalizing s types with
  | nil =>
    obtain ⟨rfl, rfl⟩ := pure_eq_ok.mp h
    exact .nil
  | cons id ids ih =>
    obtain ⟨type, s₁, rest, hfirst, hrest, rfl⟩ := inferAll_cons_eq_ok.mp h
    exact .cons hfirst (ih hrest)

theorem chain_of_inferOptional {part : Option NodeId}
    (h : inferOptional infer part s = .ok type s') :
    Chain infer s part.toList (part.toList.map fun _ => type) s' := by
  cases part with
  | none =>
    obtain ⟨rfl, rfl⟩ := pure_eq_ok.mp h
    exact .nil
  | some id => exact .single h

/-- The type that statements leave behind, with `last` for what stood before them. -/
theorem chain_of_inferStatements {last : TypeId}
    (h : inferStatements cx infer last ids s = .ok type s') :
    ∃ types, Chain infer s ids types s' ∧
      match ids.getLast?, types.getLast? with
      | some id, some found => ∃ node, cx.arena.node? id = some node ∧
        type = if node.kind.isDefinition || node.kind.isJump then .noValue else found
      | _, _ => type = last := by
  induction ids generalizing s last with
  | nil =>
    obtain ⟨rfl, rfl⟩ := pure_eq_ok.mp h
    exact ⟨[], .nil, rfl⟩
  | cons id ids ih =>
    obtain ⟨first, s₁, node, hfirst, hnode, hrest⟩ := inferStatements_cons_eq_ok h
    obtain ⟨types, hchain, htype⟩ := ih hrest
    refine ⟨first :: types, .cons hfirst hchain, ?_⟩
    cases hchain with
    | nil => exact ⟨node, hnode, htype⟩
    | cons _ _ => exact htype

theorem blockType_of_types {statements : List NodeId}
    (h : List.Forall₂ (fun id type => s.annotations.get? id = some type) statements types)
    (hlast : match statements.getLast?, types.getLast? with
      | some id, some found => ∃ node, cx.arena.node? id = some node ∧
        type = if node.kind.isDefinition || node.kind.isJump then .noValue else found
      | _, _ => type = .noValue) : BlockType cx s statements type := by
  unfold BlockType
  rw [← List.head?_reverse, ← List.head?_reverse] at hlast
  rw [← List.head?_reverse]
  have hreverse := List.forall₂_reverse_iff.mpr h
  generalize statements.reverse = ids, types.reverse = types at hlast hreverse ⊢
  cases hreverse with
  | nil => exact hlast
  | cons htype _ =>
    obtain ⟨node, hnode, rfl⟩ := hlast
    refine ⟨node, hnode, ?_⟩
    split
    · rfl
    · exact htype

theorem exists_of_forall₂ {r : NodeId → TypeId → Prop} (h : List.Forall₂ r ids types)
    (hid : id ∈ ids) : ∃ type, r id type := by
  induction h with
  | nil => cases hid
  | cons hfirst _ ih =>
    obtain rfl | hid := List.mem_cons.mp hid
    · exact ⟨_, hfirst⟩
    · exact ih hid

/-! ## Rules -/

/-- The node has the type, and control flow below it is in its place. -/
structure Situated (cx : Setting) (s : State) (result : Option TypeId) (loop : Bool) (id : NodeId)
    (type : TypeId) : Prop where
  type : s.annotations.get? id = some type
  flows : Flows cx s result loop id

theorem Situated.lasts {result : Option TypeId} {loop : Bool}
    (h : Situated cx s result loop id type) (hlasts : Lasts s s') :
    Situated cx s' result loop id type := by
  obtain ⟨found, hfound, hfinal⟩ := h.flows.exists_type
  obtain rfl := Option.some.inj (h.type.symm.trans hfound)
  exact ⟨hlasts id type h.type hfinal, h.flows.mono hlasts⟩

/-- What is known about the inference of the parts of a node: it goes on in the same place, and puts
control flow in its place. -/
structure Situates (cx : Setting) (infer : Infer) : Prop where
  proceeds : ∀ {id s type s'}, infer id s = .ok type s' → Proceeds cx s s'
  situated : ∀ {id s type s'}, Aware cx s → infer id s = .ok type s' →
    Situated cx s' s.scope.enclosingResult? s.scope.inLoop id type

theorem Chain.situated (hsituates : Situates cx infer) (hs : Aware cx s)
    (h : Chain infer s ids types s₁) (hlater : Later (fun _ => True) s₁ s') :
    List.Forall₂ (Situated cx s' s.scope.enclosingResult? s.scope.inLoop) ids types := by
  induction h with
  | nil => exact .nil
  | cons hfirst hrest ih =>
    have hproceeds := hsituates.proceeds hfirst
    have hlast := (hrest.proceeds hsituates.proceeds).later.trans hlater
    have hsituated := ih (hproceeds.aware hs) hlater
    rw [hproceeds.result, hproceeds.inLoop] at hsituated
    exact .cons ((hsituates.situated hs hfirst).lasts hlast.lasts) hsituated

/-- What is to be shown of a rule: it is kept to, and control flow below the parts is in its
place. -/
def RuleFlows (cx : Setting) (s s' : State) (kind : NodeKind) (type : TypeId) : Prop :=
  FlowRule cx s' s.scope.enclosingResult? s.scope.inLoop type kind ∧
    ∀ child ∈ kind.children,
      Flows cx s' s.scope.enclosingResult? (s.scope.inLoop || kind.isLoop) child

/-- Outside loops, the parts are in the same place as the node. -/
theorem RuleFlows.of_parts {kind : NodeKind} (hloop : kind.isLoop = false)
    (hparts : List.Forall₂ (Situated cx s' s.scope.enclosingResult? s.scope.inLoop)
      kind.children types)
    (hrule : FlowRule cx s' s.scope.enclosingResult? s.scope.inLoop type kind) :
    RuleFlows cx s s' kind type := by
  refine ⟨hrule, fun child hchild => ?_⟩
  obtain ⟨_, hsituated⟩ := exists_of_forall₂ hparts hchild
  rw [hloop, Bool.or_false]
  exact hsituated.flows

section Rules

variable (hsituates : Situates cx infer) (hs : Aware cx s)

include hsituates hs

/-- A callee that is no value gets the signature that was selected. -/
theorem inferCall_flows {callee : NodeId} {args : List NodeId}
    (h : inferCall cx infer callee args s = .ok type s') :
    RuleFlows cx s s' (.call callee args) type := by
  obtain ⟨argTypes, s₁, calleeNode, hargs, hnode, hways⟩ := inferCall_eq_ok h
  have hchain := chain_of_inferAll hargs
  have hproceeds := hchain.proceeds hsituates.proceeds
  have hs₁ := hproceeds.aware hs
  have hassemble : ∀ {calleeType}, Later (fun _ => True) s₁ s' →
      Situated cx s' s₁.scope.enclosingResult? s₁.scope.inLoop callee calleeType →
      RuleFlows cx s s' (.call callee args) type := by
    intro calleeType hlater hcallee
    rw [hproceeds.result, hproceeds.inLoop] at hcallee
    exact .of_parts rfl (.cons hcallee (hchain.situated hsituates hs hlater)) trivial
  obtain ⟨symbol, signature, annotations, hkind, -, hselects, hset, rfl, -⟩ |
    ⟨base, name, receiver, s₂, signature, annotations, hkind, -, hbase, hselects, hset, rfl, -⟩ |
    ⟨calleeType, -, hcallee, -⟩ := hways
  · have htype : annotations.get? callee = some signature := by
      rw [Annotations.get?_of_set hset, if_pos rfl]
    refine hassemble (.of_annotations (.of_set trivial hset)) ⟨htype, .intro hnode htype
      (hs₁.ne_auto (hs₁.overloads symbol signature hselects.mem)) ?_ ?_⟩
    · rw [hkind]
      trivial
    · rw [hkind]
      exact List.forall_mem_nil _
  · have htype : annotations.get? callee = some signature := by
      rw [Annotations.get?_of_set hset, if_pos rfl]
    have hbaseProceeds := hsituates.proceeds hbase
    have hset' : Later (fun _ => True) s₂ { s₂ with annotations } :=
      .of_annotations (.of_set trivial hset)
    have hs₂ := hbaseProceeds.aware hs₁
    refine hassemble (hbaseProceeds.later.trans hset') ⟨htype, .intro hnode htype
      (hs₂.ne_auto (hs₂.members name signature hselects.mem)) ?_ ?_⟩
    · rw [hkind]
      trivial
    · rw [hkind]
      simp only [NodeKind.children, NodeKind.isLoop, Bool.or_false, List.forall_mem_singleton]
      exact ((hsituates.situated hs₁ hbase).lasts hset'.lasts).flows
  · exact hassemble (hsituates.proceeds hcallee).later (hsituates.situated hs₁ hcallee)

/-- In the frame of the loop, the same function is around, and a loop is. -/
theorem inferLoop_flows {start : Option NodeId} {condition body : NodeId}
    (h : inferLoop cx infer start condition body s = .ok type s') :
    RuleFlows cx s s' (.loop start condition body) type := by
  obtain ⟨opened, s₁, s₂, s₃, closed, startType, bodyType, hpush, hstart, hcondition, hbody, -, rfl,
    rfl⟩ := inferLoop_eq_ok h
  have hopened : Aware cx { s with scope := opened } := ⟨hs.toKnows.push hpush nofun, hs.auto⟩
  have hchain := (chain_of_inferOptional hstart).append (.cons hcondition (.single hbody))
  have hsituated := hchain.situated hsituates hopened (.of_scope s₃ closed)
  refine ⟨rfl, fun child hchild => ?_⟩
  obtain ⟨_, hchildSituated⟩ := exists_of_forall₂ hsituated hchild
  obtain ⟨-, rfl⟩ := Scope.push_eq_ok.mp hpush
  rw [NodeKind.isLoop, Bool.or_true]
  exact hchildSituated.flows

/-- A `return` carries the result of the function around, and other jumps have a loop around. -/
theorem inferJump_flows {kind : Jump} {value : Option NodeId} {span : Span}
    (h : inferJump infer kind value span s = .ok type s') :
    RuleFlows cx s s' (.jump kind value) type := by
  obtain ⟨found, hvalue, rfl, hresult⟩ := inferJump_eq_ok h
  have hparts := (chain_of_inferOptional hvalue).situated hsituates hs (.refl _ s')
  refine .of_parts rfl hparts ?_
  cases kind with
  | afterLoop | nextRound => exact inLoop_of_inferJump h nofun
  | toCaller =>
    cases value with
    | none =>
      obtain ⟨rfl, -⟩ := pure_eq_ok.mp hvalue
      exact hresult rfl
    | some value =>
      have htype := (List.forall₂_cons.mp hparts).1.type
      rw [hresult rfl]
      exact ⟨nofun, htype⟩

/-- When the rule of a node answers, control flow below its parts is in its place. -/
theorem inferNode_flows (hnode : cx.arena.node? id = some node)
    (h : inferNode cx infer id node s = .ok type s') : RuleFlows cx s s' node.kind type := by
  have hparts : ∀ {ids types s₁ s₂}, Proceeds cx s s₁ → Chain infer s₁ ids types s₂ →
      Later (fun _ => True) s₂ s' →
      List.Forall₂ (Situated cx s' s.scope.enclosingResult? s.scope.inLoop) ids types := by
    intro ids types s₁ s₂ hproceeds hchain hlater
    rw [← hproceeds.result, ← hproceeds.inLoop]
    exact hchain.situated hsituates (hproceeds.aware hs) hlater
  have hchained : ∀ {ids types}, Chain infer s ids types s' →
      List.Forall₂ (Situated cx s' s.scope.enclosingResult? s.scope.inLoop) ids types :=
    fun hchain => hparts (.refl cx s) hchain (.refl _ s')
  unfold inferNode at h
  generalize hkind : node.kind = kind at h
  cases kind with
  | identifier | number | string => exact .of_parts rfl .nil trivial
  | member base field =>
    obtain ⟨baseType, hbase, -⟩ := inferMember_eq_ok h
    exact .of_parts rfl (hchained (.single hbase)) trivial
  | index base position =>
    obtain ⟨baseType, form, s₁, hbase, -, -, hposition⟩ := inferIndex_eq_ok h
    exact .of_parts rfl (hchained (.cons hbase (.single hposition))) trivial
  | call callee args => exact inferCall_flows hsituates hs h
  | binary symbol left right =>
    obtain ⟨leftType, rightType, s₁, hleft, hright, -⟩ := inferBinary_eq_ok h
    exact .of_parts rfl (hchained (.cons hleft (.single hright))) trivial
  | unary symbol operand =>
    obtain ⟨operandType, s₁, hoperand, hways⟩ := inferUnary_eq_ok h
    have hlater : Later (fun _ => True) s₁ s' := by
      obtain ⟨-, -, table, hintern, rfl⟩ | ⟨-, -, rfl⟩ | ⟨-, -, -, rfl⟩ := hways
      · exact .of_table ((TypeTable.internPointer_moves _).ok hintern)
      · exact .refl _ _
      · exact .refl _ _
    exact .of_parts rfl (hparts (.refl cx s) (.single hoperand) hlater) trivial
  | assign target value =>
    obtain ⟨sideType, s₁, htarget, hvalue, -, rfl⟩ := inferAssign_eq_ok h
    exact .of_parts rfl (hchained (.cons htarget (.single hvalue))) rfl
  | literal written members =>
    obtain ⟨memberTypes, s₁, table, hmembers, hextends, rfl, -⟩ := inferLiteral_eq_ok h
    exact .of_parts rfl (hparts (.refl cx s) (chain_of_inferAll hmembers) (.of_table hextends))
      trivial
  | branch condition thenArm elseArm =>
    obtain ⟨thenType, s₁, s₂, hcondition, hthen, ⟨rfl, rfl, rfl⟩ | ⟨arm, rfl, helse, rfl⟩⟩ :=
      inferBranch_eq_ok h
    · exact .of_parts rfl (hchained (.cons hcondition (.single hthen))) rfl
    · have hsituated := hchained (.cons hcondition (.cons hthen (.single helse)))
      obtain ⟨-, hrest⟩ := List.forall₂_cons.mp hsituated
      obtain ⟨hthenSituated, hrest⟩ := List.forall₂_cons.mp hrest
      exact .of_parts rfl hsituated ⟨hthenSituated.type, (List.forall₂_cons.mp hrest).1.type⟩
  | loop start condition body => exact inferLoop_flows hsituates hs h
  | block statements =>
    obtain ⟨opened, s₁, closed, hpush, hstatements, -, rfl⟩ := inferBlock_eq_ok h
    obtain ⟨types, hchain, hlast⟩ := chain_of_inferStatements hstatements
    have hsituated := hparts (.of_block hpush) hchain (.of_scope s₁ closed)
    exact .of_parts rfl hsituated (blockType_of_types (hsituated.imp fun _ _ h => h.type) hlast)
  | jump kind value => exact inferJump_flows hsituates hs h
  | var name written start =>
    obtain ⟨declared, table, s₁, s₂, scope, hresolve, hmark, hstart, -, -, -, rfl⟩ :=
      inferVariable_eq_ok h
    have htable : Proceeds cx s { s with table } :=
      .of_table ((TypeExpr.resolve_moves _ _).ok hresolve)
    have hmarked := (proceeds_of_markVariable hnode (by rw [hkind]; rfl) hmark).1
    exact .of_parts rfl (hparts (htable.trans hmarked) (.single hstart) (.of_scope s₂ scope))
      trivial
  | function | foreign | struct => exact (report_eq_ok.mp h).elim

end Rules

/-! ## Nodes -/

/-- **Inference puts control flow in its place.** When the inference of a node answers, everything
below the node has a final type, and control flow is where it may be. -/
theorem inferAt_flows (depth : Nat) : ∀ {id s type s'}, Aware cx s →
    inferAt cx depth id s = .ok type s' → s'.annotations.get? id = some type ∧
      Flows cx s' s.scope.enclosingResult? s.scope.inLoop id := by
  induction depth with
  | zero => exact fun _ h => (throw_eq_ok.mp h).elim
  | succ depth ih =>
    intro id s type s' hs h
    have hfinal : type ≠ .auto :=
      ((inferAt_proceeds h).aware hs).ne_auto ((inferAt_reveals _).clear hs.toKnows h)
    obtain ⟨node, s₁, annotations, hnode, hrule, hset, rfl⟩ := inferAt_succ_eq_ok h
    have hlasts : Lasts s₁ { s₁ with annotations } :=
      (Annotations.Grows.of_set (N := fun _ => True) trivial hset).final
    have hsituates : Situates cx (inferAt cx depth) :=
      ⟨inferAt_proceeds, fun hs h => ⟨(ih hs h).1, (ih hs h).2⟩⟩
    obtain ⟨hkept, hchildren⟩ := inferNode_flows hsituates hs hnode hrule
    have htype : annotations.get? id = some type := by
      rw [Annotations.get?_of_set hset, if_pos rfl]
    refine ⟨htype, .intro hnode htype hfinal ?_ fun child hchild =>
      (hchildren child hchild).mono hlasts⟩
    exact hkept.lasts hlasts hfinal fun child hchild => (hchildren child hchild).exists_type

end Check

end RuleTypes
