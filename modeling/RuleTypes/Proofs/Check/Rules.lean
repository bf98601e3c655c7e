import RuleTypes.Check.Inference
import RuleTypes.Proofs.Check.Answers

/-!
# Rules however they end

Every rule looks at the parts of its node, reads the state and extends the table. So what the
inference of the parts does to a state, the rule does too, for every pair of relations that
extending the table respects (`Extensible`). Each rule is followed once, with the inference of its
parts as a parameter. Left to the relations at hand are the steps that write (`inferNode_goes`):
blocks and loops, which open frames, variables, which are bound, and callees, which get a type.
-/

namespace RuleTypes

/-- Whether the parts of the node have a frame of their own. -/
def NodeKind.opensFrame : NodeKind → Bool
  | block _ | loop .. => true
  | _ => false

namespace Check

/-- Relations that extending the table respects. -/
class Extensible (R : State → State → Prop) (E : Failure Finding → State → State → Prop) : Prop
    extends Follows R E where
  table : ∀ s table, s.table.Extends table → R s { s with table }

variable {cx : Setting} {infer : Infer} {R : State → State → Prop}
  {E : Failure Finding → State → State → Prop} [Extensible R E]

theorem goes_of_extended {α : Type} {x : Check α} (h : Moves Extended x) : Goes R E x :=
  .of_moves (h.mono fun s _ ⟨table, hextends, heq⟩ => heq ▸ Extensible.table E s table hextends)

/-! ## Places -/

theorem inferAll_goes {ids : List NodeId} (h : ∀ id ∈ ids, Goes R E (infer id)) :
    Goes R E (inferAll infer ids) := by
  induction ids with
  | nil => exact .pure _
  | cons id ids ih =>
    exact .bind (h id (List.mem_cons_self ..)) fun _ =>
      .bind (ih fun i hi => h i (List.mem_cons_of_mem _ hi)) fun _ => .pure _

theorem inferIdentifier_moves {R : State → State → Prop} [IsPreorder State R] (name : String)
    (span : Span) : Moves R (inferIdentifier name span) := by
  refine .bind (lookup_moves name) fun binding => ?_
  cases binding with
  | some binding => exact .pure _
  | none => exact report_moves _ _

theorem inferMember_goes {base : NodeId} (h : Goes R E (infer base)) (field : String)
    (span : Span) : Goes R E (inferMember infer base field span) := by
  refine .bind h fun baseType => .reads (.bind (inspect_moves _) fun owner => ?_)
  rcases owner with _ | ⟨owner, fields⟩
  · exact .bind (textOf_moves _) fun _ => report_moves _ _
  · dsimp only
    split
    · exact .pure _
    · exact .bind (textOf_moves _) fun _ => report_moves _ _

theorem inferIndex_goes {base position : NodeId} (hbase : Goes R E (infer base))
    (hposition : Goes R E (infer position)) : Goes R E (inferIndex cx infer base position) := by
  refine .bind hbase fun baseType => .bind (.reads (formOf_moves _)) fun form => ?_
  split
  · exact .reads (.bind (textOf_moves _) fun _ => .bind (nodeOf_moves _ _) fun _ =>
      report_moves _ _)
  · exact .bind hposition fun found => .reads (.bind (nodeOf_moves _ _) fun _ =>
      .bind (requireFit_moves _ _ _ _ _) fun _ => .pure _)

theorem inferAssign_goes {target value : NodeId} (htarget : Goes R E (infer target))
    (hvalue : Goes R E (infer value)) (span : Span) :
    Goes R E (inferAssign cx infer target value span) :=
  .bind (.reads (nodeOf_moves _ _)) fun _ => .bind (.reads (isAssignable_moves _)) fun _ =>
    .bind (.reads (require_moves _ (.pure _) _)) fun _ => .bind htarget fun _ =>
    .bind hvalue fun _ => .reads (.bind (requireFit_moves _ _ _ _ _) fun _ => .pure _)

/-! ## Calls and operators -/

theorem selectOperator_moves {R : State → State → Prop} [IsPreorder State R] (symbol : String)
    (args : List TypeId) (span : Span) : Moves R (selectOperator cx symbol args span) :=
  .bind .get fun _ => select_moves _ _ _ _

theorem selectMember_goes {base : NodeId} (h : Goes R E (infer base)) (name : String)
    (args : List TypeId) (span : Span) : Goes R E (selectMember infer base name args span) := by
  refine .bind h fun receiver => .reads (.bind (inspect_moves _) fun owner => ?_)
  have hselect : Moves Eq (do
      let candidates := ((← get).members.get? name).getD []
      select name candidates (receiver :: args) span) := .bind .get fun _ => select_moves _ _ _ _
  rcases owner with _ | ⟨owner, fields⟩
  · exact hselect
  · exact .bind (require_moves _ (.bind (textOf_moves _) fun _ => .pure _) _) fun _ => hselect

theorem applyValue_moves {R : State → State → Prop} [IsPreorder State R] (calleeType : TypeId)
    (callee : NodeId) (args : List NodeId) (argTypes : List TypeId) :
    Moves R (applyValue cx calleeType callee args argTypes) := by
  refine .bind (nodeOf_moves _ _) fun node => .bind (formOf_moves _) fun form => ?_
  split
  · exact .bind (textOf_moves _) fun _ => report_moves _ _
  · refine .bind (require_moves _ ?_ _) fun _ => ?_
    · split
      · exact .bind (.pure _) fun _ => .pure _
      · exact .bind (textOf_moves _) fun _ => .pure _
    · split
      · exact .pure _
      · refine .bind (textOf_moves _) fun _ => .bind (textOf_moves _) fun _ => ?_
        split
        · exact .bind (nodeOf_moves _ _) fun _ => report_moves _ _
        · exact .throw _

theorem calleeOf_moves {R : State → State → Prop} [IsPreorder State R] (kind : NodeKind) :
    Moves R (calleeOf cx kind) := by
  unfold calleeOf
  split
  · refine .bind (lookup_moves _) fun _ => .bind (isOperator_moves _) fun _ => ?_
    split <;> exact .pure _
  · refine .bind .get fun _ => ?_
    split <;> exact .pure _
  · exact .pure _

/-- A callee that gets the type of an operator or a member function is no definition. -/
theorem inferCall_goes {callee : NodeId} {args : List NodeId}
    (hargs : ∀ id ∈ args, Goes R E (infer id)) (hvalue : Goes R E (infer callee))
    (hcallee : ∀ node, cx.arena.node? callee = some node → node.kind.isDefinition = false →
      ∀ type, Goes R E (annotate callee type))
    (hbase : ∀ node base field, cx.arena.node? callee = some node →
      node.kind = .member base field → Goes R E (infer base)) :
    Goes R E (inferCall cx infer callee args) := by
  refine .bind (inferAll_goes hargs) fun argTypes => .bind_of (.reads (nodeOf_moves _ _)) ?_
  intro node s s' hread
  obtain ⟨hnode, -⟩ := nodeOf_eq_ok.mp hread
  refine .bind_of (.reads (calleeOf_moves _)) fun way s s' hway => ?_
  cases way with
  | operator symbol =>
    obtain ⟨hkind, -, -⟩ := calleeOf_eq_operator hway
    exact .bind (.reads (selectOperator_moves _ _ _)) fun _ =>
      .bind (hcallee node hnode (by rw [hkind]; rfl) _) fun _ => .reads (resultOf_moves _)
  | member base name =>
    obtain ⟨hkind, -, -⟩ := calleeOf_eq_member hway
    exact .bind (selectMember_goes (hbase node base name hnode hkind) _ _ _) fun _ =>
      .bind (hcallee node hnode (by rw [hkind]; rfl) _) fun _ => .reads (resultOf_moves _)
  | value => exact .bind hvalue fun _ => .reads (applyValue_moves _ _ _ _)

theorem inferBinary_goes {left right : NodeId} (hleft : Goes R E (infer left))
    (hright : Goes R E (infer right)) (symbol : String) (span : Span) :
    Goes R E (inferBinary cx infer symbol left right span) :=
  .bind hleft fun _ => .bind hright fun _ =>
    .reads (.bind (selectOperator_moves _ _ _) fun _ => resultOf_moves _)

theorem inferUnary_goes {operand : NodeId} (h : Goes R E (infer operand)) (symbol : String)
    (span : Span) : Goes R E (inferUnary cx infer symbol operand span) := by
  refine .bind h fun type => ?_
  split
  · exact .bind (.reads (require_moves _ (.bind (textOf_moves _) fun _ => .pure _) _)) fun _ =>
      goes_of_extended (onTable_extended (TypeTable.internPointer_moves _))
  · refine .reads ?_
    split
    · refine .bind (formOf_moves _) fun form => ?_
      split
      · exact .pure _
      · exact .bind (textOf_moves _) fun _ => report_moves _ _
    · exact .bind (selectOperator_moves _ _ _) fun _ => resultOf_moves _

/-! ## Structs and slices written out -/

theorem reportFlaw_moves {α : Type} {R : State → State → Prop} [IsPreorder State R]
    (owner : TypeId) (fieldCount : Nat) (members : Members) (position : Nat) (flaw : MemberFlaw)
    (span : Span) :
    Moves R (reportFlaw (α := α) cx owner fieldCount members position flaw span) := by
  unfold reportFlaw
  split
  · exact .throw _
  · refine .bind (nodeOf_moves _ _) fun _ => ?_
    cases flaw with
    | unknownField | tooMany | repeated => exact .bind (textOf_moves _) fun _ => report_moves _ _
    | mismatch =>
      exact .bind (textOf_moves _) fun _ => .bind (textOf_moves _) fun _ => report_moves _ _

theorem inferTyped_extended (type : TypeExpr) (members : Members) (memberTypes : List TypeId)
    (span : Span) : Moves Extended (inferTyped cx type members memberTypes span) := by
  refine .bind (resolveConcrete_extended _ _) fun owner => .bind (formOf_moves _) fun form => ?_
  dsimp only
  split
  · split
    · exact .pure _
    · exact reportFlaw_moves _ _ _ _ _ _
  · split
    · exact .pure _
    · exact reportFlaw_moves _ _ _ _ _ _
  · exact .bind (textOf_moves _) fun _ => report_moves _ _

theorem recordFields_moves {R : State → State → Prop} [IsPreorder State R] (position : Nat)
    (members : Members) (types : List TypeId) :
    Moves R (recordFields cx position members types) := by
  induction members generalizing position types with
  | nil => exact .pure _
  | cons member members ih =>
    cases types with
    | nil => exact .pure _
    | cons type types =>
      unfold recordFields
      dsimp only
      split
      · exact .bind (nodeOf_moves _ _) fun _ => report_moves _ _
      · exact .bind (ih _ _) fun _ => .pure _

theorem inferLiteral_goes {members : Members} (h : ∀ id ∈ members.map (·.2), Goes R E (infer id))
    (type : Option TypeExpr) (span : Span) :
    Goes R E (inferLiteral cx infer type members span) := by
  refine .bind (inferAll_goes h) fun memberTypes => goes_of_extended ?_
  cases type with
  | some type => exact inferTyped_extended _ _ _ _
  | none =>
    exact .bind (recordFields_moves _ _ _) fun _ =>
      onTable_extended (TypeTable.internRecord_moves _)

/-! ## Blocks, branches, loops and jumps -/

theorem inferStatements_goes {last : TypeId} {ids : List NodeId}
    (h : ∀ id ∈ ids, Goes R E (infer id)) : Goes R E (inferStatements cx infer last ids) := by
  induction ids generalizing last with
  | nil => exact .pure _
  | cons id ids ih =>
    exact .bind (h id (List.mem_cons_self ..)) fun _ => .bind (.reads (nodeOf_moves _ _)) fun _ =>
      ih fun i hi => h i (List.mem_cons_of_mem _ hi)

/-- A block, for relations that opening and closing a frame respects. -/
theorem inferBlock_goes {statements : List NodeId} (hopen : Goes R E (openFrame .block))
    (hclose : Goes R E closeFrame) (h : ∀ id ∈ statements, Goes R E (infer id)) :
    Goes R E (inferBlock cx infer statements) :=
  .bind hopen fun _ => .bind (inferStatements_goes h) fun _ => .bind hclose fun _ => .pure _

theorem inferCondition_goes {condition : NodeId} (h : Goes R E (infer condition)) :
    Goes R E (inferCondition cx infer condition) :=
  .bind h fun _ => .reads (.bind (nodeOf_moves _ _) fun _ => requireTruth_moves _ _ _)

theorem inferOptional_goes {part : Option NodeId} (h : ∀ id ∈ part.toList, Goes R E (infer id)) :
    Goes R E (inferOptional infer part) := by
  cases part with
  | none => exact .pure _
  | some id => exact h id (List.mem_singleton.mpr rfl)

theorem inferBranch_goes {condition thenArm : NodeId} {elseArm : Option NodeId}
    (hcondition : Goes R E (infer condition)) (hthen : Goes R E (infer thenArm))
    (helse : ∀ id ∈ elseArm.toList, Goes R E (infer id)) (span : Span) :
    Goes R E (inferBranch cx infer condition thenArm elseArm span) := by
  refine .bind (inferCondition_goes hcondition) fun _ => .bind hthen fun _ => ?_
  cases elseArm with
  | none => exact .pure _
  | some arm =>
    exact .bind (helse arm (List.mem_singleton.mpr rfl)) fun _ =>
      .reads (.bind (requireFit_moves _ _ _ _ _) fun _ => .pure _)

/-- A loop, for relations that opening and closing a frame respects. -/
theorem inferLoop_goes {start : Option NodeId} {condition body : NodeId}
    (hopen : Goes R E (openFrame .loop)) (hclose : Goes R E closeFrame)
    (hstart : ∀ id ∈ start.toList, Goes R E (infer id)) (hcondition : Goes R E (infer condition))
    (hbody : Goes R E (infer body)) : Goes R E (inferLoop cx infer start condition body) :=
  .bind hopen fun _ => .bind (inferOptional_goes hstart) fun _ =>
    .bind (inferCondition_goes hcondition) fun _ => .bind hbody fun _ => .bind hclose fun _ =>
    .pure _

theorem inferJump_goes {value : Option NodeId} (h : ∀ id ∈ value.toList, Goes R E (infer id))
    (kind : Jump) (span : Span) : Goes R E (inferJump infer kind value span) := by
  cases kind with
  | toCaller =>
    refine .bind .get fun s => ?_
    split
    · exact .reads (report_moves _ _)
    · exact .bind (inferOptional_goes h) fun _ =>
        .reads (.bind (requireFit_moves _ _ _ _ _) fun _ => .pure _)
  | afterLoop | nextRound =>
    exact .bind .get fun _ => .bind (.reads (require_moves _ (.pure _) _)) fun _ =>
      .bind (inferOptional_goes h) fun _ => .pure _

/-! ## Variables -/

theorem markVariable_goes {id : NodeId} (h : Goes R E (annotateProvisional id))
    (declared : TypeId) : Goes R E (markVariable id declared) := by
  unfold markVariable
  split
  · exact h
  · exact .pure _

/-- A variable with what follows it, for relations that binding the variable respects only together
with what follows. -/
theorem inferVariable_bind_goes {β : Type} {follow : TypeId → Check β} {id start : NodeId}
    {name : String} {span : Span} (hprovisional : Goes R E (annotateProvisional id))
    (h : Goes R E (infer start))
    (hbind : ∀ type, Goes R E (do bindName name type .var span; follow type)) (type : TypeExpr) :
    Goes R E (inferVariable infer id name type start span >>= follow) := by
  simp only [inferVariable_eq, settleVariable, bind_assoc, pure_bind]
  exact .bind (goes_of_extended (resolve_extended _ _)) fun _ =>
    .bind (markVariable_goes hprovisional _) fun _ => .bind h fun _ =>
    .bind (.reads (require_moves _ (.pure _) _)) fun _ =>
    .bind (.reads (requireFit_moves _ _ _ _ _)) fun _ => hbind _

theorem inferVariable_goes {id start : NodeId} {name : String} {span : Span}
    (hprovisional : Goes R E (annotateProvisional id)) (h : Goes R E (infer start))
    (hbind : ∀ type, Goes R E (bindName name type .var span)) (type : TypeExpr) :
    Goes R E (inferVariable infer id name type start span) := by
  rw [← bind_pure (inferVariable infer id name type start span)]
  exact inferVariable_bind_goes hprovisional h
    (fun found => .bind (hbind found) fun _ => .pure _) type

/-! ## Nodes -/

/-- What the inference of the parts of a node does, its rule does, given what the rules do that
write something. -/
theorem inferNode_goes_of_writing {id : NodeId} {node : Node}
    (hpart : node.kind.opensFrame = false → ∀ child ∈ node.kind.children, Goes R E (infer child))
    (hcall : ∀ callee args, node.kind = .call callee args →
      Goes R E (inferCall cx infer callee args))
    (hblock : ∀ statements, node.kind = .block statements →
      Goes R E (inferBlock cx infer statements))
    (hloop : ∀ start condition body, node.kind = .loop start condition body →
      Goes R E (inferLoop cx infer start condition body))
    (hvar : ∀ name type start, node.kind = .var name type start →
      Goes R E (inferVariable infer id name type start node.span)) :
    Goes R E (inferNode cx infer id node) := by
  unfold inferNode
  cases hkind : node.kind with
  | identifier name => exact .reads (inferIdentifier_moves _ _)
  | number | string => exact .pure _
  | block statements => exact hblock statements hkind
  | loop start condition body => exact hloop start condition body hkind
  | var name type start => exact hvar name type start hkind
  | function | foreign | struct => exact .reads (report_moves _ _)
  | member base field =>
    rw [hkind] at hpart
    exact inferMember_goes (hpart rfl base (by simp [NodeKind.children])) _ _
  | index base position =>
    rw [hkind] at hpart
    exact inferIndex_goes (hpart rfl base (by simp [NodeKind.children]))
      (hpart rfl position (by simp [NodeKind.children]))
  | call callee args => exact hcall callee args hkind
  | binary symbol left right =>
    rw [hkind] at hpart
    exact inferBinary_goes (hpart rfl left (by simp [NodeKind.children]))
      (hpart rfl right (by simp [NodeKind.children])) _ _
  | unary symbol operand =>
    rw [hkind] at hpart
    exact inferUnary_goes (hpart rfl operand (by simp [NodeKind.children])) _ _
  | assign target value =>
    rw [hkind] at hpart
    exact inferAssign_goes (hpart rfl target (by simp [NodeKind.children]))
      (hpart rfl value (by simp [NodeKind.children])) _
  | literal type members =>
    rw [hkind] at hpart
    exact inferLiteral_goes (hpart rfl) _ _
  | branch condition thenArm elseArm =>
    rw [hkind] at hpart
    exact inferBranch_goes (hpart rfl condition (by simp [NodeKind.children]))
      (hpart rfl thenArm (by simp [NodeKind.children]))
      (fun child hchild =>
        hpart rfl child (List.mem_cons_of_mem _ (List.mem_cons_of_mem _ hchild))) _
  | jump kind value =>
    rw [hkind] at hpart
    exact inferJump_goes (hpart rfl) _ _

/-- The same for relations that respect any type of a callee. -/
theorem inferNode_goes {id : NodeId} {node : Node}
    (hpart : node.kind.opensFrame = false → ∀ child ∈ node.kind.children, Goes R E (infer child))
    (hcallee : ∀ callee calleeNode, callee ∈ node.kind.children → node.kind.opensFrame = false →
      cx.arena.node? callee = some calleeNode → calleeNode.kind.isDefinition = false →
      ∀ type, Goes R E (annotate callee type))
    (hbase : ∀ callee calleeNode base field, callee ∈ node.kind.children →
      node.kind.opensFrame = false → cx.arena.node? callee = some calleeNode →
      calleeNode.kind = .member base field → Goes R E (infer base))
    (hblock : ∀ statements, node.kind = .block statements →
      Goes R E (inferBlock cx infer statements))
    (hloop : ∀ start condition body, node.kind = .loop start condition body →
      Goes R E (inferLoop cx infer start condition body))
    (hvar : ∀ name type start, node.kind = .var name type start →
      Goes R E (inferVariable infer id name type start node.span)) :
    Goes R E (inferNode cx infer id node) := by
  refine inferNode_goes_of_writing hpart (fun callee args hkind => ?_) hblock hloop hvar
  rw [hkind] at hpart hcallee hbase
  exact inferCall_goes (fun arg harg => hpart rfl arg (List.mem_cons_of_mem _ harg))
    (hpart rfl callee (List.mem_cons_self ..))
    (fun calleeNode => hcallee callee calleeNode (List.mem_cons_self ..) rfl)
    (fun calleeNode base field => hbase callee calleeNode base field (List.mem_cons_self ..) rfl)

/-! ## Bodies of functions -/

/-- Checking a function binds its parameters, by the signature that its node has, and then looks at
its body, in a frame of its own. -/
theorem checkFunction_at {R : State → State → Prop} [IsPreorder State R] {s : State}
    {id body : NodeId} {span : Span} {params : List (String × TypeExpr)}
    (hopen : ∀ signature types result, s.annotations.get? id = some signature →
      s.table.form? signature = some (.function types result) →
      R s (endState (openFrame (.function result) s))) (hclose : Moves R closeFrame)
    (hparams : ∀ signature types result opened, s.annotations.get? id = some signature →
      s.table.form? signature = some (.function types result) →
      R { s with scope := opened }
        (endState (bindParams span params types { s with scope := opened })))
    (hbody : Moves R (Check.infer cx body)) (name : String) (kind : FunctionKind) :
    R s (endState (checkFunction cx id span name kind params body s)) := by
  refine Moves.bind_at (inspect_moves _ s) fun signature s₁ hread => ?_
  obtain ⟨hget, rfl⟩ := inspect_eq_ok.mp hread
  have hsignature : s.annotations.get? id = some signature := by
    cases hannotated : s.annotations.get? id <;> simp_all
  refine Moves.bind_at (formOf_moves _ s) fun form s₁ hread => ?_
  obtain ⟨hform, rfl⟩ := formOf_eq_ok.mp hread
  cases hparts : form.signature? with
  | none => exact Moves.throw _ s
  | some parts =>
    obtain ⟨types, result⟩ := parts
    obtain rfl : form = .function types result := by cases form <;> cases hparts; rfl
    refine Moves.bind_at (hopen signature types result hsignature hform) fun _ s₁ hopened => ?_
    obtain ⟨opened, -, rfl⟩ := openFrame_eq_ok.mp hopened
    refine Moves.bind_at (hparams signature types result opened hsignature hform) fun _ s₂ _ => ?_
    exact Moves.bind hbody (fun _ => .bind (inspect_moves _) fun _ => .bind (nodeOf_moves _ _)
      fun _ => .bind (requireFit_moves _ _ _ _ _) fun _ => .bind hclose fun _ =>
      .bind (inspect_moves _) fun _ => .pure _) s₂

end Check

end RuleTypes
