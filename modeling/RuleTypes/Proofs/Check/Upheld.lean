import RuleTypes.Proofs.Check.Rules
import RuleTypes.Proofs.Concur

/-!
# Rules uphold invariants

A rule looks at the parts of its node and takes steps of its own. If these steps uphold an invariant
and lead to types of some kind (`Sustains`), so does the rule as long as the inference of the parts
does (`Sustains.inferNode`). Two inferences of the parts that do the same where the invariant holds
cannot be told apart by the rule, since it calls them only where the invariant holds.
-/

namespace RuleTypes.Check

variable {α : Type} {cx : Setting} {infer infer' : Infer} {I : State → Prop} {Q : TypeId → Prop}

theorem report_upholds {Q : α → Prop} (problem : Problem) (span : Span) :
    Upholds I Q (report problem span : Check α) := .throw _

theorem require_upholds {problem : Check Problem} (holds : Bool) (hproblem : Moves Eq problem)
    (span : Span) : Upholds I (fun _ => holds = true) (require holds problem span) :=
  .of_reads (require_moves _ hproblem _) fun _ _ _ h => (require_eq_ok.mp h).1

/-- The steps that rules take besides looking at parts uphold `I`, and rules that go by the types of
parts in `Q` answer in `Q`. -/
structure Sustains (cx : Setting) (I : State → Prop) (Q : TypeId → Prop) : Prop where
  noValue : Q .noValue
  number : Q cx.builtin.number
  string : Q cx.builtin.string
  openFrame : ∀ kind, Upholds I (fun _ => True) (openFrame kind)
  closeFrame : Upholds I (fun _ => True) closeFrame
  annotate : ∀ id type, Upholds I (fun _ => True) (annotate id type)
  annotateProvisional : ∀ id, Upholds I (fun _ => True) (annotateProvisional id)
  resolve : ∀ written span, Upholds I (fun _ => True) (resolve written span)
  bindName : ∀ name {type}, Q type → type ≠ .noValue → ∀ span,
    Upholds I (fun _ => True) (bindName name type .var span)
  resultOf : ∀ signature, Upholds I Q (resultOf signature)
  element : ∀ type, Upholds I (fun form => ∀ id, form.element? = some id → Q id) (formOf type)
  identifier : ∀ name span, Upholds I Q (inferIdentifier name span)
  applyValue : ∀ type callee args argTypes, Upholds I Q (applyValue cx type callee args argTypes)
  member : ∀ {type}, Q type → ∀ base field span,
    Upholds I Q (inferMember (fun _ => pure type) base field span)
  unary : ∀ {type}, Q type → ∀ symbol operand span,
    Upholds I Q (inferUnary cx (fun _ => pure type) symbol operand span)
  typed : ∀ written members types span, Upholds I Q (inferTyped cx written members types span)
  record : ∀ members {types}, (∀ type ∈ types, Q type) → ∀ span, Upholds I Q (do
    let fields ← recordFields cx 0 members types
    onTable Problem.ofTable span (TypeTable.internRecord fields))

namespace Sustains

variable (hI : Sustains cx I Q) (h : ∀ id, Concur I Q (infer id) (infer' id))

include h in
theorem inferAll (ids : List NodeId) : Concur I (fun types => ∀ type ∈ types, Q type)
    (inferAll infer ids) (inferAll infer' ids) := by
  induction ids with
  | nil => exact .pure (by simp)
  | cons id ids ih =>
    exact .bind (h id) fun _ htype => .bind ih fun _ htypes =>
      .pure (List.forall_mem_cons.mpr ⟨htype, htypes⟩)

include h in
theorem inferCondition (condition : NodeId) : Concur I (fun _ => True)
    (inferCondition cx infer condition) (inferCondition cx infer' condition) :=
  .bind (h condition) fun _ _ => .reads (.bind (nodeOf_moves _ _) fun _ => requireTruth_moves _ _ _)

include hI h

theorem inferOptional (part : Option NodeId) :
    Concur I Q (inferOptional infer part) (inferOptional infer' part) := by
  cases part with
  | none => exact .pure hI.noValue
  | some id => exact h id

theorem inferIndex (base position : NodeId) :
    Concur I Q (inferIndex cx infer base position) (inferIndex cx infer' base position) := by
  refine .bind (h base) fun baseType _ => .bind (hI.element baseType) fun form hform => ?_
  split
  · exact .bind (.reads (textOf_moves _)) fun _ _ => .bind (.reads (nodeOf_moves _ _)) fun _ _ =>
      report_upholds _ _
  · rename_i element helement
    exact .bind (h position) fun _ _ => .bind (.reads (nodeOf_moves _ _)) fun _ _ =>
      .bind (.reads (requireFit_moves _ _ _ _ _)) fun _ _ => .pure (hform element helement)

theorem inferAssign (target value : NodeId) (span : Span) :
    Concur I Q (inferAssign cx infer target value span) (inferAssign cx infer' target value span) :=
  .bind (.reads (nodeOf_moves _ _)) fun _ _ => .bind (.reads (isAssignable_moves _)) fun _ _ =>
    .bind (.reads (require_moves _ (.pure _) _)) fun _ _ => .bind (h target) fun _ _ =>
    .bind (h value) fun _ _ => .bind (.reads (requireFit_moves _ _ _ _ _)) fun _ _ =>
    .pure hI.noValue

omit hI in
theorem selectMember (base : NodeId) (name : String) (args : List TypeId) (span : Span) :
    Concur I (fun _ => True) (selectMember infer base name args span)
      (selectMember infer' base name args span) := by
  refine .bind (h base) fun receiver _ => .bind (.reads (inspect_moves _)) fun owner _ => ?_
  have hselect : Upholds I (fun _ => True) (do
      let candidates := ((← get).members.get? name).getD []
      select name candidates (receiver :: args) span) :=
    .reads (.bind .get fun _ => select_moves _ _ _ _)
  rcases owner with _ | ⟨owner, fields⟩
  · exact hselect
  · exact .bind (.reads (require_moves _ (.bind (textOf_moves _) fun _ => .pure _) _)) fun _ _ =>
      hselect

theorem inferCall (callee : NodeId) (args : List NodeId) :
    Concur I Q (inferCall cx infer callee args) (inferCall cx infer' callee args) := by
  refine .bind (inferAll h args) fun argTypes _ => .bind (.reads (nodeOf_moves _ _)) fun node _ =>
    .bind (.reads (calleeOf_moves _)) fun way _ => ?_
  cases way with
  | operator symbol =>
    exact .bind (.reads (selectOperator_moves _ _ _)) fun signature _ =>
      .bind (hI.annotate _ _) fun _ _ => hI.resultOf signature
  | member base name =>
    exact .bind (selectMember h base name argTypes node.span) fun signature _ =>
      .bind (hI.annotate _ _) fun _ _ => hI.resultOf signature
  | value => exact .bind (h callee) fun _ _ => hI.applyValue _ _ _ _

theorem inferBinary (symbol : String) (left right : NodeId) (span : Span) :
    Concur I Q (inferBinary cx infer symbol left right span)
      (inferBinary cx infer' symbol left right span) :=
  .bind (h left) fun _ _ => .bind (h right) fun _ _ =>
    .bind (.reads (selectOperator_moves _ _ _)) fun signature _ => hI.resultOf signature

theorem inferLiteral (written : Option TypeExpr) (members : Members) (span : Span) :
    Concur I Q (inferLiteral cx infer written members span)
      (inferLiteral cx infer' written members span) := by
  refine .bind (inferAll h _) fun types htypes => ?_
  cases written with
  | some written => exact hI.typed written members types span
  | none => exact hI.record members htypes span

theorem inferStatements {last : TypeId} (hlast : Q last) (ids : List NodeId) :
    Concur I Q (inferStatements cx infer last ids) (inferStatements cx infer' last ids) := by
  induction ids generalizing last with
  | nil => exact .pure hlast
  | cons id ids ih =>
    refine .bind (h id) fun type htype => .bind (.reads (nodeOf_moves _ _)) fun node _ => ih ?_
    split
    · exact hI.noValue
    · exact htype

theorem inferBlock (statements : List NodeId) :
    Concur I Q (inferBlock cx infer statements) (inferBlock cx infer' statements) :=
  .bind (hI.openFrame _) fun _ _ => .bind (hI.inferStatements h hI.noValue statements)
    fun _ htype => .bind hI.closeFrame fun _ _ => .pure htype

theorem inferBranch (condition thenArm : NodeId) (elseArm : Option NodeId) (span : Span) :
    Concur I Q (inferBranch cx infer condition thenArm elseArm span)
      (inferBranch cx infer' condition thenArm elseArm span) := by
  refine .bind (inferCondition h condition) fun _ _ => .bind (h thenArm) fun thenType hthen => ?_
  cases elseArm with
  | none => exact .pure hI.noValue
  | some arm =>
    exact .bind (h arm) fun _ _ => .bind (.reads (requireFit_moves _ _ _ _ _)) fun _ _ =>
      .pure hthen

theorem inferLoop (start : Option NodeId) (condition body : NodeId) :
    Concur I Q (inferLoop cx infer start condition body)
      (inferLoop cx infer' start condition body) :=
  .bind (hI.openFrame _) fun _ _ => .bind (hI.inferOptional h start) fun _ _ =>
    .bind (inferCondition h condition) fun _ _ => .bind (h body) fun _ _ =>
    .bind hI.closeFrame fun _ _ => .pure hI.noValue

theorem inferJump (kind : Jump) (value : Option NodeId) (span : Span) :
    Concur I Q (inferJump infer kind value span) (inferJump infer' kind value span) := by
  cases kind with
  | toCaller =>
    refine .get_bind fun s _ => ?_
    split
    · exact report_upholds _ _
    · exact .bind (hI.inferOptional h value) fun _ _ =>
        .bind (.reads (requireFit_moves _ _ _ _ _)) fun _ _ => .pure hI.noValue
  | afterLoop | nextRound =>
    exact .get_bind fun s _ => .bind (.reads (require_moves _ (.pure _) _)) fun _ _ =>
      .bind (hI.inferOptional h value) fun _ _ => .pure hI.noValue

/-- A variable is bound only if its initializer has a value. -/
theorem inferVariable (id : NodeId) (name : String) (written : TypeExpr) (start : NodeId)
    (span : Span) : Concur I Q (inferVariable infer id name written start span)
      (inferVariable infer' id name written start span) := by
  simp only [inferVariable_eq]
  have hmark : ∀ declared, Upholds I (fun _ => True) (markVariable id declared) := by
    intro declared
    unfold markVariable
    split
    · exact hI.annotateProvisional id
    · exact .pure trivial
  exact .bind (hI.resolve written span) fun declared _ => .bind (hmark declared) fun _ _ =>
    .bind (h start) fun _ hfound => .bind (require_upholds _ (.pure _) _) fun _ hvalue =>
    .bind (.reads (requireFit_moves _ _ _ _ _)) fun _ _ =>
    .bind (hI.bindName name hfound (of_decide_eq_true hvalue) span) fun _ _ => .pure hfound

/-- **What holds of the parts of a node holds of the node.** -/
theorem inferNode (id : NodeId) (node : Node) :
    Concur I Q (inferNode cx infer id node) (inferNode cx infer' id node) := by
  unfold Check.inferNode
  cases node.kind with
  | identifier name => exact hI.identifier name node.span
  | number => exact .pure hI.number
  | string => exact .pure hI.string
  | member base field =>
    exact .bind (h base) fun _ htype => hI.member htype base field node.span
  | index base position => exact hI.inferIndex h base position
  | call callee args => exact hI.inferCall h callee args
  | binary symbol left right => exact hI.inferBinary h symbol left right node.span
  | unary symbol operand =>
    exact .bind (h operand) fun _ htype => hI.unary htype symbol operand node.span
  | assign target value => exact hI.inferAssign h target value node.span
  | literal written members => exact hI.inferLiteral h written members node.span
  | branch condition thenArm elseArm => exact hI.inferBranch h condition thenArm elseArm node.span
  | loop start condition body => exact hI.inferLoop h start condition body
  | block statements => exact hI.inferBlock h statements
  | jump kind value => exact hI.inferJump h kind value node.span
  | var name written start => exact hI.inferVariable h id name written start node.span
  | function | foreign | struct => exact report_upholds _ _

omit h in
theorem inferAt (depth : Nat) (id : NodeId) : Upholds I Q (inferAt cx depth id) := by
  induction depth generalizing id with
  | zero => exact .throw _
  | succ depth ih =>
    exact .bind (.reads (nodeOf_moves _ _)) fun node _ => .bind (hI.inferNode ih id node)
      fun type htype => .bind (hI.annotate id type) fun _ _ => .pure htype

omit h in
/-- **A rule looks at the parts of its node where the invariant holds.** -/
theorem of_consults {depth : Nat} {id part : NodeId} {node : Node} {s s₁ : State}
    (hpart : Consults (fun infer => Check.inferNode cx infer id node) (Check.inferAt cx depth) s
      part s₁) (hs : I s) : I s₁ :=
  hpart.invariant (fun _ h => hI.inferNode h id node) (hI.inferAt depth) hs

end Sustains

end RuleTypes.Check
