import RuleTypes.Proofs.Check.Faultless
import RuleTypes.Proofs.Check.Members
import RuleTypes.Session

/-!
# Operators are calls of their symbols

An operator on operands and the call of its symbol with them are two nodes that are checked by two
rules. Where the symbol is an operator and no variable of its name is in the way, the rules agree
(`operator_syntax_agrees`): both answer with the same type, and nothing differs afterwards but the
types of the two nodes and of the symbol; or both fail alike, in the same state, except that the
problem may be reported at another place.
-/

namespace RuleTypes.Check

variable {cx : Setting} {arena : Arena} {depth : Nat} {s s₁ s₂ : State} {symbol : String}
  {operands : List NodeId} {operation call callee id : NodeId}

/-! ## The two ways to write an operation -/

/-- The node applies an operator to operands. `&x` and `*x` have rules of their own. -/
inductive IsOperation (symbol : String) : List NodeId → NodeKind → Prop
  | binary (left right : NodeId) : IsOperation symbol [left, right] (.binary symbol left right)
  | unary (operand : NodeId) (hreference : symbol ≠ "&") (hpointer : symbol ≠ "*") :
      IsOperation symbol [operand] (.unary symbol operand)

/-- Two nodes of the arena are an operation and the call of its symbol, on the same operands. -/
structure Rephrases (arena : Arena) (symbol : String) (operands : List NodeId)
    (operation call callee : NodeId) : Prop where
  operation : ∃ node, arena.node? operation = some node ∧ IsOperation symbol operands node.kind
  call : ∃ node, arena.node? call = some node ∧ node.kind = .call callee operands
  callee : ∃ node, arena.node? callee = some node ∧ node.kind = .identifier symbol

/-- The rule for an operation: its operands first, then the choice of a signature. -/
theorem inferNode_of_isOperation {infer : Infer} {node : Node}
    (h : IsOperation symbol operands node.kind) :
    inferNode cx infer id node = (do
      let types ← inferAll infer operands
      let signature ← selectOperator cx symbol types node.span
      resultOf signature) := by
  obtain ⟨kind, span⟩ := node
  cases h with
  | binary left right => simp [inferNode, inferBinary, inferAll]
  | unary operand hreference hpointer =>
    simp [inferNode, inferUnary, inferAll, hreference, hpointer]

/-- An unbound symbol is called as an operator. -/
theorem calleeOf_operator (hfree : s.scope.lookup symbol = none)
    (hoperator : cx.builtin.has symbol = true ∨ s.operators.contains symbol = true) :
    calleeOf cx (.identifier symbol) s = .ok (.operator symbol) s := by
  change (if (s.scope.lookup symbol).isNone && (cx.builtin.has symbol ||
    s.operators.contains symbol) then pure (.operator symbol) else pure .value : Check Callee) s = _
  rw [if_pos (by simpa [hfree] using hoperator)]
  rfl

/-! ## Failing alike -/

/-- The same failure, up to the place of a finding. -/
inductive SameFailure : Failure Finding → Failure Finding → Prop
  | fault (cause : Fault) : SameFailure (.fault cause) (.fault cause)
  | finding (problem : Problem) (span span' : Span) :
      SameFailure (.error ⟨problem, span⟩) (.error ⟨problem, span'⟩)

theorem SameFailure.refl (e : Failure Finding) : SameFailure e e := by
  cases e with
  | fault cause => exact .fault cause
  | error finding => exact .finding finding.problem finding.span finding.span

/-- A signature is chosen without regard to the place. -/
theorem selectOperator_at (cx : Setting) (symbol : String) (types : List TypeId) (s : State) :
    (∃ signature, ∀ span, selectOperator cx symbol types span s = .ok signature s) ∨
      ∀ span span', ∃ e e', selectOperator cx symbol types span s = .error e s ∧
        selectOperator cx symbol types span' s = .error e' s ∧ SameFailure e e' := by
  have hselect : ∀ span, selectOperator cx symbol types span s =
      select symbol (overloads cx s symbol) types span s := fun _ => rfl
  simp only [hselect, select]
  cases s.table.selectExact symbol (overloads cx s symbol) types with
  | ok signature => exact .inl ⟨signature, fun _ => rfl⟩
  | error e =>
    cases e with
    | fault cause => exact .inr fun _ _ => ⟨_, _, rfl, rfl, .fault cause⟩
    | error cause => exact .inr fun span span' => ⟨_, _, rfl, rfl, .finding _ span span'⟩

/-! ## Answering alike -/

/-- Nothing but the types of the given nodes differs between the states. -/
structure SameBut (ids : List NodeId) (s s' : State) : Prop where
  table : s.table = s'.table
  scope : s.scope = s'.scope
  names : s.names = s'.names
  operators : s.operators = s'.operators
  members : s.members = s'.members
  annotations : ∀ id, id ∉ ids → s.annotations.get? id = s'.annotations.get? id

namespace SameBut

variable {ids : List NodeId}

theorem symm (h : SameBut ids s s₁) : SameBut ids s₁ s :=
  ⟨h.table.symm, h.scope.symm, h.names.symm, h.operators.symm, h.members.symm,
    fun id hid => (h.annotations id hid).symm⟩

theorem trans (h : SameBut ids s s₁) (h' : SameBut ids s₁ s₂) : SameBut ids s s₂ :=
  ⟨h.table.trans h'.table, h.scope.trans h'.scope, h.names.trans h'.names,
    h.operators.trans h'.operators, h.members.trans h'.members,
    fun id hid => (h.annotations id hid).trans (h'.annotations id hid)⟩

end SameBut

/-- The node can be given a type. -/
def Writable (s : State) (id : NodeId) : Prop := id.index < s.annotations.size ∧ Open s id

/-- Giving a node its type changes nothing else. -/
theorem Writable.annotate (h : Writable s id) (ids : List NodeId) (hid : id ∈ ids)
    (type : TypeId) : ∃ s₁, annotate id type s = .ok () s₁ ∧ SameBut ids s s₁ ∧
      ∀ other, other ≠ id → Writable s other → Writable s₁ other := by
  obtain ⟨annotations, hset⟩ : ∃ annotations, s.annotations.set id type = .ok annotations := by
    obtain ⟨hlt, hnone | hauto⟩ := h
    · exact ⟨_, Annotations.set_eq_ok.mpr ⟨hlt, .inl ⟨hnone, rfl⟩⟩⟩
    · exact ⟨_, Annotations.set_eq_ok.mpr ⟨hlt, .inr ⟨hauto, rfl⟩⟩⟩
  have hget : ∀ other, other ≠ id → annotations.get? other = s.annotations.get? other :=
    fun other hne => by rw [Annotations.get?_of_set hset, if_neg hne]
  refine ⟨{ s with annotations }, annotate_eq_ok.mpr ⟨annotations, hset, rfl⟩,
    ⟨rfl, rfl, rfl, rfl, rfl, fun other hother => (hget other ?_).symm⟩, fun other hne hother => ?_⟩
  · rintro rfl
    exact hother hid
  · unfold Writable Open at hother ⊢
    rwa [(Annotations.Grows.of_set (N := fun _ => True) trivial hset).size_eq, hget other hne]

/-- The signature that is chosen has a result. -/
theorem exists_resultOf {types : List TypeId} {signature : TypeId} {span : Span}
    (h : selectOperator cx symbol types span s = .ok signature s) :
    ∃ result, ∀ s₁, s₁.table = s.table → resultOf signature s₁ = .ok result s₁ := by
  obtain ⟨hselects, -⟩ := selectOperator_eq_ok h
  obtain ⟨-, result, hform⟩ := (hselects.only signature).mpr rfl
  exact ⟨result, fun s₁ htable => resultOf_eq_ok.mpr ⟨⟨types, htable ▸ hform⟩, rfl⟩⟩

/-- An operation and the call of its symbol begin with the operands. -/
theorem Rephrases.operands_fail (h : Rephrases cx.arena symbol operands operation call callee)
    {e : Failure Finding} (hoperands : inferAll (inferAt cx depth) operands s = .error e s₁) :
    inferAt cx (depth + 1) operation s = .error e s₁ ∧
      inferAt cx (depth + 1) call s = .error e s₁ := by
  obtain ⟨⟨node, hnode, hkind⟩, ⟨callNode, hcall, hcallKind⟩, -⟩ := h
  constructor
  · rw [inferAt, bind_of_ok (nodeOf_ok hnode s), inferNode_of_isOperation hkind]
    exact bind_of_error (bind_of_error hoperands)
  · rw [inferAt, bind_of_ok (nodeOf_ok hcall s), inferNode, hcallKind]
    exact bind_of_error (bind_of_error hoperands)

/-- What an operation does once its operands have types. -/
theorem Rephrases.inferAt_operation
    (h : Rephrases cx.arena symbol operands operation call callee) {types : List TypeId}
    (hoperands : inferAll (inferAt cx depth) operands s = .ok types s₁) :
    ∃ span, inferAt cx (depth + 1) operation s = (do
      let signature ← selectOperator cx symbol types span
      let type ← resultOf signature
      annotate operation type
      return type) s₁ := by
  obtain ⟨node, hnode, hkind⟩ := h.operation
  refine ⟨node.span, ?_⟩
  rw [inferAt, bind_of_ok (nodeOf_ok hnode s), inferNode_of_isOperation hkind, bind_assoc,
    bind_of_ok hoperands]
  simp only [bind_assoc]

/-- What the call of an operator does once its arguments have types. -/
theorem Rephrases.inferAt_call
    (h : Rephrases cx.arena symbol operands operation call callee) {types : List TypeId}
    (hoperands : inferAll (inferAt cx depth) operands s = .ok types s₁)
    (hfree : s₁.scope.lookup symbol = none)
    (hoperator : cx.builtin.has symbol = true ∨ s₁.operators.contains symbol = true) :
    ∃ span, inferAt cx (depth + 1) call s = (do
      let signature ← selectOperator cx symbol types span
      annotate callee signature
      let type ← resultOf signature
      annotate call type
      return type) s₁ := by
  obtain ⟨node, hnode, hkind⟩ := h.call
  obtain ⟨name, hname, hidentifier⟩ := h.callee
  refine ⟨name.span, ?_⟩
  rw [inferAt, bind_of_ok (nodeOf_ok hnode s), inferNode, hkind]
  simp only [inferCall, bind_assoc]
  rw [bind_of_ok hoperands, bind_of_ok (nodeOf_ok hname s₁), hidentifier,
    bind_of_ok (calleeOf_operator hfree hoperator)]
  simp only [bind_assoc]

theorem Rephrases.call_ne_callee (h : Rephrases arena symbol operands operation call callee) :
    call ≠ callee := by
  rintro rfl
  obtain ⟨node, hnode, hkind⟩ := h.call
  obtain ⟨name, hname, hidentifier⟩ := h.callee
  obtain rfl := Option.some.inj (hnode.symm.trans hname)
  exact nomatch hkind.symm.trans hidentifier

/-- **Operators are calls of their symbols.** Take an operation and the call of its symbol on the
same operands, where the symbol is an operator. Suppose that once the operands are inferred, the
symbol is not bound and neither the two nodes nor the symbol have a type yet. Then both nodes get
the same type and leave states that differ in no other node, or both fail alike in one state. -/
theorem operator_syntax_agrees (h : Rephrases cx.arena symbol operands operation call callee)
    (hoperator : cx.builtin.has symbol = true ∨ s.operators.contains symbol = true)
    (hready : ∀ types s₁, inferAll (inferAt cx depth) operands s = .ok types s₁ →
      s₁.scope.lookup symbol = none ∧ ∀ id ∈ [operation, call, callee], Writable s₁ id) :
    (∃ type s₁ s₂, inferAt cx (depth + 1) operation s = .ok type s₁ ∧
      inferAt cx (depth + 1) call s = .ok type s₂ ∧ SameBut [operation, call, callee] s₁ s₂) ∨
    ∃ e e' s₁, inferAt cx (depth + 1) operation s = .error e s₁ ∧
      inferAt cx (depth + 1) call s = .error e' s₁ ∧ SameFailure e e' := by
  cases hoperands : inferAll (inferAt cx depth) operands s with
  | error e s₁ =>
    obtain ⟨hoperation, hcall⟩ := h.operands_fail hoperands
    exact .inr ⟨e, e, s₁, hoperation, hcall, .refl e⟩
  | ok types s₁ =>
    obtain ⟨hfree, hwritable⟩ := hready types s₁ hoperands
    rw [← ((inferAll_forward depth operands).ok hoperands).operators] at hoperator
    obtain ⟨span, hoperation⟩ := h.inferAt_operation hoperands
    obtain ⟨span', hcall⟩ := h.inferAt_call hoperands hfree hoperator
    obtain ⟨signature, hselect⟩ | hfails := selectOperator_at cx symbol types s₁
    · obtain ⟨result, hresult⟩ := exists_resultOf (hselect span)
      obtain ⟨s₂, hset, hsame, -⟩ :=
        (hwritable operation (by simp)).annotate [operation, call, callee] (by simp) result
      -- The call writes the type of its symbol first, which leaves its own slot open.
      obtain ⟨s₃, hcalleeSet, hcalleeSame, hkeeps⟩ :=
        (hwritable callee (by simp)).annotate [operation, call, callee] (by simp) signature
      obtain ⟨s₄, hcallSet, hcallSame, -⟩ :=
        (hkeeps call h.call_ne_callee (hwritable call (by simp))).annotate
          [operation, call, callee] (by simp) result
      refine .inl ⟨result, s₂, s₄, ?_, ?_, hsame.symm.trans (hcalleeSame.trans hcallSame)⟩
      · rw [hoperation, bind_of_ok (hselect span), bind_of_ok (hresult s₁ rfl), bind_of_ok hset]
        rfl
      · rw [hcall, bind_of_ok (hselect span'), bind_of_ok hcalleeSet,
          bind_of_ok (hresult s₃ hcalleeSame.table.symm), bind_of_ok hcallSet]
        rfl
    · obtain ⟨e, e', herror, herror', halike⟩ := hfails span span'
      exact .inr ⟨e, e', s₁, hoperation.trans (bind_of_error herror),
        hcall.trans (bind_of_error herror'), halike⟩

/-- `1 + 2`, and the call of `+` with the same numbers. -/
def sums (builtin : Operators) : Setting where
  arena := ⟨#[⟨.number, ⟨1, 1, 1⟩⟩, ⟨.number, ⟨1, 5, 1⟩⟩, ⟨.binary "+" ⟨0⟩ ⟨1⟩, ⟨1, 1, 5⟩⟩,
    ⟨.identifier "+", ⟨2, 1, 1⟩⟩, ⟨.call ⟨3⟩ [⟨0⟩, ⟨1⟩], ⟨2, 1, 7⟩⟩]⟩
  builtin := builtin
  config := .permissive

/-- Both sums are numbers. -/
theorem operator_syntax_agrees_sums :
    ∃ (session : Session) (s₁ s₂ : State),
      Session.standard Generics.standard .permissive = .ok session ∧
      infer (sums session.builtin) ⟨2⟩ (.start session.table 5) =
        .ok session.builtin.number s₁ ∧
      infer (sums session.builtin) ⟨4⟩ (.start session.table 5) =
        .ok session.builtin.number s₂ ∧
      SameBut [⟨2⟩, ⟨4⟩, ⟨3⟩] s₁ s₂ := by
  have heval : (do
      let session ← Session.standard Generics.standard .permissive
      let operands := (do
        let _ ← inferAll (inferAt (sums session.builtin) 11) [⟨0⟩, ⟨1⟩]
        let s ← get
        return decide (s.scope.lookup "+" = none ∧
          ∀ id ∈ [(⟨2⟩ : NodeId), ⟨4⟩, ⟨3⟩], id.index < s.annotations.size ∧
            s.annotations.get? id = none) : Check Bool).run' (.start session.table 5)
      let sum := (infer (sums session.builtin) ⟨2⟩).run' (.start session.table 5)
      return decide (session.builtin.has "+" = true ∧ operands = some true ∧
        sum = some session.builtin.number)) = Except.ok true := by
    decide +kernel
  obtain ⟨session, hsession, heval⟩ := except_bind_eq_ok.mp heval
  obtain ⟨hhas, hoperands, hsum⟩ := of_decide_eq_true (Except.ok.inj heval)
  obtain ⟨s₁, hsum⟩ := run'_eq_some.mp hsum
  have hready : ∀ types s₁,
      inferAll (inferAt (sums session.builtin) 11) [⟨0⟩, ⟨1⟩] (.start session.table 5) =
        .ok types s₁ →
      s₁.scope.lookup "+" = none ∧ ∀ id ∈ [(⟨2⟩ : NodeId), ⟨4⟩, ⟨3⟩], Writable s₁ id := by
    intro types s₁ hinfer
    obtain ⟨_, hoperands⟩ := run'_eq_some.mp hoperands
    rw [bind_of_ok hinfer] at hoperands
    obtain ⟨hfree, hwritable⟩ := of_decide_eq_true (pure_eq_ok.mp hoperands).1
    exact ⟨hfree, fun id hid => ⟨(hwritable id hid).1, .inl (hwritable id hid).2⟩⟩
  have hrephrases : Rephrases (sums session.builtin).arena "+" [⟨0⟩, ⟨1⟩] ⟨2⟩ ⟨4⟩ ⟨3⟩ :=
    ⟨⟨_, rfl, .binary ⟨0⟩ ⟨1⟩⟩, ⟨_, rfl, rfl⟩, ⟨_, rfl, rfl⟩⟩
  obtain ⟨type, s₁', s₂, hoperation, hcall, hsame⟩ | ⟨e, e', s₁', hoperation, -⟩ :=
    operator_syntax_agrees hrephrases (.inl hhas) hready
  · obtain ⟨rfl, rfl⟩ := EStateM.Result.ok.inj (hoperation.symm.trans hsum)
    exact ⟨session, _, s₂, hsession, hsum, hcall, hsame⟩
  · exact nomatch hoperation.symm.trans hsum

end RuleTypes.Check
