import RuleTypes.Proofs.Check.Flow
import RuleTypes.Proofs.Check.Globals

/-!
# Findings of the rules

A step of the checker that is started inside a given function and loop can end in findings of some
kind only (`Blames`). For each rule this follows from the same for the parts of the node, for other
problems where the node and its parts stand (`Admits`), and for jumps that are misplaced
(`inferNode_blames`).
-/

namespace RuleTypes

/-- Whether the node defines a function here. -/
def NodeKind.isFunction : NodeKind → Bool
  | function .. => true
  | _ => false

namespace Check

variable {α β : Type} {cx : Setting} {infer : Infer} {result : Option TypeId}
  {loop : Bool} {P Q : Finding → Prop} {s s' : State} {span : Span} {id : NodeId} {node : Node}

/-! ## Steps -/

/-- The function around has the result, and a loop is around or not. -/
structure Within (result : Option TypeId) (loop : Bool) (s : State) : Prop where
  result : s.scope.enclosingResult? = result
  inLoop : s.scope.inLoop = loop

theorem Within.of_gains {W : String → Binding → Prop} (h : Within result loop s)
    (hgains : s.scope.Gains W s'.scope) : Within result loop s' :=
  ⟨hgains.enclosingResult?_eq.trans h.result, hgains.inLoop_eq.trans h.inLoop⟩

/-- Started inside the function and the loop, the step ends in findings of `P` only, and it leaves
neither when it answers. -/
def Blames (result : Option TypeId) (loop : Bool) (P : Finding → Prop) (x : Check α) : Prop :=
  ∀ s, Within result loop s → Refuses P x s ∧ ∀ a s', x s = .ok a s' → Within result loop s'

namespace Blames

variable {x : Check α} {f : α → Check β}

theorem mono (hPQ : ∀ finding, P finding → Q finding) (h : Blames result loop P x) :
    Blames result loop Q x := fun s hs => ⟨(h s hs).1.mono hPQ, (h s hs).2⟩

theorem bind_of (hx : Blames result loop P x)
    (hf : ∀ a s s', x s = .ok a s' → Blames result loop P (f a)) :
    Blames result loop P (x >>= f) := by
  intro s hs
  obtain ⟨hrefuses, hwithin⟩ := hx s hs
  refine ⟨.bind hrefuses fun a s' hok => (hf a s s' hok s' (hwithin a s' hok)).1, fun b s' h => ?_⟩
  obtain ⟨a, s₁, hok, h⟩ := bind_eq_ok.mp h
  exact (hf a s s₁ hok s₁ (hwithin a s₁ hok)).2 b s' h

theorem bind (hx : Blames result loop P x) (hf : ∀ a, Blames result loop P (f a)) :
    Blames result loop P (x >>= f) := hx.bind_of fun a _ _ _ => hf a

/-- Steps that keep the frames. -/
theorem of_binds {W : String → Binding → Prop} (hbinds : Goes (Binds W) (Abandons W) x)
    (h : ∀ s, Within result loop s → Refuses P x s) : Blames result loop P x :=
  fun s hs => ⟨h s hs, fun _ _ hok => hs.of_gains (hbinds.ok hok)⟩

/-- Steps that only read. -/
theorem reads (hmoves : Moves Eq x) (h : ∀ s, Refuses P x s) : Blames result loop P x :=
  fun s hs => ⟨h s, fun _ _ hok => hmoves.ok hok ▸ hs⟩

theorem pure (a : α) : Blames result loop P (Pure.pure a : Check α) :=
  .reads (.pure a) fun _ => .pure a

theorem fault (cause : Fault) : Blames result loop P (throw (.fault cause) : Check α) :=
  .reads (.throw _) fun _ _ _ h => nomatch h

theorem get_bind {f : State → Check β}
    (h : ∀ s, Within result loop s → Blames result loop P (f s)) :
    Blames result loop P (get >>= f) := fun s hs => h s hs s hs

theorem refuses {x : Check α} (h : ∀ result loop, Blames result loop P x) :
    Refuses P x s := (h _ _ s ⟨rfl, rfl⟩).1

end Blames

theorem inspect_blames (f : State → Except Fault α) : Blames result loop P (inspect f) := by
  refine .reads (inspect_moves f) fun s cause s' h => ?_
  unfold inspect at h
  cases hf : f s <;> simp [hf] at h

theorem nodeOf_bind_blames {f : Node → Check β}
    (hf : ∀ node, cx.arena.node? id = some node → Blames result loop P (f node)) :
    Blames result loop P (nodeOf cx id >>= f) :=
  .bind_of (inspect_blames _) fun node _ _ h => hf node (nodeOf_eq_ok.mp h).1

theorem lookup_blames (name : String) : Blames result loop P (lookup name) :=
  .reads (lookup_moves name) fun _ => .of_ok rfl

theorem update_refuses (f : State → Except Fault State) : Refuses P (update f) s := by
  intro finding s' h
  obtain ⟨_, -, he, -⟩ := update_eq_error.mp h
  cases he

theorem update_blames {f : State → Except Fault State}
    (h : ∀ s s', f s = .ok s' → s'.scope = s.scope) : Blames result loop P (update f) := by
  refine fun s hs => ⟨update_refuses f, fun _ s' hok => ?_⟩
  have hscope := h s s' (update_eq_ok.mp hok)
  exact ⟨hscope ▸ hs.result, hscope ▸ hs.inLoop⟩

theorem annotate_blames (id : NodeId) (type : TypeId) :
    Blames result loop P (annotate id type) :=
  update_blames fun s s' h => by
    obtain ⟨annotations, -, rfl⟩ := annotate_eq_ok.mp (update_eq_ok (u := ()).mpr h)
    rfl

theorem annotateProvisional_blames (id : NodeId) :
    Blames result loop P (annotateProvisional id) :=
  update_blames fun s s' h => by
    obtain ⟨annotations, -, rfl⟩ := annotateProvisional_eq_ok.mp (update_eq_ok (u := ()).mpr h)
    rfl

/-! ## Findings of a step itself -/

/-- Any problem at the place is of the kind, misplaced jumps apart. -/
def Admits (P : Finding → Prop) (span : Span) : Prop :=
  ∀ problem, (∀ keyword, problem ≠ .misplacedJump keyword) → P ⟨problem, span⟩

theorem report_blames {problem : Problem} (h : P ⟨problem, span⟩) :
    Blames result loop P (report problem span : Check α) :=
  .reads (report_moves _ _) fun _ => .throw h

theorem requireText_blames {id : TypeId} {problem : String → Problem}
    (h : ∀ text, P ⟨problem text, span⟩) (holds : Bool) :
    Blames result loop P (require holds (do return problem (← textOf id)) span) := by
  unfold require
  split
  · exact .pure _
  · simp only [bind_assoc, pure_bind]
    exact .bind (inspect_blames _) fun text => report_blames (h text)

theorem requireFit_blames {a b : TypeId} {problem : String → String → Problem}
    (h : ∀ text text', P ⟨problem text text', span⟩) (holds : Bool) :
    Blames result loop P (require holds (do return problem (← textOf a) (← textOf b)) span) := by
  unfold require
  split
  · exact .pure _
  · simp only [bind_assoc, pure_bind]
    exact .bind (inspect_blames _) fun text => .bind (inspect_blames _) fun text' =>
      report_blames (h text text')

theorem require_blames {problem : Problem} (h : P ⟨problem, span⟩) (holds : Bool) :
    Blames result loop P (require holds (pure problem) span) := by
  unfold require
  split
  · exact .pure _
  · simp only [pure_bind]
    exact report_blames h

theorem ofTable_ne_misplacedJump {cause : TableError} {problem : Problem}
    (h : Problem.ofTable cause = .ok problem) (keyword : String) :
    problem ≠ .misplacedJump keyword := by
  cases cause <;> cases h <;> simp

theorem ofLoad_ne_misplacedJump {cause : LoadError} {problem : Problem}
    (h : Problem.ofLoad cause = .ok problem) (keyword : String) :
    problem ≠ .misplacedJump keyword := by
  cases cause with
  | table cause => exact ofTable_ne_misplacedJump h keyword
  | malformed | unknownType | misplacedAuto => cases h; simp

theorem select_blames (hspan : Admits P span) (symbol : String) (candidates args : List TypeId) :
    Blames result loop P (select symbol candidates args span) := by
  refine .reads (select_moves _ _ _ _) fun s finding s' h => ?_
  unfold select at h
  cases hselect : s.table.selectExact symbol candidates args with
  | ok signature => simp [hselect] at h
  | error failure =>
    cases failure with
    | fault cause => simp [hselect] at h
    | error cause =>
      simp only [hselect, EStateM.Result.error.injEq, Failure.error.injEq] at h
      exact h.1 ▸ hspan _ (by cases cause <;> simp [Problem.ofOverload])

theorem onTable_blames {ε : Type} {problemOf : ε → Except Fault Problem} {x : TableM ε α}
    (h : ∀ cause problem, problemOf cause = .ok problem → P ⟨problem, span⟩) :
    Blames result loop P (onTable problemOf span x) := by
  refine fun s hs => ⟨fun finding s' he => ?_, fun a s' hok => ?_⟩
  · unfold onTable at he
    cases hx : x s.table with
    | ok a table => simp [hx] at he
    | error failure table =>
      cases failure with
      | fault cause => simp [hx] at he
      | error cause =>
        cases hproblem : problemOf cause with
        | error fault => simp [hx, hproblem] at he
        | ok problem =>
          simp only [hx, hproblem, EStateM.Result.error.injEq, Failure.error.injEq] at he
          exact he.1 ▸ h cause problem hproblem
  · obtain ⟨table, -, rfl⟩ := onTable_eq_ok.mp hok
    exact ⟨hs.result, hs.inLoop⟩

theorem resolve_blames (hspan : Admits P span) (type : TypeExpr) :
    Blames result loop P (resolve type span) := fun s =>
  onTable_blames (x := type.resolve s.names)
    (fun _ _ h => hspan _ (ofLoad_ne_misplacedJump h)) s

theorem resolveConcrete_blames (hspan : Admits P span) (type : TypeExpr) :
    Blames result loop P (resolveConcrete type span) := fun s =>
  onTable_blames (x := type.resolveConcrete s.names)
    (fun _ _ h => hspan _ (ofLoad_ne_misplacedJump h)) s

theorem bindName_blames (hspan : Admits P span) (name : String) (type : TypeId)
    (kind : BindingKind) : Blames result loop P (bindName name type kind span) := by
  refine .of_binds (W := fun _ _ => True) (bindName_binds trivial) fun s _ finding s' h => ?_
  unfold bindName at h
  cases hbind : s.scope.bind name ⟨type, kind, span⟩ with
  | ok scope => simp [hbind] at h
  | error existing =>
    simp only [hbind, EStateM.Result.error.injEq, Failure.error.injEq] at h
    exact h.1 ▸ hspan _ (by simp)

/-- In a frame of its own, a step may be inside another loop. -/
theorem enclosed_blames {W : String → Binding → Prop} (loop' : Bool) {kind : FrameKind}
    {x : Check α} (f : α → β)
    (hopen : ∀ s s', Within result loop s → openFrame kind s = .ok () s' → Within result loop' s')
    (hbinds : Goes (Binds W) (Abandons W) x) (hx : Blames result loop' P x) :
    Blames result loop P (do
      openFrame kind
      let a ← x
      closeFrame
      return f a) := by
  refine .of_binds (W := fun _ _ => True) (enclosed_binds f hbinds) fun s hs => ?_
  refine .bind (update_refuses _) fun _ s₁ hopened => ?_
  exact .bind (hx s₁ (hopen s s₁ hs hopened)).1 fun _ _ _ =>
    .bind (update_refuses _) fun _ _ _ => .pure _

/-! ## Rules -/

/-- What is known about the parts of a node: their findings are of the kind, and so are findings
where they stand. -/
structure Heeds (cx : Setting) (infer : Infer) (result : Option TypeId) (loop : Bool)
    (P : Finding → Prop) (ids : List NodeId) : Prop where
  infer : ∀ id ∈ ids, Blames result loop P (infer id)
  span : ∀ id ∈ ids, ∀ node, cx.arena.node? id = some node → Admits P node.span

theorem Heeds.mono {ids ids' : List NodeId} (hids : ids' ⊆ ids)
    (h : Heeds cx infer result loop P ids) : Heeds cx infer result loop P ids' :=
  ⟨fun id hid => h.infer id (hids hid), fun id hid => h.span id (hids hid)⟩

theorem inferAll_blames {ids : List NodeId} (h : Heeds cx infer result loop P ids) :
    Blames result loop P (inferAll infer ids) := by
  induction ids with
  | nil => exact .pure _
  | cons id ids ih =>
    exact .bind (h.infer id (List.mem_cons_self ..)) fun _ =>
      .bind (ih (h.mono (List.subset_cons_self ..))) fun _ => .pure _

theorem inferIdentifier_blames (hspan : Admits P span) (name : String) :
    Blames result loop P (inferIdentifier name span) := by
  refine .bind (lookup_blames name) fun binding => ?_
  cases binding with
  | some binding => exact .pure _
  | none => exact report_blames (hspan _ (by simp))

theorem inferMember_blames {base : NodeId} (h : Blames result loop P (infer base))
    (hspan : Admits P span) (field : String) :
    Blames result loop P (inferMember infer base field span) := by
  refine .bind h fun baseType => .bind (inspect_blames _) fun owner => ?_
  rcases owner with _ | ⟨owner, fields⟩
  · exact .bind (inspect_blames _) fun _ => report_blames (hspan _ (by simp))
  · dsimp only
    split
    · exact .pure _
    · exact .bind (inspect_blames _) fun _ => report_blames (hspan _ (by simp))

theorem inferIndex_blames {base position : NodeId}
    (h : Heeds cx infer result loop P [base, position]) :
    Blames result loop P (inferIndex cx infer base position) := by
  refine .bind (h.infer base (by simp)) fun baseType => .bind (inspect_blames _) fun form => ?_
  split
  · exact .bind (inspect_blames _) fun _ => nodeOf_bind_blames fun node hnode =>
      report_blames (h.span base (by simp) node hnode _ (by simp))
  · refine .bind (h.infer position (by simp)) fun found => nodeOf_bind_blames fun node hnode => ?_
    exact .bind (requireFit_blames (fun _ _ => h.span position (by simp) node hnode _ (by simp)) _)
      fun _ => .pure _

theorem isAssignable_blames (kind : NodeKind) : Blames result loop P (isAssignable kind) := by
  unfold isAssignable
  split
  · refine .bind (lookup_blames _) fun binding => ?_
    cases binding <;> exact .pure _
  · exact .pure _

theorem inferAssign_blames {target value : NodeId}
    (h : Heeds cx infer result loop P [target, value]) (hspan : Admits P span) :
    Blames result loop P (inferAssign cx infer target value span) :=
  .bind (inspect_blames _) fun _ => .bind (isAssignable_blames _) fun _ =>
    .bind (require_blames (hspan _ (by simp)) _) fun _ => .bind (h.infer target (by simp)) fun _ =>
    .bind (h.infer value (by simp)) fun _ =>
    .bind (requireFit_blames (fun _ _ => hspan _ (by simp)) _) fun _ => .pure _

theorem selectOperator_blames (hspan : Admits P span) (symbol : String) (args : List TypeId) :
    Blames result loop P (selectOperator cx symbol args span) :=
  .get_bind fun _ _ => select_blames hspan _ _ _

theorem selectMember_blames {base : NodeId} (h : Blames result loop P (infer base))
    (hspan : Admits P span) (name : String) (args : List TypeId) :
    Blames result loop P (selectMember infer base name args span) := by
  refine .bind h fun receiver => .bind (inspect_blames _) fun owner => ?_
  have hselect : Blames result loop P (do
      let candidates := ((← get).members.get? name).getD []
      select name candidates (receiver :: args) span) :=
    .get_bind fun _ _ => select_blames hspan _ _ _
  rcases owner with _ | ⟨owner, fields⟩
  · exact hselect
  · exact .bind (requireText_blames (fun _ => hspan _ (by simp)) _) fun _ => hselect

theorem applyValue_blames {callee : NodeId} {args : List NodeId}
    (h : Heeds cx infer result loop P (callee :: args)) (calleeType : TypeId)
    (argTypes : List TypeId) :
    Blames result loop P (applyValue cx calleeType callee args argTypes) := by
  refine nodeOf_bind_blames fun node hnode => .bind (inspect_blames _) fun form => ?_
  have hspan : Admits P node.span := h.span callee (by simp) node hnode
  split
  · exact .bind (inspect_blames _) fun _ => report_blames (hspan _ (by simp))
  · refine .bind ?_ fun _ => ?_
    · unfold require
      split
      · exact .pure _
      · split
        · simp only [pure_bind]
          exact report_blames (hspan _ (by simp))
        · simp only [bind_assoc, pure_bind]
          exact .bind (inspect_blames _) fun _ => report_blames (hspan _ (by simp))
    · split
      · exact .pure _
      · refine .bind (inspect_blames _) fun _ => .bind (inspect_blames _) fun _ => ?_
        split
        · rename_i arg harg
          exact nodeOf_bind_blames fun argNode hargNode => report_blames
            (h.span arg (List.mem_cons_of_mem _ (List.mem_of_getElem? harg)) argNode hargNode _
              (by simp))
        · exact .fault _

theorem calleeOf_blames (kind : NodeKind) : Blames result loop P (calleeOf cx kind) := by
  unfold calleeOf
  split
  · refine .bind (lookup_blames _) fun _ => .bind ?_ fun _ => ?_
    · exact .get_bind fun _ _ => .pure _
    · split <;> exact .pure _
  · refine .get_bind fun _ _ => ?_
    split <;> exact .pure _
  · exact .pure _

theorem inferCall_blames {callee : NodeId} {args : List NodeId}
    (h : Heeds cx infer result loop P (callee :: args))
    (hbase : ∀ node base field, cx.arena.node? callee = some node →
      node.kind = .member base field → Blames result loop P (infer base)) :
    Blames result loop P (inferCall cx infer callee args) := by
  refine .bind (inferAll_blames (h.mono (List.subset_cons_self ..))) fun argTypes =>
    nodeOf_bind_blames fun node hnode => ?_
  have hspan : Admits P node.span := h.span callee (by simp) node hnode
  refine .bind_of (calleeOf_blames _) fun way s s' hway => ?_
  cases way with
  | operator symbol =>
    exact .bind (selectOperator_blames hspan _ _) fun _ => .bind (annotate_blames _ _) fun _ =>
      inspect_blames _
  | member base name =>
    obtain ⟨hkind, -, -⟩ := calleeOf_eq_member hway
    exact .bind (selectMember_blames (hbase node base name hnode hkind) hspan _ _) fun _ =>
      .bind (annotate_blames _ _) fun _ => inspect_blames _
  | value => exact .bind (h.infer callee (by simp)) fun _ => applyValue_blames h _ _

theorem inferBinary_blames {left right : NodeId} (h : Heeds cx infer result loop P [left, right])
    (hspan : Admits P span) (symbol : String) :
    Blames result loop P (inferBinary cx infer symbol left right span) :=
  .bind (h.infer left (by simp)) fun _ => .bind (h.infer right (by simp)) fun _ =>
    .bind (selectOperator_blames hspan _ _) fun _ => inspect_blames _

theorem inferUnary_blames {operand : NodeId} (h : Heeds cx infer result loop P [operand])
    (hspan : Admits P span) (symbol : String) :
    Blames result loop P (inferUnary cx infer symbol operand span) := by
  refine .bind (h.infer operand (by simp)) fun type => ?_
  split
  · exact .bind (requireText_blames (fun _ => hspan _ (by simp)) _) fun _ =>
      onTable_blames fun _ _ h => hspan _ (ofTable_ne_misplacedJump h)
  · split
    · refine .bind (inspect_blames _) fun form => ?_
      split
      · exact .pure _
      · exact .bind (inspect_blames _) fun _ => report_blames (hspan _ (by simp))
    · exact .bind (selectOperator_blames hspan _ _) fun _ => inspect_blames _

theorem reportFlaw_blames {members : Members}
    (h : Heeds cx infer result loop P (members.map (·.2))) (hspan : Admits P span) (owner : TypeId)
    (fieldCount position : Nat) (flaw : MemberFlaw) :
    Blames result loop P
      (reportFlaw (α := α) cx owner fieldCount members position flaw span) := by
  unfold reportFlaw
  split
  · exact .fault _
  · rename_i name value hmember
    refine nodeOf_bind_blames fun node hnode => ?_
    have hmember : Admits P node.span :=
      h.span value (List.mem_map_of_mem (List.mem_of_getElem? hmember)) node hnode
    cases flaw with
    | tooMany => exact .bind (inspect_blames _) fun _ => report_blames (hspan _ (by simp))
    | unknownField | repeated =>
      exact .bind (inspect_blames _) fun _ => report_blames (hmember _ (by simp))
    | mismatch =>
      exact .bind (inspect_blames _) fun _ => .bind (inspect_blames _) fun _ =>
        report_blames (hmember _ (by simp))

theorem inferTyped_blames {members : Members}
    (h : Heeds cx infer result loop P (members.map (·.2))) (hspan : Admits P span)
    (type : TypeExpr) (memberTypes : List TypeId) :
    Blames result loop P (inferTyped cx type members memberTypes span) := by
  refine .bind (resolveConcrete_blames hspan type) fun owner => .bind (inspect_blames _)
    fun form => ?_
  dsimp only
  split
  · split
    · exact .pure _
    · exact reportFlaw_blames h hspan _ _ _ _
  · split
    · exact .pure _
    · exact reportFlaw_blames h hspan _ _ _ _
  · exact .bind (inspect_blames _) fun _ => report_blames (hspan _ (by simp))

theorem recordFields_blames {members : Members}
    (h : Heeds cx infer result loop P (members.map (·.2))) (position : Nat)
    (types : List TypeId) : Blames result loop P (recordFields cx position members types) := by
  induction members generalizing position types with
  | nil => exact .pure _
  | cons member members ih =>
    cases types with
    | nil => exact .pure _
    | cons type types =>
      unfold recordFields
      dsimp only
      split
      · exact nodeOf_bind_blames fun node hnode =>
          report_blames (h.span member.2 (by simp) node hnode _ (by simp))
      · exact .bind (ih (h.mono (List.subset_cons_self ..)) _ _) fun _ => .pure _

theorem inferLiteral_blames {members : Members}
    (h : Heeds cx infer result loop P (members.map (·.2))) (hspan : Admits P span)
    (type : Option TypeExpr) : Blames result loop P (inferLiteral cx infer type members span) := by
  refine .bind (inferAll_blames h) fun memberTypes => ?_
  cases type with
  | some type => exact inferTyped_blames h hspan type memberTypes
  | none =>
    exact .bind (recordFields_blames h _ _) fun _ =>
      onTable_blames fun _ _ h => hspan _ (ofTable_ne_misplacedJump h)

theorem inferStatements_blames {last : TypeId} {ids : List NodeId}
    (h : Heeds cx infer result loop P ids) :
    Blames result loop P (inferStatements cx infer last ids) := by
  induction ids generalizing last with
  | nil => exact .pure _
  | cons id ids ih =>
    exact .bind (h.infer id (List.mem_cons_self ..)) fun _ => .bind (inspect_blames _) fun _ =>
      ih (h.mono (List.subset_cons_self ..))

theorem inferCondition_blames {condition : NodeId}
    (h : Heeds cx infer result loop P [condition]) :
    Blames result loop P (inferCondition cx infer condition) :=
  .bind (h.infer condition (by simp)) fun _ => nodeOf_bind_blames fun node hnode =>
    requireFit_blames (fun _ _ => h.span condition (by simp) node hnode _ (by simp)) _

theorem inferOptional_blames {part : Option NodeId}
    (h : Heeds cx infer result loop P part.toList) :
    Blames result loop P (inferOptional infer part) := by
  cases part with
  | none => exact .pure _
  | some id => exact h.infer id (List.mem_singleton.mpr rfl)

theorem inferBranch_blames {condition thenArm : NodeId} {elseArm : Option NodeId}
    (h : Heeds cx infer result loop P (condition :: thenArm :: elseArm.toList))
    (hspan : Admits P span) :
    Blames result loop P (inferBranch cx infer condition thenArm elseArm span) := by
  refine .bind (inferCondition_blames (h.mono (by simp))) fun _ =>
    .bind (h.infer thenArm (by simp)) fun _ => ?_
  cases elseArm with
  | none => exact .pure _
  | some arm =>
    exact .bind (h.infer arm (by simp)) fun _ =>
      .bind (requireFit_blames (fun _ _ => hspan _ (by simp)) _) fun _ => .pure _

/-- The statements of a block are inside the same function and the same loop. -/
theorem inferBlock_blames {statements : List NodeId} (h : Heeds cx infer result loop P statements)
    (hbinds : ∀ id, Goes (Binds fun _ _ => True) (Abandons fun _ _ => True) (infer id)) :
    Blames result loop P (inferBlock cx infer statements) := by
  refine enclosed_blames loop (fun type => type) (fun s s' hs hopen => ?_)
    (inferStatements_goes fun id _ => hbinds id) (inferStatements_blames h)
  obtain ⟨scope, hpush, rfl⟩ := openFrame_eq_ok.mp hopen
  obtain ⟨-, rfl⟩ := Scope.push_eq_ok.mp hpush
  exact ⟨hs.result, hs.inLoop⟩

/-- The parts of a loop are inside it. -/
theorem inferLoop_blames {start : Option NodeId} {condition body : NodeId}
    (h : Heeds cx infer result true P (start.toList ++ [condition, body]))
    (hbinds : ∀ id, Goes (Binds fun _ _ => True) (Abandons fun _ _ => True) (infer id)) :
    Blames result loop P (inferLoop cx infer start condition body) := by
  rw [inferLoop_eq]
  refine enclosed_blames (W := fun _ _ => True) true (fun _ => TypeId.noValue)
    (fun s s' hs hopen => ?_) ?_ ?_
  · obtain ⟨scope, hpush, rfl⟩ := openFrame_eq_ok.mp hopen
    obtain ⟨-, rfl⟩ := Scope.push_eq_ok.mp hpush
    exact ⟨hs.result, rfl⟩
  · exact .bind (inferOptional_goes fun id _ => hbinds id) fun _ =>
      .bind (inferCondition_goes (hbinds condition)) fun _ => hbinds body
  · exact .bind (inferOptional_blames (h.mono (by simp))) fun _ =>
      .bind (inferCondition_blames (h.mono (by simp))) fun _ => h.infer body (by simp)

/-- The jump is misplaced: a `return` outside functions, or another jump outside loops. -/
def Stray (result : Option TypeId) (loop : Bool) : Jump → Prop
  | .toCaller => result = none
  | .afterLoop | .nextRound => loop = false

theorem inferJump_blames {kind : Jump} {value : Option NodeId}
    (h : Heeds cx infer result loop P value.toList) (hspan : Admits P span)
    (hstray : Stray result loop kind → P ⟨.misplacedJump kind.keyword, span⟩) :
    Blames result loop P (inferJump infer kind value span) := by
  have hloop : ∀ s, Within result loop s → (loop = false → P ⟨.misplacedJump kind.keyword, span⟩) →
      Blames result loop P
        (require s.scope.inLoop (pure (.misplacedJump kind.keyword)) span) := by
    intro s hs hstray
    rw [hs.inLoop]
    cases loop with
    | true => exact .pure _
    | false => exact require_blames (hstray rfl) _
  cases kind with
  | toCaller =>
    refine .get_bind fun s hs => ?_
    rw [hs.result]
    cases result with
    | none => exact report_blames (hstray rfl)
    | some expected =>
      exact .bind (inferOptional_blames h) fun _ =>
        .bind (requireFit_blames (fun _ _ => hspan _ (by simp)) _) fun _ => .pure _
  | afterLoop | nextRound =>
    exact .get_bind fun s hs => .bind (hloop s hs hstray) fun _ =>
      .bind (inferOptional_blames h) fun _ => .pure _

theorem inferVariable_blames {start : NodeId} (h : Heeds cx infer result loop P [start])
    (hspan : Admits P span) (id : NodeId) (name : String) (type : TypeExpr) :
    Blames result loop P (inferVariable infer id name type start span) := by
  rw [inferVariable_eq]
  refine .bind (resolve_blames hspan type) fun declared => .bind ?_ fun _ =>
    .bind (h.infer start (by simp)) fun _ => .bind (require_blames (hspan _ (by simp)) _) fun _ =>
    .bind (requireFit_blames (fun _ _ => hspan _ (by simp)) _) fun _ =>
    .bind (bindName_blames hspan _ _ _) fun _ => .pure _
  unfold markVariable
  split
  · exact annotateProvisional_blames id
  · exact .pure _

theorem inferNode_blames
    (hparts : node.kind.isFunction = false →
      Heeds cx infer result (loop || node.kind.isLoop) P node.kind.children)
    (hspan : Admits P node.span)
    (hbase : ∀ callee calleeNode base field, callee ∈ node.kind.children →
      node.kind.isFunction = false → node.kind.isLoop = false →
      cx.arena.node? callee = some calleeNode → calleeNode.kind = .member base field →
      Blames result loop P (infer base))
    (hstray : ∀ kind value, node.kind = .jump kind value → Stray result loop kind →
      P ⟨.misplacedJump kind.keyword, node.span⟩)
    (hbinds : ∀ id, Goes (Binds fun _ _ => True) (Abandons fun _ _ => True) (infer id)) :
    Blames result loop P (inferNode cx infer id node) := by
  obtain ⟨kind, span⟩ := node
  have hflat : kind.isFunction = false → kind.isLoop = false →
      Heeds cx infer result loop P kind.children := by
    intro hfunction hloop
    simpa only [hloop, Bool.or_false] using hparts hfunction
  unfold inferNode
  cases kind with
  | identifier name => exact inferIdentifier_blames hspan name
  | number | string => exact .pure _
  | function | foreign | struct => exact report_blames (hspan _ (by simp))
  | loop start condition body =>
    have hparts := hparts rfl
    rw [NodeKind.isLoop, Bool.or_true] at hparts
    exact inferLoop_blames hparts hbinds
  | block statements => exact inferBlock_blames (hflat rfl rfl) hbinds
  | member base field =>
    exact inferMember_blames ((hflat rfl rfl).infer base (by simp [NodeKind.children])) hspan field
  | index base position => exact inferIndex_blames (hflat rfl rfl)
  | call callee args =>
    exact inferCall_blames (hflat rfl rfl) fun calleeNode base field =>
      hbase callee calleeNode base field (by simp [NodeKind.children]) rfl rfl
  | binary symbol left right => exact inferBinary_blames (hflat rfl rfl) hspan symbol
  | unary symbol operand => exact inferUnary_blames (hflat rfl rfl) hspan symbol
  | assign target value => exact inferAssign_blames (hflat rfl rfl) hspan
  | literal type members => exact inferLiteral_blames (hflat rfl rfl) hspan type
  | branch condition thenArm elseArm => exact inferBranch_blames (hflat rfl rfl) hspan
  | jump kind value => exact inferJump_blames (hflat rfl rfl) hspan (hstray kind value rfl)
  | var name type start => exact inferVariable_blames (hflat rfl rfl) hspan id name type

end Check

end RuleTypes
