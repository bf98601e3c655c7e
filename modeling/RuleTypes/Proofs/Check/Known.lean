import RuleTypes.Proofs.Check.Run
import RuleTypes.Proofs.Scope
import RuleTypes.Proofs.TypeTable.Known

/-!
# Checking works with clear types only

If the types that a check starts with are clear, so is every type that it can come by: what is
bound, named or registered, what inference answers (`inferAt_reveals`) and what it writes down. The
invariant (`Knows`) is carried along by every step, also by the steps that end in a finding
(`Knows.checkItems`). For known types this includes the registration of structs (`knows_of_steps`).
So `auto`, which marks a variable while its initializer is looked at, never becomes the type of
anything.
-/

namespace RuleTypes

/-! ## Reading clear types -/

/-- The types that operators are given by are clear. -/
structure Operators.ClearIn (A : Admission) (ops : Operators) (t : TypeTable) : Prop where
  number : t.Clear A ops.number
  string : t.Clear A ops.string
  truth : t.Clear A ops.truth
  candidates : ∀ symbol, ∀ id ∈ ops.candidates symbol, t.Clear A id

theorem Operators.ClearIn.of_clear {A A' : Admission} {ops : Operators} {t t' : TypeTable}
    (h : ops.ClearIn A t) (htable : ∀ id, t.Clear A id → t'.Clear A' id) : ops.ClearIn A' t' :=
  ⟨htable _ h.number, htable _ h.string, htable _ h.truth,
    fun symbol id hid => htable id (h.candidates symbol id hid)⟩

namespace TypeTable

variable {t : TypeTable} {id type : TypeId} {A : Admission}

theorem Clear.result {params : List TypeId} {result : TypeId} (h : t.Clear A id)
    (hform : t.form? id = some (.function params result)) : t.Clear A result :=
  h.component hform (List.mem_append_right _ (List.mem_singleton.mpr rfl))

theorem Clear.element {form : Form} (h : t.Clear A id) (hform : t.form? id = some form)
    (helement : form.element? = some type) : t.Clear A type := by
  refine h.component hform ?_
  unfold Form.element? at helement
  split at helement
  · split at helement
    · obtain rfl := Option.some.inj helement
      exact List.mem_cons_self ..
    · cases helement
  · cases helement

theorem Clear.hasField {field : String} (h : t.Clear A id) (hfield : t.HasField id field type) :
    t.Clear A type := by
  obtain ⟨form, fields, hform, hfields, hlookup⟩ := hfield
  obtain ⟨before, after, rfl, -⟩ := List.lookup_eq_some_iff.mp hlookup
  refine h.component hform ?_
  cases form <;> cases hfields <;> simp [Form.components]

theorem Clear.offers {field : String} (h : t.Clear A id) (hoffers : t.Offers id field type) :
    t.Clear A type := by
  obtain hfield | ⟨target, hform, hfield⟩ := hoffers
  · exact h.hasField hfield
  · exact (h.component hform (List.mem_singleton.mpr rfl)).hasField hfield

theorem Selects.mem {candidates args : List TypeId} (h : t.Selects candidates args id) :
    id ∈ candidates :=
  ((h.only id).mpr rfl).1

end TypeTable

/-- Whether the node is a variable. -/
def NodeKind.isVar : NodeKind → Bool
  | var .. => true
  | _ => false

namespace Check

open TypeTable

variable {α : Type} {A : Admission} {spared : List NodeId} {cx : Setting} {infer : Infer}
  {s s' : State} {span : Span} {type : TypeId}

/-! ## The invariant -/

/-- Every type that the check can come by is clear. This leaves out the marks of variables and the
types of some nodes, which are not read again. -/
structure Knows (A : Admission) (spared : List NodeId) (cx : Setting) (s : State) : Prop where
  builtin : cx.builtin.ClearIn A s.table
  sources : TypeExpr.Sources A s.names s.table
  operators : ∀ symbol, ∀ id ∈ (s.operators.get? symbol).getD [], s.table.Clear A id
  members : ∀ name, ∀ id ∈ (s.members.get? name).getD [], s.table.Clear A id
  bound : ∀ binding, s.scope.Contains binding → s.table.Clear A binding.type
  results : ∀ frame ∈ s.scope.frames, ∀ result, frame.kind = .function result →
    s.table.Clear A result
  annotated : ∀ id type, s.annotations.get? id = some type → id ∉ spared →
    s.table.Clear A type ∨
      type = .auto ∧ ∃ node, cx.arena.node? id = some node ∧ node.kind.isVar = true

theorem Knows.withTable (h : Knows A spared cx s) {table : TypeTable}
    (htable : ∀ id, s.table.Clear A id → table.Clear A id) :
    Knows A spared cx { s with table } where
  builtin := h.builtin.of_clear htable
  sources :=
    ⟨fun name id hid => htable id (h.sources.named name id hid), htable _ h.sources.noValue⟩
  operators symbol id hid := htable id (h.operators symbol id hid)
  members name id hid := htable id (h.members name id hid)
  bound binding hbinding := htable _ (h.bound binding hbinding)
  results frame hframe result hkind := htable _ (h.results frame hframe result hkind)
  annotated id type htype hspared := (h.annotated id type htype hspared).imp_left (htable type)

theorem Knows.overloads (h : Knows A spared cx s) (symbol : String) :
    ∀ id ∈ overloads cx s symbol, s.table.Clear A id := by
  intro id hid
  obtain hid | hid := List.mem_append.mp hid
  · exact h.builtin.candidates symbol id hid
  · exact h.operators symbol id hid

theorem Knows.applies {symbol : String} {args : List TypeId} (h : Knows A spared cx s)
    (happlies : Applies cx s symbol args type) : s.table.Clear A type := by
  obtain ⟨signature, hselects, hform⟩ := happlies
  exact (h.overloads symbol signature hselects.mem).result hform

/-- What was clear before is clear afterwards. -/
def Carries (A : Admission) (spared : List NodeId) (cx : Setting) (s s' : State) : Prop :=
  Knows A spared cx s → Knows A spared cx s'

instance : IsPreorder State (Carries A spared cx) where
  refl _ := id
  trans _ _ _ h h' := h' ∘ h

instance : Extensible (Carries A spared cx) (fun _ => Carries A spared cx) where
  table _ _ h hknows := hknows.withTable fun _ hid => hid.extends h

/-! ## Steps -/

theorem carries_of_extended {x : Check α} (h : Moves Extended x) : Moves (Carries A spared cx) x :=
  (goes_of_extended h : Goes (Carries A spared cx) (fun _ => Carries A spared cx) x).moves

theorem Knows.push (h : Knows A spared cx s) {kind : FrameKind} {scope : Scope}
    (hpush : s.scope.push kind = .ok scope)
    (hkind : ∀ result, kind = .function result → s.table.Clear A result) :
    Knows A spared cx { s with scope } := by
  refine { h with
    bound := fun binding hbinding => h.bound binding (hbinding.of_push hpush)
    results := fun frame hframe result hresult => ?_ }
  obtain ⟨-, rfl⟩ := Scope.push_eq_ok.mp hpush
  obtain rfl | hframe := List.mem_cons.mp hframe
  · exact hkind result hresult
  · exact h.results frame hframe result hresult

theorem openFrame_carries (kind : FrameKind)
    (hkind : ∀ result, kind = .function result → s.table.Clear A result) :
    Carries A spared cx s (endState (openFrame kind s)) := update_at fun s' h hknows => by
  obtain ⟨scope, hpush, rfl⟩ := openFrame_eq_ok.mp (update_eq_ok (u := ()).mpr h)
  exact hknows.push hpush hkind

theorem closeFrame_carries : Moves (Carries A spared cx) closeFrame :=
  update_moves fun s s' h hknows => by
    obtain ⟨scope, hpop, rfl⟩ := closeFrame_eq_ok.mp (update_eq_ok (u := ()).mpr h)
    refine { hknows with
      bound := fun binding hbinding => hknows.bound binding (hbinding.of_pop hpop)
      results := fun frame hframe => ?_ }
    obtain ⟨last, hscope⟩ := Scope.pop_eq_ok.mp hpop
    exact hknows.results frame (by rw [hscope]; exact List.mem_cons_of_mem _ hframe)

/-- Binding a name to a clear type. -/
theorem bindName_carries (name : String) (kind : BindingKind) (span : Span)
    (htype : s.table.Clear A type) :
    Carries A spared cx s (endState (bindName name type kind span s)) := by
  unfold bindName
  cases hbind : s.scope.bind name ⟨type, kind, span⟩ with
  | error existing => exact id
  | ok scope =>
    intro hknows
    obtain ⟨-, rfl⟩ := Scope.bind_eq_ok.mp hbind
    refine { hknows with
      bound := fun binding hbinding => ?_
      results := fun frame hframe result hresult => ?_ }
    · obtain rfl | hbinding := hbinding.of_withBinding
      · exact htype
      · exact hknows.bound binding hbinding
    · obtain ⟨old, hold, heq⟩ := Scope.kind_of_withBinding hframe
      exact hknows.results old hold result (heq.trans hresult)

/-- Giving a node a clear type. -/
theorem annotate_carries (id : NodeId) (htype : s.table.Clear A type) :
    Carries A spared cx s (endState (annotate id type s)) := update_at fun s' h hknows => by
  obtain ⟨annotations, hset, rfl⟩ := annotate_eq_ok.mp (update_eq_ok (u := ()).mpr h)
  refine { hknows with annotated := fun other found hfound hspared => ?_ }
  rw [Annotations.get?_of_set hset] at hfound
  split at hfound
  · exact .inl (Option.some.inj hfound ▸ htype)
  · exact hknows.annotated other found hfound hspared

theorem annotateProvisional_carries {id : NodeId} {node : Node}
    (hnode : cx.arena.node? id = some node) (hkind : node.kind.isVar = true) :
    Moves (Carries A spared cx) (annotateProvisional id) := update_moves fun s s' h hknows => by
  obtain ⟨annotations, hset, rfl⟩ := annotateProvisional_eq_ok.mp (update_eq_ok (u := ()).mpr h)
  refine { hknows with annotated := fun other found hfound hspared => ?_ }
  rw [Annotations.get?_of_setProvisional hset] at hfound
  split at hfound
  · rename_i heq
    exact .inr ⟨(Option.some.inj hfound).symm, node, heq ▸ hnode, hkind⟩
  · exact hknows.annotated other found hfound hspared

theorem markVariable_carries {id : NodeId} {node : Node} (hnode : cx.arena.node? id = some node)
    (hkind : node.kind.isVar = true) (declared : TypeId) :
    Moves (Carries A spared cx) (markVariable id declared) :=
  (markVariable_goes (annotateProvisional_carries hnode hkind).goes declared).moves

/-! ## Rules -/

/-- The inference carries the invariant along and answers with clear types. -/
structure Reveals (A : Admission) (spared : List NodeId) (cx : Setting) (infer : Infer) :
    Prop where
  later : ∀ id, Moves (Later fun _ => True) (infer id)
  carries : ∀ id, Moves (Carries A spared cx) (infer id)
  clear : ∀ {id s type s'}, Knows A spared cx s → infer id s = .ok type s' → s'.table.Clear A type

namespace Reveals

theorem inferAll (h : Reveals A spared cx infer) {ids : List NodeId} {types : List TypeId}
    (hs : Knows A spared cx s) (hok : inferAll infer ids s = .ok types s') :
    Knows A spared cx s' ∧ ∀ type ∈ types, s'.table.Clear A type := by
  induction ids generalizing s types with
  | nil =>
    obtain ⟨rfl, rfl⟩ := pure_eq_ok.mp hok
    exact ⟨hs, nofun⟩
  | cons id ids ih =>
    obtain ⟨first, s₁, rest, hfirst, hrest, rfl⟩ := inferAll_cons_eq_ok.mp hok
    have hs₁ := (h.carries id).ok hfirst hs
    have hlater : Later (fun _ => True) s₁ s' :=
      (inferAll_goes fun id _ => (h.later id).goes).ok hrest
    obtain ⟨hs', hknown⟩ := ih hs₁ hrest
    refine ⟨hs', fun type htype => ?_⟩
    obtain rfl | htype := List.mem_cons.mp htype
    · exact (h.clear hs hfirst).extends hlater.table
    · exact hknown type htype

theorem inferCall (h : Reveals A spared cx infer) {callee : NodeId} {args : List NodeId}
    (hs : Knows A spared cx s) (hok : inferCall cx infer callee args s = .ok type s') :
    s'.table.Clear A type := by
  obtain ⟨argTypes, s₁, node, hargs, -, hways⟩ := inferCall_eq_ok hok
  obtain ⟨hs₁, -⟩ := h.inferAll hs hargs
  obtain ⟨symbol, signature, annotations, -, -, hselects, -, rfl, hform⟩ |
    ⟨base, name, receiver, s₂, signature, annotations, -, -, hbase, hselects, -, rfl, hform⟩ |
    ⟨calleeType, -, hcallee, hform⟩ := hways
  · exact (hs₁.overloads symbol signature hselects.mem).result hform
  · exact (((h.carries base).ok hbase hs₁).members name signature hselects.mem).result hform
  · exact (h.clear hs₁ hcallee).result hform

/-- The callee gets a signature that was built in or registered. -/
theorem inferCall_carries (h : Reveals A spared cx infer) (callee : NodeId) (args : List NodeId) :
    Moves (Carries A spared cx) (Check.inferCall cx infer callee args) := by
  have hpart : ∀ child, Goes (Carries A spared cx) (fun _ => Carries A spared cx) (infer child) :=
    fun child => (h.carries child).goes
  refine .bind (inferAll_goes fun id _ => hpart id).moves fun argTypes =>
    .bind (nodeOf_moves _ _) fun node => .bind (calleeOf_moves _) fun way => ?_
  cases way with
  | operator symbol =>
    intro s hs
    refine Moves.bind_at (R := Carries A spared cx) (selectOperator_moves _ _ _ s)
      (fun signature s₁ hselect => ?_) hs
    obtain ⟨hselects, rfl⟩ := selectOperator_eq_ok hselect
    exact Moves.bind_at (annotate_carries callee (hs.overloads symbol signature hselects.mem))
      fun _ s₂ _ => resultOf_moves _ s₂
  | member base name =>
    intro s hs
    have hselects := (selectMember_goes (hpart base) name argTypes node.span).moves
    refine Moves.bind_at (R := Carries A spared cx) (hselects s) (fun signature s₁ hselect => ?_) hs
    obtain ⟨receiver, hbase, hselects⟩ := selectMember_eq_ok hselect
    have hs₁ := (h.carries base).ok hbase hs
    exact Moves.bind_at (annotate_carries callee (hs₁.members name signature hselects.mem))
      fun _ s₂ _ => resultOf_moves _ s₂
  | value => exact .bind (h.carries callee) fun _ => applyValue_moves _ _ _ _

theorem inferUnary (h : Reveals A spared cx infer) {symbol : String} {operand : NodeId}
    (hs : Knows A spared cx s) (hok : inferUnary cx infer symbol operand span s = .ok type s') :
    s'.table.Clear A type := by
  obtain ⟨operandType, s₁, hoperand, hways⟩ := inferUnary_eq_ok hok
  have hknown := h.clear hs hoperand
  obtain ⟨-, -, table, hintern, rfl⟩ | ⟨-, hform, rfl⟩ | ⟨-, -, happlies, rfl⟩ := hways
  · refine clear_of_form? (form?_of_internPointer hintern) (A.structural rfl) fun part hpart => ?_
    obtain rfl := List.mem_singleton.mp hpart
    exact hknown.extends ((internPointer_moves _).ok hintern)
  · exact hknown.component hform (List.mem_singleton.mpr rfl)
  · exact ((h.carries operand).ok hoperand hs).applies happlies

theorem inferLiteral (h : Reveals A spared cx infer) {written : Option TypeExpr} {members : Members}
    (hs : Knows A spared cx s) (hok : inferLiteral cx infer written members span s = .ok type s') :
    s'.table.Clear A type := by
  obtain ⟨memberTypes, s₁, hmembers, hok⟩ := bind_eq_ok.mp hok
  obtain ⟨hs₁, hknown⟩ := h.inferAll hs hmembers
  cases written with
  | some written =>
    obtain ⟨table, hresolve, rfl, -⟩ := inferTyped_eq_ok hok
    exact TypeExpr.resolveConcrete_clear written hs₁.sources hresolve
  | none =>
    obtain ⟨fields, _, hfields, hok⟩ := bind_eq_ok.mp hok
    obtain ⟨rfl, rfl⟩ := recordFields_eq_ok hfields
    obtain ⟨table, hintern, rfl⟩ := onTable_eq_ok.mp hok
    refine clear_of_form? (form?_of_internRecord hintern) (A.structural rfl) fun part hpart => ?_
    obtain ⟨⟨name, found⟩, hfield, rfl⟩ := List.mem_map.mp hpart
    exact (hknown found (List.of_mem_zip hfield).2).extends ((internRecord_moves _).ok hintern)

theorem inferStatements (h : Reveals A spared cx infer) {last : TypeId} {ids : List NodeId}
    (hs : Knows A spared cx s) (hlast : s.table.Clear A last)
    (hok : inferStatements cx infer last ids s = .ok type s') : s'.table.Clear A type := by
  induction ids generalizing s last with
  | nil =>
    obtain ⟨rfl, rfl⟩ := pure_eq_ok.mp hok
    exact hlast
  | cons id ids ih =>
    obtain ⟨first, s₁, node, hfirst, -, hrest⟩ := inferStatements_cons_eq_ok hok
    have hs₁ := (h.carries id).ok hfirst hs
    refine ih hs₁ ?_ hrest
    split
    · exact hs₁.sources.noValue
    · exact h.clear hs hfirst

/-- The type of a variable is that of its initializer. -/
theorem inferVariable (h : Reveals A spared cx infer) {id start : NodeId} {node : Node}
    {name : String} {written : TypeExpr} (hnode : cx.arena.node? id = some node)
    (hkind : node.kind.isVar = true) (hs : Knows A spared cx s)
    (hok : inferVariable infer id name written start span s = .ok type s') :
    s'.table.Clear A type := by
  obtain ⟨declared, table, s₁, s₂, scope, hresolve, hmark, hstart, -, -, -, rfl⟩ :=
    inferVariable_eq_ok hok
  have htable : Knows A spared cx { s with table } :=
    hs.withTable fun _ hid => hid.extends ((TypeExpr.resolve_moves _ _).ok hresolve)
  have hknown := h.clear ((markVariable_carries hnode hkind declared).ok hmark htable) hstart
  exact hknown

theorem inferVariable_carries (h : Reveals A spared cx infer) {id start : NodeId} {node : Node}
    (hnode : cx.arena.node? id = some node) (hkind : node.kind.isVar = true) (name : String)
    (written : TypeExpr) (span : Span) :
    Moves (Carries A spared cx) (Check.inferVariable infer id name written start span) := by
  rw [inferVariable_eq]
  refine .bind (carries_of_extended (resolve_extended _ _)) fun declared =>
    .bind (markVariable_carries hnode hkind declared) fun _ s hs => ?_
  refine Moves.bind_at (R := Carries A spared cx) (h.carries start s)
    (fun found s₁ hfound => ?_) hs
  have hknown := h.clear hs hfound
  refine Moves.bind_at (require_moves _ (.pure _) _ s₁) fun _ s₂ hvalue => ?_
  obtain ⟨-, rfl⟩ := require_eq_ok.mp hvalue
  refine Moves.bind_at (requireFit_moves _ _ _ _ _ s₁) fun _ s₃ hmatch => ?_
  obtain ⟨-, rfl⟩ := require_eq_ok.mp hmatch
  exact Moves.bind_at (bindName_carries _ _ _ hknown) fun _ s₄ _ => Moves.pure _ s₄

/-- **A rule answers with a clear type.** -/
theorem inferNode (h : Reveals A spared cx infer) {id : NodeId} {node : Node}
    (hnode : cx.arena.node? id = some node) (hs : Knows A spared cx s) (hs' : Knows A spared cx s')
    (hok : inferNode cx infer id node s = .ok type s') : s'.table.Clear A type := by
  unfold Check.inferNode at hok
  generalize hkind : node.kind = kind at hok
  cases kind with
  | identifier name =>
    obtain ⟨⟨binding, hlookup, rfl⟩, rfl⟩ := inferIdentifier_eq_ok hok
    exact hs.bound binding (Scope.contains_of_lookup hlookup)
  | number =>
    obtain ⟨rfl, rfl⟩ := pure_eq_ok.mp hok
    exact hs.builtin.number
  | string =>
    obtain ⟨rfl, rfl⟩ := pure_eq_ok.mp hok
    exact hs.builtin.string
  | member base field =>
    obtain ⟨baseType, hbase, hoffers⟩ := inferMember_eq_ok hok
    exact (h.clear hs hbase).offers hoffers
  | index base position =>
    obtain ⟨baseType, form, s₁, hbase, hform, helement, hposition⟩ := inferIndex_eq_ok hok
    have hknown := (h.clear hs hbase).element hform helement
    exact hknown.extends ((h.later position).ok hposition).table
  | call callee args => exact h.inferCall hs hok
  | binary symbol left right =>
    obtain ⟨leftType, rightType, s₁, hleft, hright, happlies⟩ := inferBinary_eq_ok hok
    exact hs'.applies happlies
  | unary symbol operand => exact h.inferUnary hs hok
  | assign target value =>
    obtain ⟨_, _, _, _, _, rfl⟩ := inferAssign_eq_ok hok
    exact hs'.sources.noValue
  | literal written members => exact h.inferLiteral hs hok
  | branch condition thenArm elseArm =>
    obtain ⟨thenType, s₁, s₂, hcondition, hthen, ⟨-, rfl, -⟩ | ⟨arm, -, harm, rfl⟩⟩ :=
      inferBranch_eq_ok hok
    · exact hs'.sources.noValue
    · have hs₂ := (h.carries thenArm).ok hthen ((h.carries condition).ok hcondition hs)
      exact h.clear hs₂ harm
  | loop start condition body =>
    obtain ⟨_, _, _, _, _, _, _, _, _, _, _, _, _, rfl⟩ := inferLoop_eq_ok hok
    exact hs'.sources.noValue
  | block statements =>
    obtain ⟨opened, s₁, closed, hpush, hstatements, hpop, rfl⟩ := inferBlock_eq_ok hok
    have hopened := hs.push hpush nofun
    have hknown := h.inferStatements hopened hopened.sources.noValue hstatements
    exact hknown
  | jump kind value =>
    obtain ⟨_, _, rfl, _⟩ := inferJump_eq_ok hok
    exact hs'.sources.noValue
  | var name written start => exact h.inferVariable hnode (by rw [hkind]; rfl) hs hok
  | function | foreign | struct => exact (report_eq_ok.mp hok).elim

theorem inferNode_carries (h : Reveals A spared cx infer) {id : NodeId} {node : Node}
    (hnode : cx.arena.node? id = some node) :
    Moves (Carries A spared cx) (Check.inferNode cx infer id node) := by
  have hpart : ∀ child, Goes (Carries A spared cx) (fun _ => Carries A spared cx) (infer child) :=
    fun child => (h.carries child).goes
  have hopens : ∀ kind : FrameKind, (∀ result, kind ≠ .function result) →
      Goes (Carries A spared cx) (fun _ => Carries A spared cx) (openFrame kind) :=
    fun kind hkind => Moves.goes fun _ =>
      openFrame_carries kind fun result heq => absurd heq (hkind result)
  refine (inferNode_goes_of_writing (fun _ child _ => hpart child) ?_ ?_ ?_ ?_).moves
  · exact fun callee args _ => (h.inferCall_carries callee args).goes
  · exact fun statements _ => inferBlock_goes (hopens .block nofun) closeFrame_carries.goes
      fun child _ => hpart child
  · exact fun start condition body _ => inferLoop_goes (hopens .loop nofun)
      closeFrame_carries.goes (fun child _ => hpart child) (hpart condition) (hpart body)
  · exact fun name written start hkind =>
      (h.inferVariable_carries hnode (by rw [hkind]; rfl) name written node.span).goes

end Reveals

/-- **Inference works with clear types.** -/
theorem inferAt_reveals (depth : Nat) : Reveals A spared cx (inferAt cx depth) := by
  induction depth with
  | zero => exact ⟨fun _ => .throw _, fun _ => .throw _, fun _ h => (throw_eq_ok.mp h).elim⟩
  | succ depth ih =>
    refine ⟨fun id => inferAt_later (fun _ _ _ _ => trivial) _ id trivial, fun id => ?_, ?_⟩
    · refine .bind_of (nodeOf_moves _ _) fun node _ _ hread s hs => ?_
      obtain ⟨hnode, -⟩ := nodeOf_eq_ok.mp hread
      have hcarries := ih.inferNode_carries hnode
      refine Moves.bind_at (R := Carries A spared cx) (hcarries s) (fun type s₁ hok => ?_) hs
      have hknown := ih.inferNode hnode hs (hcarries.ok hok hs) hok
      exact Moves.bind_at (annotate_carries id hknown) fun _ s₂ _ => Moves.pure _ s₂
    · intro id s type s' hs h
      obtain ⟨node, s₁, annotations, hnode, hok, -, rfl⟩ := inferAt_succ_eq_ok h
      have hknown := ih.inferNode hnode hs ((ih.inferNode_carries hnode).ok hok hs) hok
      exact hknown

/-! ## Items -/

theorem bindParams_carries (span : Span) (params : List (String × TypeExpr)) {types : List TypeId}
    (htypes : ∀ type ∈ types, s.table.Clear A type) :
    Carries A spared cx s (endState (bindParams span params types s)) := by
  induction params generalizing s types with
  | nil => exact Moves.pure _ s
  | cons param params ih =>
    cases types with
    | nil => exact Moves.pure _ s
    | cons type types =>
      refine Moves.bind_at (bindName_carries _ _ _ (htypes type (List.mem_cons_self ..)))
        fun _ s₁ hbind => ih fun other hother => ?_
      obtain ⟨scope, -, rfl⟩ := bindName_eq_ok.mp hbind
      exact htypes other (List.mem_cons_of_mem _ hother)

theorem checkFunction_carries {id : NodeId} {node : Node} (hnode : cx.arena.node? id = some node)
    (hvar : node.kind.isVar = false) (hspared : id ∉ spared) (span : Span) (name : String)
    (kind : FunctionKind) (params : List (String × TypeExpr)) (body : NodeId) :
    Moves (Carries A spared cx) (checkFunction cx id span name kind params body) := fun s hs => by
  have hclear : ∀ signature, s.annotations.get? id = some signature →
      s.table.Clear A signature := fun signature hsignature =>
    (hs.annotated id signature hsignature hspared).resolve_right fun ⟨_, node', hnode', hvar'⟩ => by
      obtain rfl := Option.some.inj (hnode'.symm.trans hnode)
      simp [hvar] at hvar'
  refine checkFunction_at (R := Carries A spared cx) ?_ closeFrame_carries ?_
    ((inferAt_reveals _).carries body) name kind hs
  · intro signature types result hsignature hform
    refine openFrame_carries _ fun _ heq => ?_
    cases heq
    exact (hclear signature hsignature).result hform
  · intro signature types result opened hsignature hform
    refine bindParams_carries span params fun type htype => ?_
    exact (hclear signature hsignature).component hform (List.mem_append_left _ htype)

theorem checkItem_carries {item : Item} (hnode : cx.arena.node? item.id = some item.node)
    (hspared : item.id ∈ spared → item.structDef?.isSome = true) :
    Moves (Carries A spared cx) (checkItem cx item) := by
  have hinfer : Moves (Carries A spared cx) (Check.infer cx item.id) :=
    (inferAt_reveals _).carries item.id
  unfold checkItem
  cases hkind : item.node.kind with
  | struct | foreign => exact .pure _
  | function name kind params result body =>
    refine .bind (checkFunction_carries hnode (by rw [hkind]; rfl) (fun hmem => ?_) _ _ _ _ _)
      fun _ => .pure _
    have hstruct := hspared hmem
    simp [Item.structDef?, hkind] at hstruct
  | var => exact .bind hinfer fun _ => .pure _
  | _ => exact .bind (require_moves _ (.pure _) _) fun _ => .bind hinfer fun _ => .pure _

/-! ## Registration -/

theorem declareStruct_carries (d : StructDef) : Moves (Carries .known [] cx) (declareStruct d) := by
  refine .bind (require_moves _ (.pure _) _) fun _ => .bind .get fun _ =>
    .bind (require_moves _ (.pure _) _) fun _ s hs => ?_
  refine Moves.bind_at (R := Carries .known [] cx)
    (fun hs => hs.withTable fun _ hid => Known.withReserved hid d.name)
    (fun id s₁ hreserve => ?_) hs
  obtain ⟨table, hreserved, rfl⟩ := onTable_eq_ok.mp hreserve
  obtain ⟨rfl, rfl⟩ : ⟨s.table.size⟩ = id ∧ s.table.withReserved d.name = table := by
    simpa [reserve_eq] using hreserved
  have hid := known_reserved s.table d.name
  refine Moves.bind_at (fun hs₁ => { hs₁ with
    sources := ⟨fun name id hname => ?_, hs₁.sources.noValue⟩ }) fun _ s₂ hnames => ?_
  · change (s.names.insert d.name _).get? name = some id at hname
    rw [NameMap.get?_insert] at hname
    split at hname
    · exact Option.some.inj hname ▸ hid
    · exact hs₁.sources.named name id hname
  · obtain rfl := modify_eq_ok.mp hnames
    exact annotate_carries d.node hid

/-- Unbinding the name of a struct that failed takes nothing away that is known. -/
theorem orForget_carries (name : String) (id : TypeId) {x : Check Unit}
    (h : Carries A spared cx s (endState (x s))) :
    Carries A spared cx s (endState (orForget name id x s)) := by
  unfold orForget
  revert h
  cases x s with
  | ok u s₁ => exact fun h => h
  | error e s₁ =>
    cases e with
    | fault cause => exact fun h => h
    | error finding =>
      intro h hs
      have hs₁ : Knows A spared cx s₁ := h hs
      change Knows A spared cx (forget name id s₁)
      unfold forget
      split
      · refine { hs₁ with sources := ⟨fun other found hfound => ?_, hs₁.sources.noValue⟩ }
        change (s₁.names.erase name).get? other = some found at hfound
        rw [NameMap.get?_erase] at hfound
        split at hfound
        · cases hfound
        · exact hs₁.sources.named other found hfound
      · exact hs₁

theorem resolveConcrete_clear {written : TypeExpr} (hs : Knows A spared cx s)
    (h : resolveConcrete written span s = .ok type s') : s'.table.Clear A type := by
  obtain ⟨table, hresolve, rfl⟩ := resolveConcrete_eq_ok.mp h
  exact TypeExpr.resolveConcrete_clear written hs.sources hresolve

theorem resolveFields_clear {fields : List (String × TypeExpr)} {ids : List (String × TypeId)}
    (hs : Knows A spared cx s) (h : resolveFields span fields s = .ok ids s') :
    ∀ field ∈ ids, s'.table.Clear A field.2 := by
  induction fields generalizing s ids with
  | nil =>
    obtain ⟨rfl, rfl⟩ := pure_eq_ok.mp h
    exact nofun
  | cons field fields ih =>
    obtain ⟨first, s₁, hfirst, h⟩ := bind_eq_ok.mp h
    obtain ⟨rest, s₂, hrest, h⟩ := bind_eq_ok.mp h
    obtain ⟨rfl, rfl⟩ := pure_eq_ok.mp h
    have hs₁ := (carries_of_extended (resolveConcrete_extended _ _)).ok hfirst hs
    obtain ⟨table, hextends, rfl⟩ := (resolveFields_extended _ _).ok hrest
    intro other hother
    obtain rfl | hother := List.mem_cons.mp hother
    · exact (resolveConcrete_clear hs hfirst).extends hextends
    · exact ih hs₁ hrest other hother

theorem fillStruct_carries (d : StructDef) : Moves (Carries .known [] cx) (fillStruct d) := by
  refine .bind (inspect_moves _) fun id s => orForget_carries d.name id fun hs => ?_
  refine Moves.bind_at (R := Carries .known [] cx)
    (carries_of_extended (resolveFields_extended _ _) s) (fun fields s₁ hfields hs₁ => ?_) hs
  have hknown := resolveFields_clear hs hfields
  unfold onTable
  cases hfill : fill id fields s₁.table with
  | ok u table =>
    obtain ⟨name, old, hform, -, -, -, rfl⟩ := fill_eq_ok hfill
    exact hs₁.withTable fun _ hid => Known.withFilled hform hknown hid
  | error e table =>
    obtain rfl := fill_eq_error hfill
    cases e with
    | fault cause => exact hs₁
    | error cause =>
      dsimp only
      cases Problem.ofTable cause <;> exact hs₁

theorem checkLayout_carries (d : StructDef) : Moves (Carries A spared cx) (checkLayout d) := by
  refine .bind (inspect_moves _) fun id s => orForget_carries d.name id ?_
  refine Moves.bind (inspect_moves _) (fun _ => .bind (require_moves _ (.pure _) _) fun _ =>
    .bind (inspect_moves _) fun broken => ?_) s
  cases broken with
  | none => exact .pure _
  | some name => exact report_moves _ _

theorem resolveParams_clear {params : List (String × TypeExpr)} {types : List TypeId}
    (hs : Knows A spared cx s) (h : resolveParams span params s = .ok types s') :
    ∀ type ∈ types, s'.table.Clear A type := by
  induction params generalizing s types with
  | nil =>
    obtain ⟨rfl, rfl⟩ := pure_eq_ok.mp h
    exact nofun
  | cons param params ih =>
    obtain ⟨first, s₁, hfirst, h⟩ := bind_eq_ok.mp h
    obtain ⟨rest, s₂, hrest, h⟩ := bind_eq_ok.mp h
    obtain ⟨rfl, rfl⟩ := pure_eq_ok.mp h
    have hs₁ := (carries_of_extended (resolveConcrete_extended _ _)).ok hfirst hs
    obtain ⟨table, hextends, rfl⟩ := (resolveParams_extended _ _).ok hrest
    intro other hother
    obtain rfl | hother := List.mem_cons.mp hother
    · exact (resolveConcrete_clear hs hfirst).extends hextends
    · exact ih hs₁ hrest other hother

theorem signatureOf_clear {d : FunctionDef} {signature : TypeId} (hs : Knows A spared cx s)
    (h : signatureOf d s = .ok signature s') : s'.table.Clear A signature := by
  obtain ⟨params, s₁, hparams, h⟩ := bind_eq_ok.mp h
  have hs₁ := (carries_of_extended (resolveParams_extended _ _)).ok hparams hs
  have hknown := resolveParams_clear hs hparams
  have hintern : ∀ {result s₂}, Extended s₁ s₂ → s₂.table.Clear A result →
      onTable Problem.ofTable d.span (internFunction params result) s₂ = .ok signature s' →
      s'.table.Clear A signature := by
    rintro result _ ⟨table₂, hextends₂, rfl⟩ hresult h
    obtain ⟨table, hintern, rfl⟩ := onTable_eq_ok.mp h
    have hextends := (internFunction_moves (R := Extends) _ _).ok hintern
    refine clear_of_form? (form?_of_internFunction hintern) (A.structural rfl) fun part hpart => ?_
    obtain hpart | hpart := List.mem_append.mp hpart
    · exact (hknown part hpart).extends (hextends₂.trans hextends)
    · obtain rfl := List.mem_singleton.mp hpart
      exact hresult.extends hextends
  cases hresult : d.result with
  | none =>
    simp only [hresult] at h
    obtain ⟨result, s₂, hpure, h⟩ := bind_eq_ok.mp h
    obtain ⟨rfl, rfl⟩ := pure_eq_ok.mp hpure
    exact hintern (refl_of Extended s₁) hs₁.sources.noValue h
  | some written =>
    simp only [hresult] at h
    obtain ⟨result, s₂, hwritten, h⟩ := bind_eq_ok.mp h
    have hknown := resolveConcrete_clear hs₁ hwritten
    exact hintern ((resolveConcrete_extended _ _).ok hwritten) hknown h

theorem registerFunction_carries (d : FunctionDef) :
    Moves (Carries A spared cx) (registerFunction cx d) := fun s hs => by
  refine registerFunction_at (R := Carries A spared cx)
    (carries_of_extended (signatureOf_extended d) s) (fun signature s₁ hsignature => ?_) hs
  have hknown := signatureOf_clear hs hsignature
  refine ⟨fun _ => bindName_carries _ _ _ hknown, fun hs₁ => ?_, fun hs₁ => ?_, fun s₂ htable => ?_⟩
  · refine { hs₁ with operators := fun symbol id hid => ?_ }
    obtain rfl | hid := mem_getD_insert hid
    · exact hknown
    · exact hs₁.operators symbol id hid
  · refine { hs₁ with members := fun name id hid => ?_ }
    obtain rfl | hid := mem_getD_insert hid
    · exact hknown
    · exact hs₁.members name id hid
  · exact annotate_carries d.node (htable ▸ hknown)

/-! ## Runs -/

/-- Undoing what an item did takes nothing away that is known. -/
theorem Knows.attempt (hs : Knows A spared cx s) {x : Check α} (hx : Moves (Carries A spared cx) x)
    {r : Except Finding α} (h : Check.attempt x s = .ok (r, s')) : Knows A spared cx s' := by
  obtain ⟨a, -, hok⟩ | ⟨finding, s₁, annotations, -, herror, hback, rfl⟩ := attempt_eq_ok h
  · exact hx.ok hok hs
  · have hs₁ := hx.error herror hs
    refine { hs₁ with
      bound := fun binding hbinding => hs₁.bound binding hbinding.of_unwind
      results := nofun
      annotated := fun id type htype => ?_ }
    exact hs₁.annotated id type (Annotations.get?_of_rollback hback htype)

theorem Knows.register {p p' : Progress} (hp : Knows A spared cx p.state) {x : Check Unit}
    (hx : Moves (Carries A spared cx) x) {position : Nat} {id : NodeId}
    (h : p.register position id x = .ok p') : Knows A spared cx p'.state := by
  obtain ⟨r, state, hattempt, hresult⟩ := register_eq_ok h
  have hstate := hp.attempt hx hattempt
  obtain ⟨-, rfl⟩ | ⟨finding, -, rfl⟩ := hresult <;> exact hstate

theorem Knows.registerStep {p p' : Progress} {items : List Item} (hp : Knows .known [] cx p.state)
    (h : RegisterStep cx items p p') : Knows .known [] cx p'.state := by
  cases h with
  | declare _ h => exact hp.register (declareStruct_carries _) h
  | fill _ _ h => exact hp.register (fillStruct_carries _) h
  | layout _ _ h => exact hp.register (checkLayout_carries _) h
  | function _ h => exact hp.register (registerFunction_carries _) h

theorem Knows.start {table : TypeTable} (hbuiltin : cx.builtin.ClearIn A table)
    (hnoValue : table.Clear A .noValue) (n : Nat) : Knows A spared cx (State.start table n) where
  builtin := hbuiltin
  sources := ⟨nofun, hnoValue⟩
  operators := nofun
  members := nofun
  bound binding hbinding := by
    obtain ⟨_, hframe, -⟩ | ⟨_, hglobal⟩ := hbinding
    · cases hframe
    · cases hglobal
  results := nofun
  annotated id type htype := by
    change (Annotations.blank n).get? id = some type at htype
    simp [Annotations.get?_blank] at htype

theorem knows_of_steps {p p' : Progress} {items : List Item} (hp : Knows .known [] cx p.state)
    (h : Relation.ReflTransGen (RegisterStep cx items) p p') : Knows .known [] cx p'.state := by
  induction h with
  | refl => exact hp
  | tail _ hstep ih => exact ih.registerStep hstep

/-- **A check works with clear types**, whatever items it has looked at. -/
theorem Knows.checkItems {p p' : Progress} {items : List Item} (hp : Knows A spared cx p.state)
    (hnode : ∀ item ∈ items, cx.arena.node? item.id = some item.node)
    (hspared : ∀ item ∈ items, item.id ∈ spared → item.structDef?.isSome = true)
    (h : p.checkItems cx items = .ok p') : Knows A spared cx p'.state := by
  refine checkItems_invariant (P := fun _ q => Knows A spared cx q.state)
    (fun seen item rest q q' hsplit hq hstep => ?_) hp h
  have hcarries : Moves (Carries A spared cx) (checkItem cx item) :=
    checkItem_carries (hnode item (by simp [hsplit])) (hspared item (by simp [hsplit]))
  cases hstep with
  | skip => exact hq
  | done _ h => exact hcarries.ok h hq
  | found _ h => exact hq.attempt hcarries h

end Check

end RuleTypes
