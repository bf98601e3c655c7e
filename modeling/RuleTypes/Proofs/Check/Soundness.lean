import RuleTypes.Proofs.Check.Complete
import RuleTypes.Proofs.Check.Typing

/-!
# Inference is sound

When the inference of a node answers, the node and everything below it have the types that their
rules give them (`inferAt_infers`). A rule looks at the parts of its node one after another. Before
each of them every name is bound as it has to be where the part stands, and afterwards the part has
its type and its variables are in scope (`Chain.done`); what was found first is still there at the
end, since final types stay.
-/

namespace RuleTypes

open Relation

namespace Check

variable {cx : Setting} {globals : NameMap Binding} {infer : Infer} {s s' s₁ : State}
  {id part : NodeId} {node : Node} {type : TypeId} {before after ids : List NodeId}
  {types : List TypeId}

/-! ## Nodes that are finished -/

/-- Final types stay, and so do the names of the innermost frame. -/
structure Retains (s s' : State) : Prop extends Advances s s' where
  bound : ∀ name binding, s.scope.current.get? name = some binding →
    s'.scope.current.get? name = some binding

theorem Retains.refl (s : State) : Retains s s :=
  ⟨(Later.refl (fun _ => True) s).advances, fun _ _ h => h⟩

theorem Retains.trans (h : Retains s s₁) (h' : Retains s₁ s') : Retains s s' :=
  ⟨h.toAdvances.trans h'.toAdvances, fun name binding hget =>
    h'.bound name binding (h.bound name binding hget)⟩

theorem Later.retains {N : NodeId → Prop} (h : Later N s s') (hscope : s'.scope = s.scope) :
    Retains s s' :=
  ⟨h.advances, fun name binding hget => by rwa [hscope]⟩

theorem InScope.retains (h : InScope cx s id) (hretains : Retains s s') : InScope cx s' id := by
  intro v name hv hname
  obtain ⟨binding, hget, htype⟩ := h v name hv hname
  exact ⟨binding, hretains.bound name binding hget, htype.advances hretains.toAdvances⟩

/-- The node has the type, everything below it has the type of its rule, and the variables that it
leaves behind are in scope. -/
structure Done (cx : Setting) (globals : NameMap Binding) (s : State) (id : NodeId)
    (type : TypeId) : Prop where
  type : HasType s id type
  typed : AllTyped cx globals s id
  inScope : InScope cx s id

theorem Done.retains (h : Done cx globals s id type) (hretains : Retains s s') :
    Done cx globals s' id type :=
  ⟨h.type.advances hretains.toAdvances, h.typed.advances hretains.toAdvances,
    h.inScope.retains hretains⟩

/-- The nodes are finished, with their types in order. -/
def DoneAll (cx : Setting) (globals : NameMap Binding) (s : State) (ids : List NodeId)
    (types : List TypeId) : Prop := List.Forall₂ (Done cx globals s) ids types

theorem DoneAll.retains (h : DoneAll cx globals s ids types) (hretains : Retains s s') :
    DoneAll cx globals s' ids types := h.imp fun _ _ h => h.retains hretains

theorem DoneAll.hasTypes (h : DoneAll cx globals s ids types) : HasTypes s ids types :=
  h.imp fun _ _ h => h.type

theorem DoneAll.children {kind : NodeKind} (h : DoneAll cx globals s kind.inOrder types) :
    ∀ child ∈ kind.children, ∃ found, Done cx globals s child found := fun _ hchild =>
  exists_of_forall₂ h (kind.inOrder_perm.mem_iff.mpr hchild)

/-! ## Parts one after another -/

/-- Every type that a check can come by is known in full, and slices have one element type. -/
structure Equipped (cx : Setting) (s : State) : Prop extends Aware cx s where
  slices : s.table.UnarySlices

theorem Equipped.proceeds (hs : Equipped cx s) (h : Proceeds cx s s') : Equipped cx s' :=
  ⟨h.aware hs.toAware, hs.slices.extends h.later.table⟩

/-- The inference of the node as a value can begin: names are bound as they have to be where it
stands, and it is not called as a member function. -/
structure Begins (cx : Setting) (globals : NameMap Binding) (s : State) (id : NodeId) : Prop
    extends Equipped cx s where
  oriented : Oriented cx globals s id
  value : ∀ call base name args, ¬ MemberCall cx s call id base name args

/-- What the inference of a node has to do. -/
structure Infers (cx : Setting) (globals : NameMap Binding) (infer : Infer) : Prop where
  proceeds : ∀ {id s type s'}, infer id s = .ok type s' → Proceeds cx s s'
  gains : ∀ {id s type s'}, infer id s = .ok type s' →
    s.scope.Gains (cx.arena.Declares id) s'.scope
  done : ∀ {id s type s'}, Begins cx globals s id → infer id s = .ok type s' →
    Done cx globals s' id type

theorem Infers.retains (h : Infers cx globals infer) (hinfer : infer id s = .ok type s') :
    Retains s s' :=
  ⟨(h.proceeds hinfer).later.advances, fun _ _ => (h.gains hinfer).get?_current⟩

namespace Chain

theorem retains (hinfers : Infers cx globals infer) (h : Chain infer s ids types s') :
    Retains s s' := by
  induction h with
  | nil => exact .refl _
  | cons hfirst _ ih => exact (hinfers.retains hfirst).trans ih

/-- Parts of a node that are looked at one after another are all finished in the end, and the next
part can be looked at. -/
theorem done (hinfers : Infers cx globals infer) (hforest : cx.arena.IsForest)
    (hnode : cx.arena.node? id = some node) (h : Chain infer s ids types s')
    (hsplit : node.kind.inOrder = before ++ ids ++ after) (hs : Equipped cx s)
    (hmidway : Midway cx globals s id before)
    (hvalue : ∀ part ∈ ids, ∀ s call base name args, ¬ MemberCall cx s call part base name args) :
    Midway cx globals s' id (before ++ ids) ∧ DoneAll cx globals s' ids types := by
  induction h generalizing before with
  | nil => exact ⟨by rwa [List.append_nil], .nil⟩
  | @cons s s₁ s' part type ids types hfirst hrest ih =>
    have hplace : cx.arena.IsPart id before part := ⟨node, ids ++ after, hnode, by simp [hsplit]⟩
    have hdone := hinfers.done ⟨hs, hmidway.oriented hforest hplace,
      hvalue part (List.mem_cons_self ..) s⟩ hfirst
    have hmidway₁ := hmidway.step (hinfers.retains hfirst).toAdvances (hinfers.gains hfirst)
      hdone.inScope
    have hsplit₁ : node.kind.inOrder = before ++ [part] ++ ids ++ after := by simp [hsplit]
    obtain ⟨hmidway', hrestDone⟩ := ih hsplit₁ (hs.proceeds (hinfers.proceeds hfirst)) hmidway₁
      fun other hother => hvalue other (List.mem_cons_of_mem _ hother)
    rw [List.append_assoc, List.singleton_append] at hmidway'
    exact ⟨hmidway', .cons (hdone.retains (hrest.retains hinfers)) hrestDone⟩

end Chain

/-! ## Rules -/

/-- What is to be shown of a rule: the node has the type of its rule, the parts are finished, and
the variable that the node declares is bound. -/
structure RuleDone (cx : Setting) (globals : NameMap Binding) (s : State) (id : NodeId)
    (kind : NodeKind) (type : TypeId) : Prop where
  typed : Typed cx globals s id kind type
  parts : ∀ child ∈ kind.children, AllTyped cx globals s child
  inScope : kind.opensFrame = false → ∀ child ∈ kind.children, InScope cx s child
  bound : ∀ name written start, kind = .var name written start →
    ∃ binding, s.scope.current.get? name = some binding ∧ binding.type = type

/-- Where no frame is opened and no variable is declared, it is enough that the parts are
finished. -/
theorem RuleDone.of_parts {kind : NodeKind} (htyped : Typed cx globals s id kind type)
    (hparts : ∀ child ∈ kind.children, ∃ found, Done cx globals s child found)
    (hvar : ∀ name written start, kind ≠ .var name written start) :
    RuleDone cx globals s id kind type where
  typed := htyped
  parts child hchild := by
    obtain ⟨_, hdone⟩ := hparts child hchild
    exact hdone.typed
  inScope _ child hchild := by
    obtain ⟨_, hdone⟩ := hparts child hchild
    exact hdone.inScope
  bound name written start hkind := (hvar name written start hkind).elim

/-- A block or loop closes its frame, and the variables of its parts go out of scope. -/
theorem RuleDone.of_frame {kind : NodeKind} {closed : Scope}
    (htyped : Typed cx globals s id kind type) (hfinal : type ≠ .auto)
    (hframe : kind.opensFrame = true)
    (hparts : ∀ child ∈ kind.children, ∃ found, Done cx globals s child found) :
    RuleDone cx globals { s with scope := closed } id kind type := by
  have hadvances : Advances s { s with scope := closed } :=
    (Later.of_scope (N := fun _ => True) s closed).advances
  refine ⟨htyped.advances hfinal hadvances, fun child hchild => ?_, ?_, ?_⟩
  · obtain ⟨_, hdone⟩ := hparts child hchild
    exact hdone.typed.advances hadvances
  · rw [hframe]
    exact nofun
  · rintro name written start rfl
    cases hframe

/-- With the rule done, the node gets its type. -/
theorem RuleDone.done (h : RuleDone cx globals s id node.kind type) (hfinal : type ≠ .auto)
    (hnode : cx.arena.node? id = some node) {annotations : Annotations}
    (hset : s.annotations.set id type = .ok annotations) :
    Done cx globals { s with annotations } id type := by
  have hretains : Retains s { s with annotations } :=
    (Later.of_annotations (N := (· = id)) (.of_set rfl hset)).retains rfl
  have htype : HasType { s with annotations } id type :=
    ⟨by rw [Annotations.get?_of_set hset, if_pos rfl], hfinal⟩
  refine ⟨htype, ?_, fun v name hv hname => ?_⟩
  · exact allTyped_of_parts hnode htype (h.typed.advances hfinal hretains.toAdvances)
      fun child hchild => (h.parts child hchild).advances hretains.toAdvances
  · obtain rfl | ⟨child, ⟨node', hnode', hframe, hchild⟩, hexposed⟩ := ReflTransGen.cases_head hv
    · obtain ⟨node', written, start, hnode', hkind⟩ := hname
      obtain rfl := Option.some.inj (hnode.symm.trans hnode')
      obtain ⟨binding, hget, rfl⟩ := h.bound name written start hkind
      exact ⟨binding, hget, htype⟩
    · obtain rfl := Option.some.inj (hnode.symm.trans hnode')
      exact (h.inScope hframe child hchild).retains hretains v name hexposed hname

/-- Only what a call calls is called. -/
theorem not_memberCall_of_part (hforest : cx.arena.IsForest) (hnode : cx.arena.node? id = some node)
    (hpart : part ∈ node.kind.inOrder) (hkind : ∀ args, node.kind ≠ .call part args) (s : State)
    (call base : NodeId) (name : String) (args : List NodeId) :
    ¬ MemberCall cx s call part base name args := by
  intro hcall
  obtain ⟨callNode, hcallNode, hcallKind⟩ := hcall.call
  obtain rfl := hforest.eq_of_isChild call id part
    ⟨callNode, hcallNode, by simp [hcallKind, NodeKind.children]⟩
    ⟨node, hnode, node.kind.inOrder_perm.mem_iff.mp hpart⟩
  obtain rfl := Option.some.inj (hcallNode.symm.trans hnode)
  exact hkind args hcallKind

/-- Only functions have parameters. -/
theorem not_hasParam (hnode : cx.arena.node? id = some node)
    (hkind : ∀ name kind params result body, node.kind ≠ .function name kind params result body)
    (name : String) : ¬ cx.arena.HasParam id name := by
  rintro ⟨node', own, kind, params, result, body, hnode', hfunction, -⟩
  obtain rfl := Option.some.inj (hnode.symm.trans hnode')
  exact hkind own kind params result body hfunction

/-- A symbol that is called gets the signature that was selected. -/
theorem operator_done {callee : NodeId} {calleeNode : Node} {args : List NodeId}
    {argTypes : List TypeId} {symbol : String} {signature : TypeId} {annotations : Annotations}
    (hs : Aware cx s) (hnode : cx.arena.node? id = some node)
    (hkind : node.kind = .call callee args) (hcalleeNode : cx.arena.node? callee = some calleeNode)
    (hcalleeKind : calleeNode.kind = .identifier symbol)
    (horiented : Oriented cx globals s callee) (hlookup : s.scope.lookup symbol = none)
    (hargs : HasTypes s args argTypes)
    (hselects : s.table.Selects (overloads cx s symbol) argTypes signature)
    (hset : s.annotations.set callee signature = .ok annotations) :
    Done cx globals { s with annotations } callee signature := by
  have hrule : RuleDone cx globals s callee calleeNode.kind signature := by
    rw [hcalleeKind]
    exact .of_parts (.operator hnode hkind ((horiented symbol).unbound hlookup) hargs hselects)
      (List.forall_mem_nil _) nofun
  exact hrule.done (hs.ne_auto (hs.overloads symbol signature hselects.mem)) hcalleeNode hset

/-- A member function that is called gets the signature that was selected. -/
theorem memberFunction_done {callee base : NodeId} {args : List NodeId} {argTypes : List TypeId}
    {name : String} {receiver signature : TypeId} {annotations : Annotations} (hs : Aware cx s)
    (hcall : MemberCall cx s id callee base name args) (hbase : Done cx globals s base receiver)
    (hargs : HasTypes s args argTypes)
    (hselects : s.table.Selects ((s.members.get? name).getD []) (receiver :: argTypes) signature)
    (hset : s.annotations.set callee signature = .ok annotations) :
    Done cx globals { s with annotations } callee signature := by
  obtain ⟨calleeNode, hcalleeNode, hcalleeKind⟩ := hcall.callee
  have hrule : RuleDone cx globals s callee calleeNode.kind signature := by
    rw [hcalleeKind]
    exact .of_parts (.callee hcall hbase.type hargs hselects)
      (List.forall_mem_singleton.mpr ⟨receiver, hbase⟩) nofun
  exact hrule.done (hs.ne_auto (hs.members name signature hselects.mem)) hcalleeNode hset

theorem retains_of_set {annotations : Annotations}
    (hset : s.annotations.set id type = .ok annotations) : Retains s { s with annotations } :=
  (Later.of_annotations (N := (· = id)) (.of_set rfl hset)).retains rfl

/-- The written type of a variable, if there is one, denotes the type that was found. -/
theorem written_of_resolve {written : TypeExpr} {declared : TypeId} {table : TypeTable}
    (hs : Aware cx s) (hresolve : written.resolve s.names s.table = .ok declared table)
    (hdeclared : declared = .auto ∨ type = declared) :
    written = .auto ∨ written.Denotes s.names table type := by
  have hproceeds : Proceeds cx s { s with table } :=
    .of_table ((TypeExpr.resolve_moves _ _).ok hresolve)
  unfold TypeExpr.resolve at hresolve
  cases hauto : written.isAuto with
  | true =>
    refine .inl ?_
    cases written <;> simp_all [TypeExpr.isAuto]
  | false =>
    rw [hauto, if_neg Bool.false_ne_true] at hresolve
    have hknown := TypeExpr.resolveConcrete_clear written hs.sources hresolve
    obtain rfl := hdeclared.resolve_left ((hproceeds.aware hs).ne_auto hknown)
    exact .inr (TypeExpr.resolveConcrete_means written hresolve).1

section Rules

variable (hinfers : Infers cx globals infer) (hforest : cx.arena.IsForest)
  (hbegins : Begins cx globals s id) (hnode : cx.arena.node? id = some node)

include hinfers hforest hbegins hnode

/-- The parts of a node that opens no frame are finished after they were looked at in order. -/
theorem Chain.doneAll (h : Chain infer s node.kind.inOrder types s')
    (hfunction : ∀ name kind params result body,
      node.kind ≠ .function name kind params result body)
    (hcall : ∀ callee args, node.kind ≠ .call callee args) :
    DoneAll cx globals s' node.kind.inOrder types := by
  have hall : node.kind.inOrder = [] ++ node.kind.inOrder ++ [] := by simp
  exact (h.done hinfers hforest hnode hall hbegins.toEquipped
    (hbegins.oriented.midway (not_hasParam hnode hfunction))
    fun _ hpart => not_memberCall_of_part hforest hnode hpart fun args => hcall _ args).2

/-- The same for the parts of a block or loop, which are looked at in a frame of their own. -/
theorem Chain.doneAll_of_push {kind : FrameKind} {opened : Scope}
    (hpush : s.scope.push kind = .ok opened) (hframe : ∀ result, kind ≠ .function result)
    (h : Chain infer { s with scope := opened } node.kind.inOrder types s')
    (hkind : node.kind.opensFrame = true) : DoneAll cx globals s' node.kind.inOrder types := by
  have hall : node.kind.inOrder = [] ++ node.kind.inOrder ++ [] := by simp
  have hopened : Equipped cx { s with scope := opened } :=
    ⟨⟨hbegins.toKnows.push hpush fun result h => (hframe result h).elim, hbegins.auto⟩,
      hbegins.slices⟩
  have hmidway := (hbegins.oriented.push hpush).midway (not_hasParam hnode (by
    intro name kind params result body heq
    simp [heq, NodeKind.opensFrame] at hkind))
  refine (h.done hinfers hforest hnode hall hopened hmidway
    fun part hpart => not_memberCall_of_part hforest hnode hpart fun args heq => ?_).2
  simp [heq, NodeKind.opensFrame] at hkind

/-- A call has its arguments finished before it is decided what is called. -/
theorem inferCall_done {callee : NodeId} {args : List NodeId}
    (hkind : node.kind = .call callee args)
    (h : inferCall cx infer callee args s = .ok type s') :
    RuleDone cx globals s' id (.call callee args) type := by
  obtain ⟨argTypes, s₁, calleeNode, hargs, hcalleeNode, hways⟩ := inferCall_eq_ok h
  have hchain := chain_of_inferAll hargs
  have hsplit : node.kind.inOrder = [] ++ args ++ [callee] := by rw [hkind]; rfl
  have hnotCallee : callee ∉ args := by
    have hnodup := hforest.once id node hnode
    rw [hkind] at hnodup
    exact (List.nodup_cons.mp hnodup).1
  obtain ⟨hmidway, hargsDone⟩ := hchain.done hinfers hforest hnode hsplit hbegins.toEquipped
    (hbegins.oriented.midway (not_hasParam hnode (by simp [hkind]))) fun part hpart => by
      refine not_memberCall_of_part hforest hnode (by simp [hsplit, hpart]) fun others heq => ?_
      rw [hkind] at heq
      obtain rfl : callee = part := (NodeKind.call.inj heq).1
      exact hnotCallee hpart
  have hs₁ : Equipped cx s₁ := hbegins.toEquipped.proceeds (hchain.proceeds hinfers.proceeds)
  have horiented : Oriented cx globals s₁ callee :=
    hmidway.oriented hforest ⟨node, [], hnode, hsplit⟩
  -- what remains is to finish the callee
  have hassemble : ∀ {calleeType}, Retains s₁ s' → Done cx globals s' callee calleeType →
      Typed cx globals s' id (.call callee args) type →
      RuleDone cx globals s' id (.call callee args) type := fun hretains hcallee htyped =>
    .of_parts htyped (List.forall_mem_cons.mpr ⟨⟨_, hcallee⟩, fun _ harg =>
      exists_of_forall₂ (hargsDone.retains hretains) harg⟩) nofun
  obtain ⟨symbol, signature, annotations, hcalleeKind, hlookup, hselects, hset, rfl, hform⟩ |
    ⟨base, name, receiver, s₂, signature, annotations, hcalleeKind, hcontains, hbase, hselects,
      hset, rfl, hform⟩ | ⟨calleeType, hplain, hinfer, hform⟩ := hways
  · have hretains := retains_of_set hset
    have hcallee := operator_done hs₁.toAware hnode hkind hcalleeNode hcalleeKind horiented hlookup
      hargsDone.hasTypes hselects hset
    refine hassemble hretains hcallee (.call ?_ (hargsDone.retains hretains).hasTypes
      hcallee.type hform)
    rintro base name ⟨-, ⟨node', hnode', hmember⟩, -⟩
    obtain rfl := Option.some.inj (hcalleeNode.symm.trans hnode')
    cases hcalleeKind.symm.trans hmember
  · have hretains := retains_of_set hset
    have hbaseProceeds := hinfers.proceeds hbase
    have hcall : MemberCall cx s₂ id callee base name args :=
      ⟨⟨node, hnode, hkind⟩, ⟨calleeNode, hcalleeNode, hcalleeKind⟩,
        by rwa [hbaseProceeds.later.members]⟩
    have hplace : cx.arena.IsPart callee [] base :=
      ⟨calleeNode, [], hcalleeNode, by rw [hcalleeKind]; rfl⟩
    have hbaseDone := hinfers.done ⟨hs₁, (horiented.midway (not_hasParam hcalleeNode
      (by simp [hcalleeKind]))).oriented hforest hplace, not_memberCall_of_part hforest hcalleeNode
        (by simp [hcalleeKind, NodeKind.inOrder, NodeKind.children]) (by simp [hcalleeKind]) s₁⟩
      hbase
    have hargsDone₂ := hargsDone.retains (hinfers.retains hbase)
    have hcallee := memberFunction_done (hs₁.proceeds hbaseProceeds).toAware hcall hbaseDone
      hargsDone₂.hasTypes hselects hset
    exact hassemble ((hinfers.retains hbase).trans hretains) hcallee
      (.memberCall (hcall.of_members rfl) (hbaseDone.retains hretains).type
        (hargsDone₂.retains hretains).hasTypes hcallee.type hform)
  · have hretains := hinfers.retains hinfer
    have hvalue : ∀ s₂, s₂.members = s₁.members → ∀ call base name args,
        ¬ MemberCall cx s₂ call callee base name args := by
      rintro s₂ hmembers call base name args ⟨-, ⟨node', hnode', hmember⟩, hcontains⟩
      obtain rfl := Option.some.inj (hcalleeNode.symm.trans hnode')
      rw [hmembers, hplain base name hmember] at hcontains
      cases hcontains
    have hcallee := hinfers.done ⟨hs₁, horiented, hvalue s₁ rfl⟩ hinfer
    exact hassemble hretains hcallee (.call
      (fun base name => hvalue s' hretains.members id base name args)
      (hargsDone.retains hretains).hasTypes hcallee.type hform)

/-- A variable has the written type if there is one, and is bound after its initializer. -/
theorem inferVariable_done {name : String} {written : TypeExpr} {start : NodeId} {span : Span}
    (hkind : node.kind = .var name written start)
    (h : inferVariable infer id name written start span s = .ok type s') :
    RuleDone cx globals s' id (.var name written start) type := by
  obtain ⟨declared, table, s₁, s₂, scope, hresolve, hmark, hinfer, hne, hdeclared, hbind, rfl⟩ :=
    inferVariable_eq_ok h
  have htable : Proceeds cx s { s with table } :=
    .of_table ((TypeExpr.resolve_moves _ _).ok hresolve)
  obtain ⟨hmarked, hscope⟩ := proceeds_of_markVariable hnode (by rw [hkind]; rfl) hmark
  have hproceeds := htable.trans hmarked
  have hs₁ := hbegins.toEquipped.proceeds hproceeds
  have hmidway := (hbegins.oriented.midway (not_hasParam hnode (by simp [hkind]))).of_scope
    hproceeds.later.advances hscope
  have hplace : cx.arena.IsPart id [] start := ⟨node, [], hnode, by rw [hkind]; rfl⟩
  have hstart := hinfers.done ⟨hs₁, hmidway.oriented hforest hplace, not_memberCall_of_part hforest
    hnode (by simp [hkind, NodeKind.inOrder, NodeKind.children]) (by simp [hkind]) s₁⟩ hinfer
  -- the initializer is in scope as before when the variable is bound
  obtain ⟨hnew, rfl⟩ := Scope.bind_eq_ok.mp hbind
  have hretains : Retains s₂ { s₂ with scope := s₂.scope.withBinding name ⟨type, .var, span⟩ } :=
    ⟨(Later.of_scope (N := fun _ => True) s₂ _).advances, fun _ _ =>
      (Scope.Gains.withBinding (W := fun _ _ => True) hnew trivial).get?_current⟩
  have hwritten := (written_of_resolve hbegins.toAware hresolve hdeclared).imp_right
    (hmarked.later.advances.trans (hinfers.retains hinfer).toAdvances).denotes
  refine ⟨.var hwritten hne (hstart.retains hretains).type, ?_, fun _ => ?_, ?_⟩
  · exact List.forall_mem_singleton.mpr (hstart.retains hretains).typed
  · exact List.forall_mem_singleton.mpr (hstart.retains hretains).inScope
  · rintro _ _ _ heq
    obtain ⟨rfl, -, -⟩ := NodeKind.var.inj heq
    exact ⟨_, Scope.get?_current_withBinding .., rfl⟩

/-- When the rule of a node answers, the node has the type of its rule and the parts are
finished. -/
theorem inferNode_done (hfinal : type ≠ .auto) (h : inferNode cx infer id node s = .ok type s') :
    RuleDone cx globals s' id node.kind type := by
  have hparts : ∀ {types s'}, Chain infer s node.kind.inOrder types s' →
      (∀ callee args, node.kind ≠ .call callee args) →
      (∀ name kind params result body, node.kind ≠ .function name kind params result body) →
      DoneAll cx globals s' node.kind.inOrder types := fun hchain hcall hfunction =>
    hchain.doneAll hinfers hforest hbegins hnode hfunction hcall
  have hframed : ∀ {types s' frame opened}, s.scope.push frame = .ok opened →
      (∀ result, frame ≠ .function result) →
      Chain infer { s with scope := opened } node.kind.inOrder types s' →
      node.kind.opensFrame = true → DoneAll cx globals s' node.kind.inOrder types :=
    fun hpush hframe hchain => hchain.doneAll_of_push hinfers hforest hbegins hnode hpush hframe
  unfold inferNode at h
  generalize hkind : node.kind = kind at h hparts hframed ⊢
  cases kind with
  | identifier name =>
    obtain ⟨⟨binding, hlookup, rfl⟩, rfl⟩ := inferIdentifier_eq_ok h
    exact .of_parts (.identifier ((hbegins.oriented name).nameType hlookup))
      (List.forall_mem_nil _) nofun
  | number =>
    obtain ⟨rfl, rfl⟩ := pure_eq_ok.mp h
    exact .of_parts .number (List.forall_mem_nil _) nofun
  | string =>
    obtain ⟨rfl, rfl⟩ := pure_eq_ok.mp h
    exact .of_parts .string (List.forall_mem_nil _) nofun
  | member base field =>
    obtain ⟨baseType, hbase, hoffers⟩ := inferMember_eq_ok h
    have hdone := hparts (.single hbase) nofun nofun
    obtain ⟨hbaseDone, -⟩ := List.forall₂_cons.mp hdone
    refine .of_parts (.member (fun call args hcall => ?_) hbaseDone.type hoffers) hdone.children
      nofun
    exact hbegins.value call base field args
      (hcall.of_members (hinfers.retains hbase).members.symm)
  | index base position =>
    obtain ⟨baseType, form, s₁, hbase, hform, helement, hposition⟩ := inferIndex_eq_ok h
    have hchain : Chain infer s [base, position] _ s' := .cons hbase (.single hposition)
    have hdone := hparts hchain nofun nofun
    obtain ⟨hbaseDone, hrest⟩ := List.forall₂_cons.mp hdone
    obtain ⟨hpositionDone, -⟩ := List.forall₂_cons.mp hrest
    have hslices := hbegins.slices.extends (hchain.retains hinfers).table
    have hform' := (hinfers.retains hposition).table.form? hform
    exact .of_parts (.index hbaseDone.type (hslices.form? hform' helement) hpositionDone.type)
      hdone.children nofun
  | call callee args => exact inferCall_done hinfers hforest hbegins hnode hkind h
  | binary symbol left right =>
    obtain ⟨leftType, rightType, s₁, hleft, hright, happlies⟩ := inferBinary_eq_ok h
    have hdone := hparts (.cons hleft (.single hright)) nofun nofun
    obtain ⟨hleftDone, hrest⟩ := List.forall₂_cons.mp hdone
    obtain ⟨hrightDone, -⟩ := List.forall₂_cons.mp hrest
    exact .of_parts (.binary hleftDone.type hrightDone.type happlies) hdone.children nofun
  | unary symbol operand =>
    obtain ⟨operandType, s₁, hoperand, hways⟩ := inferUnary_eq_ok h
    have hretains : Retains s₁ s' := by
      obtain ⟨-, -, table, hintern, rfl⟩ | ⟨-, -, rfl⟩ | ⟨-, -, -, rfl⟩ := hways
      · exact (Later.of_table (N := fun _ => False)
          ((TypeTable.internPointer_moves _).ok hintern)).retains rfl
      · exact .refl _
      · exact .refl _
    have hdone := (hparts (.single hoperand) nofun nofun).retains hretains
    obtain ⟨hoperandDone, -⟩ := List.forall₂_cons.mp hdone
    refine .of_parts ?_ hdone.children nofun
    obtain ⟨rfl, -, table, hintern, rfl⟩ | ⟨rfl, hform, rfl⟩ |
      ⟨haddress, htarget, happlies, rfl⟩ := hways
    · exact .address hoperandDone.type (TypeTable.form?_of_internPointer hintern)
    · exact .target hoperandDone.type hform
    · exact .unary haddress htarget hoperandDone.type happlies
  | assign target value =>
    obtain ⟨sideType, s₁, htarget, hvalue, hne, rfl⟩ := inferAssign_eq_ok h
    have hdone := hparts (.cons htarget (.single hvalue)) nofun nofun
    obtain ⟨htargetDone, hrest⟩ := List.forall₂_cons.mp hdone
    obtain ⟨hvalueDone, -⟩ := List.forall₂_cons.mp hrest
    exact .of_parts (.assign hne htargetDone.type hvalueDone.type) hdone.children nofun
  | literal written members =>
    obtain ⟨memberTypes, s₁, table, hmembers, hextends, rfl, hwritten⟩ := inferLiteral_eq_ok h
    have hdone := (hparts (chain_of_inferAll hmembers) nofun nofun).retains
      ((Later.of_table (N := fun _ => False) hextends).retains rfl)
    refine .of_parts ?_ hdone.children nofun
    cases written with
    | some written =>
      exact .literal (TypeExpr.resolveConcrete_means written hwritten.1).1 hdone.hasTypes hwritten.2
    | none => exact .record hdone.hasTypes hwritten
  | branch condition thenArm elseArm =>
    obtain ⟨thenType, s₁, s₂, hcondition, hthen, ⟨rfl, rfl, rfl⟩ | ⟨arm, rfl, helse, rfl⟩⟩ :=
      inferBranch_eq_ok h
    · have hdone := hparts (.cons hcondition (.single hthen)) nofun nofun
      obtain ⟨hconditionDone, hrest⟩ := List.forall₂_cons.mp hdone
      obtain ⟨hthenDone, -⟩ := List.forall₂_cons.mp hrest
      exact .of_parts (.branch hconditionDone.type hthenDone.type (.inl ⟨rfl, rfl⟩)) hdone.children
        nofun
    · have hdone := hparts (.cons hcondition (.cons hthen (.single helse))) nofun nofun
      obtain ⟨hconditionDone, hrest⟩ := List.forall₂_cons.mp hdone
      obtain ⟨hthenDone, hrest⟩ := List.forall₂_cons.mp hrest
      obtain ⟨helseDone, -⟩ := List.forall₂_cons.mp hrest
      exact .of_parts (.branch hconditionDone.type hthenDone.type
        (.inr ⟨arm, rfl, helseDone.type, rfl⟩)) hdone.children nofun
  | loop start condition body =>
    obtain ⟨opened, s₁, s₂, s₃, closed, startType, bodyType, hpush, hstart, hcondition, hbody, -,
      rfl, rfl⟩ := inferLoop_eq_ok h
    have hdone := hframed hpush nofun
      ((chain_of_inferOptional hstart).append (.cons hcondition (.single hbody))) rfl
    refine .of_frame (.loop ?_) hfinal rfl hdone.children
    cases start with
    | none => exact (List.forall₂_cons.mp hdone).1.type
    | some start => exact (List.forall₂_cons.mp (List.forall₂_cons.mp hdone).2).1.type
  | block statements =>
    obtain ⟨opened, s₁, closed, hpush, hstatements, -, rfl⟩ := inferBlock_eq_ok h
    obtain ⟨types, hchain, hlast⟩ := chain_of_inferStatements hstatements
    have hdone := hframed hpush nofun hchain rfl
    exact .of_frame (.block (blockType_of_types (hdone.imp fun _ _ h => h.type.1) hlast)) hfinal rfl
      hdone.children
  | jump kind value =>
    obtain ⟨found, hvalue, rfl, -⟩ := inferJump_eq_ok h
    exact .of_parts (.jump kind value)
      (hparts (chain_of_inferOptional hvalue) nofun nofun).children nofun
  | var name written start => exact inferVariable_done hinfers hforest hbegins hnode hkind h
  | function | foreign | struct => exact (report_eq_ok.mp h).elim

end Rules

/-! ## Nodes -/

/-- **Inference is sound.** When the inference of a node answers, the node and everything below it
have the types that their rules give them. -/
theorem inferAt_infers (hforest : cx.arena.IsForest) (globals : NameMap Binding) (depth : Nat) :
    Infers cx globals (inferAt cx depth) := by
  have hgains : ∀ depth {id s type s'}, inferAt cx depth id s = .ok type s' →
      s.scope.Gains (cx.arena.Declares id) s'.scope := fun depth id _ _ _ h =>
    (inferAt_scope depth id).ok h
  refine ⟨inferAt_proceeds, hgains depth, ?_⟩
  induction depth with
  | zero => exact fun _ h => (throw_eq_ok.mp h).elim
  | succ depth ih =>
    intro id s type s' hbegins h
    have hfinal : type ≠ .auto := ((inferAt_proceeds h).aware hbegins.toAware).ne_auto
      ((inferAt_reveals _).clear hbegins.toKnows h)
    obtain ⟨node, s₁, annotations, hnode, hrule, hset, rfl⟩ := inferAt_succ_eq_ok h
    have hinfers : Infers cx globals (inferAt cx depth) := ⟨inferAt_proceeds, hgains depth, ih⟩
    exact (inferNode_done hinfers hforest hbegins hnode hfinal hrule).done hfinal hnode hset

/-! ## Bodies of functions -/

/-- Parameters are bound to their types, and nothing else is. -/
theorem bindParams_eq_ok {span : Span} {params : List (String × TypeExpr)}
    (h : bindParams span params types s = .ok () s') :
    s.scope.Gains (fun name binding => (name, binding.type) ∈ (params.map (·.1)).zip types)
      s'.scope ∧
    ∀ name type, (name, type) ∈ (params.map (·.1)).zip types →
      ∃ binding, s'.scope.current.get? name = some binding ∧ binding.type = type := by
  induction params generalizing types s with
  | nil =>
    obtain ⟨-, rfl⟩ := pure_eq_ok.mp h
    exact ⟨.refl _ _, nofun⟩
  | cons param params ih =>
    cases types with
    | nil =>
      obtain ⟨-, rfl⟩ := pure_eq_ok.mp h
      exact ⟨.refl _ _, nofun⟩
    | cons type types =>
      obtain ⟨_, s₁, hbind, hrest⟩ := bind_eq_ok.mp h
      obtain ⟨scope, hscope, rfl⟩ := bindName_eq_ok.mp hbind
      obtain ⟨hnew, rfl⟩ := Scope.bind_eq_ok.mp hscope
      obtain ⟨hgains, hbound⟩ := ih hrest
      refine ⟨.trans (.withBinding hnew (List.mem_cons_self ..))
        (hgains.mono fun _ _ => List.mem_cons_of_mem _), fun name found hmem => ?_⟩
      obtain heq | hmem := List.mem_cons.mp hmem
      · obtain ⟨rfl, rfl⟩ := Prod.mk.inj heq
        exact ⟨_, hgains.get?_current (Scope.get?_current_withBinding ..), rfl⟩
      · exact hbound name found hmem

/-- In the frame of a function, every name is bound as it has to be where the body stands. -/
theorem midway_of_bindParams {f body : NodeId} {own : String} {kind : FunctionKind} {span : Span}
    {params : List (String × TypeExpr)} {written : Option TypeExpr} {signature result : TypeId}
    (hnode : cx.arena.node? f = some node)
    (hkind : node.kind = .function own kind params written body)
    (horiented : Oriented cx globals s f) (hadvances : Advances s s')
    (hsignature : HasType s' f signature)
    (hform : s'.table.form? signature = some (.function types result))
    (hlength : params.length = types.length)
    (h : bindParams span params types s = .ok () s') : Midway cx globals s' f [] := by
  obtain ⟨hgains, hbound⟩ := bindParams_eq_ok h
  refine ⟨fun name d hd => ?_, fun name hnothing => ?_⟩
  · obtain ⟨rfl, node', own', kind', params', written', body', hnode', hkind', hname⟩ :=
      Arena.introduces_nil_iff.mp hd
    obtain rfl := Option.some.inj (hnode.symm.trans hnode')
    obtain ⟨-, -, rfl, -, -⟩ := NodeKind.function.inj (hkind.symm.trans hkind')
    have hzip : ((params.map (·.1)).zip types).map Prod.fst = params.map (·.1) :=
      List.map_fst_zip (by simp [hlength])
    rw [← hzip] at hname
    obtain ⟨⟨name, type⟩, hparam, rfl⟩ := List.mem_map.mp hname
    obtain ⟨binding, hget, rfl⟩ := hbound name type hparam
    exact ⟨binding, hget, .param hnode hkind hsignature hform hparam⟩
  · refine (horiented name).of_lookup hadvances (hgains.gainsUnder.lookup_eq fun binding hmem => ?_)
    have hname : name ∈ params.map (·.1) := (List.of_mem_zip hmem).1
    exact hnothing f (Arena.introduces_nil_iff.mpr
      ⟨rfl, node, own, kind, params, written, body, hnode, hkind, hname⟩)

/-- When a function goes through, it and everything below it have the types of their rules. -/
theorem allTyped_of_checkFunction (hforest : cx.arena.IsForest) (hs : Equipped cx s)
    (horiented : Oriented cx globals s id) (hnode : cx.arena.node? id = some node) {own : String}
    {kind : FunctionKind} {params : List (String × TypeExpr)} {written : Option TypeExpr}
    {body : NodeId} (hkind : node.kind = .function own kind params written body)
    (htype : HasType s id type) (hdefines : Defines s node.kind type) {span : Span}
    {f : CheckedFunction} (h : checkFunction cx id span own kind params body s = .ok f s') :
    AllTyped cx globals s' id := by
  obtain ⟨signature, paramTypes, result, opened, s₁, found, s₂, closed, fingerprint, hsignature,
    hform, hpush, hparams, hbody, hfits, -, rfl, -, rfl⟩ := checkFunction_eq_ok h
  obtain rfl : type = signature := Option.some.inj (htype.1.symm.trans hsignature)
  obtain ⟨hlater, haware⟩ := aware_of_bindParams hs.toAware hnode (by rw [hkind]; rfl) hsignature
    hform hpush hparams
  have hlength : params.length = paramTypes.length := by
    rw [hkind] at hdefines
    cases hdefines with
    | function hwritten => simpa using hwritten.length_params hform
  have hbound : Later (fun _ => True) { s with scope := opened } s₁ :=
    (bindParams_later span params paramTypes).ok hparams
  have hmidway : Midway cx globals s₁ id [] :=
    midway_of_bindParams hnode hkind (horiented.push hpush) hbound.advances
      (htype.advances hlater.advances) (hlater.table.form? hform) hlength hparams
  -- the body stands in the frame of the function
  have hinfers : Infers cx globals (infer cx) := inferAt_infers hforest globals _
  have hplace : cx.arena.IsPart id [] body := ⟨node, [], hnode, by rw [hkind]; rfl⟩
  have hpart : body ∈ node.kind.inOrder := by simp [hkind, NodeKind.inOrder, NodeKind.children]
  have hdone := hinfers.done ⟨⟨haware, hs.slices.extends hlater.table⟩, hmidway.oriented hforest
    hplace, not_memberCall_of_part hforest hnode hpart (by simp [hkind]) s₁⟩ hbody
  have hclosed : Advances s₂ { s₂ with scope := closed } :=
    (Later.of_scope (N := fun _ => True) s₂ closed).advances
  have hall := (hlater.advances.trans (hinfers.proceeds hbody).later.advances).trans hclosed
  refine allTyped_of_parts hnode (htype.advances hall) ?_ ?_
  · have hdefines' := hdefines.advances hall
    rw [hkind] at hdefines' ⊢
    exact .function hdefines' (hall.table.form? hform) (hdone.type.advances hclosed) hfits
  · rw [hkind]
    exact List.forall_mem_singleton.mpr (hdone.typed.advances hclosed)

/-! ## Items -/

/-- **An item that goes through is typed**: it and everything below it have the types of their
rules, and its variables outside blocks, loops and functions are in scope. -/
theorem allTyped_of_checkItem {item : Item} {function? : Option CheckedFunction}
    (hforest : cx.arena.IsForest) (hroot : ∀ parent, ¬ cx.arena.IsChild parent item.id)
    (hs : Equipped cx s) (hframes : s.scope.frames = [])
    (hnode : cx.arena.node? item.id = some item.node)
    (hdefines : item.IsRegistered → ∃ type, HasType s item.id type ∧ Defines s item.node.kind type)
    (h : checkItem cx item s = .ok function? s') :
    AllTyped cx s.scope.globals s' item.id ∧ ∀ v name, cx.arena.IsGlobal item.id v name →
      ∃ binding, s'.scope.globals.get? name = some binding ∧ HasType s' v binding.type := by
  have horiented : Oriented cx s.scope.globals s item.id := oriented_of_root hroot hframes
  have hframes' := checkItem_frames hframes h
  have hvalue : ∀ call base name args, ¬ MemberCall cx s call item.id base name args := by
    rintro call base name args ⟨⟨callNode, hcall, hkind⟩, -, -⟩
    exact hroot call ⟨callNode, hcall, by simp [hkind, NodeKind.children]⟩
  have hwhole : ∀ {type}, infer cx item.id s = .ok type s' →
      AllTyped cx s.scope.globals s' item.id ∧ ∀ v name, cx.arena.IsGlobal item.id v name →
        ∃ binding, s'.scope.globals.get? name = some binding ∧ HasType s' v binding.type := by
    intro type hinfer
    have hdone := (inferAt_infers hforest s.scope.globals _).done ⟨hs, horiented, hvalue⟩ hinfer
    refine ⟨hdone.typed, fun v name hv => ?_⟩
    rw [← Scope.current_of_global hframes']
    exact hdone.inScope v name hv.1 hv.2.1
  unfold Item.IsRegistered Item.structDef? Item.functionDef? at hdefines
  unfold checkItem at h
  cases hkind : item.node.kind with
  | struct name fields =>
    simp only [hkind] at h hdefines
    obtain ⟨-, rfl⟩ := pure_eq_ok.mp h
    obtain ⟨type, htype, hdefines⟩ := hdefines (.inl rfl)
    refine ⟨allTyped_of_parts hnode htype (by rw [hkind]; exact .struct hdefines) ?_, ?_⟩
    · rw [hkind]
      exact List.forall_mem_nil _
    · rintro v name ⟨hexposed, hv, -⟩
      obtain rfl | ⟨child, ⟨node', hnode', -, hchild⟩, -⟩ := ReflTransGen.cases_head hexposed
      · obtain ⟨node', written, start, hnode', hvar⟩ := hv
        obtain rfl := Option.some.inj (hnode.symm.trans hnode')
        cases hkind.symm.trans hvar
      · obtain rfl := Option.some.inj (hnode.symm.trans hnode')
        rw [hkind] at hchild
        cases hchild
  | foreign name params written =>
    simp only [hkind] at h hdefines
    obtain ⟨-, rfl⟩ := pure_eq_ok.mp h
    obtain ⟨type, htype, hdefines⟩ := hdefines (.inr rfl)
    refine ⟨allTyped_of_parts hnode htype (by rw [hkind]; exact .foreign hdefines) ?_, ?_⟩
    · rw [hkind]
      exact List.forall_mem_nil _
    · rintro v _ ⟨-, -, hother⟩
      exact (hother name .normal ⟨item.node, hnode, .inr ⟨rfl, params, written, hkind⟩⟩).elim
  | function name kind params written body =>
    simp only [hkind] at h hdefines
    obtain ⟨f, s₁, hfunction, h⟩ := bind_eq_ok.mp h
    obtain ⟨-, rfl⟩ := pure_eq_ok.mp h
    obtain ⟨type, htype, hdefines⟩ := hdefines (.inr rfl)
    refine ⟨allTyped_of_checkFunction hforest hs horiented hnode hkind htype (hkind ▸ hdefines)
      hfunction, ?_⟩
    rintro v _ ⟨-, -, hother⟩
    exact (hother name kind ⟨item.node, hnode, .inl ⟨params, written, body, hkind⟩⟩).elim
  | var name written start =>
    simp only [hkind, bind_eq_ok, pure_eq_ok] at h
    obtain ⟨type, s₁, hinfer, rfl, rfl⟩ := h
    exact hwhole hinfer
  | _ =>
    simp only [hkind, bind_eq_ok, pure_eq_ok, require_eq_ok] at h
    obtain ⟨_, _, ⟨-, rfl⟩, type, s₁, hinfer, rfl, rfl⟩ := h
    exact hwhole hinfer

end Check

end RuleTypes
