import RuleTypes.Proofs.Check.Complete
import RuleTypes.Proofs.Check.Members

/-!
# Calls of member functions in the end

A call of a member function gets its type when its signature has been found, and then the callee has
that signature (`MemberCall.resolves`). Types that are final stay, so the same can be read off the
annotations ever after (`CallsResolved`), until an item ends in a finding and is undone as a whole.
When all items have been looked at, it holds of every call that has a type
(`callsResolved_of_run`).
-/

namespace RuleTypes.Check

open Relation

variable {cx : Setting} {infer : Infer} {s s' : State} {id : NodeId} {type : TypeId}

/-! ## Calls that have a type -/

/-- The node has the type, unless it is that of a variable whose type is still to be found. -/
def Bears (s : State) (id : NodeId) (type : TypeId) : Prop :=
  type ≠ .auto → s.annotations.get? id = some type

theorem Bears.lasts (hlasts : Lasts s s') (h : Bears s id type) : Bears s' id type :=
  fun hfinal => hlasts id type (h hfinal) hfinal

/-- The types found for a list of nodes. -/
def TypesOf (s : State) (ids : List NodeId) (types : List TypeId) : Prop :=
  List.Forall₂ (fun id type => s.annotations.get? id = some type) ids types

theorem typesOf_of_bears {ids : List NodeId} {types : List TypeId}
    (h : List.Forall₂ (Bears s) ids types) (hfinal : ∀ type ∈ types, type ≠ .auto) :
    TypesOf s ids types := by
  induction h with
  | nil => exact .nil
  | cons hfirst _ ih =>
    obtain ⟨hne, hrest⟩ := List.forall_mem_cons.mp hfinal
    exact .cons (hfirst hne) (ih hrest)

/-- If the node is a call of a member function and has a type, the callee has the signature that the
name stands for, given the types of the receiver and the arguments. -/
def CallResolved (cx : Setting) (s : State) (id : NodeId) : Prop :=
  ∀ callee base name args type, MemberCall cx s id callee base name args →
    s.annotations.get? id = some type → ∃ signature receiver argTypes,
      Bears s callee signature ∧ Bears s base receiver ∧
        List.Forall₂ (Bears s) args argTypes ∧ Resolves s name receiver argTypes signature type

/-- So it is for all nodes. -/
def CallsResolved (cx : Setting) (s : State) : Prop := ∀ id, CallResolved cx s id

theorem callResolved_of_ne_call (h : ∀ node, cx.arena.node? id = some node →
    ∀ callee args, node.kind ≠ .call callee args) : CallResolved cx s id := by
  intro callee base name args type hcall
  obtain ⟨node, hnode, hkind⟩ := hcall.call
  exact absurd hkind (h node hnode callee args)

/-- Calls stay resolved, so only nodes that get a type have to be looked at. -/
theorem CallsResolved.keeps {N : NodeId → Prop} (h : CallsResolved cx s)
    (hkeeps : Keeps (fun id => ¬ N id) s s') (hlasts : Lasts s s')
    (hN : ∀ id, N id → CallResolved cx s' id) : CallsResolved cx s' := by
  intro id
  by_cases hid : N id
  · exact hN id hid
  · intro callee base name args type hcall htype
    rw [hkeeps.annotations id hid] at htype
    obtain ⟨signature, receiver, argTypes, hcallee, hbase, hargs, hresolves⟩ :=
      h id callee base name args type (hcall.of_members hkeeps.members.symm) htype
    exact ⟨signature, receiver, argTypes, hcallee.lasts hlasts, hbase.lasts hlasts,
      hargs.imp fun _ _ => Bears.lasts hlasts, hresolves.extends hkeeps.table hkeeps.members⟩

theorem CallsResolved.later {N : NodeId → Prop} (h : CallsResolved cx s) (hlater : Later N s s')
    (hN : ∀ id, N id → CallResolved cx s' id) : CallsResolved cx s' :=
  h.keeps (hlater.keeps fun _ hid => hid) hlater.lasts hN

/-- The later state goes on from the earlier one, and calls are resolved if they were. -/
structure Resolving (cx : Setting) (s s' : State) : Prop where
  later : Later (fun _ => True) s s'
  calls : CallsResolved cx s → CallsResolved cx s'

instance : Extensible (Resolving cx) (fun _ _ _ => True) where
  refl s := ⟨.refl _ s, fun h => h⟩
  trans _ _ _ h h' := ⟨h.later.trans h'.later, h'.calls ∘ h.calls⟩
  fails _ _ := trivial
  after _ _ := trivial
  table _ _ h := ⟨.of_table h, fun hs => hs.later (N := fun _ => False) (.of_table h) (by simp)⟩

/-- Steps that give no type to a call. -/
theorem Later.resolving {N : NodeId → Prop} (h : Later N s s') (hN : ∀ id, N id → ∀ node,
    cx.arena.node? id = some node → ∀ callee args, node.kind ≠ .call callee args) :
    Resolving cx s s' :=
  ⟨h.mono fun _ _ => trivial, fun hs => hs.later h fun id hid =>
    callResolved_of_ne_call (hN id hid)⟩

/-- Where all types are known, the receiver and the arguments of a call have the types that its
signature takes. -/
theorem CallResolved.exists_types (h : CallResolved cx s id) (hs : Aware cx s)
    {callee base : NodeId} {name : String} {args : List NodeId}
    (hcall : MemberCall cx s id callee base name args) (htype : s.annotations.get? id = some type) :
    ∃ signature receiver argTypes, s.annotations.get? callee = some signature ∧
      s.annotations.get? base = some receiver ∧ TypesOf s args argTypes ∧
      Resolves s name receiver argTypes signature type := by
  obtain ⟨signature, receiver, argTypes, hcallee, hbase, hargs, hresolves⟩ :=
    h callee base name args type hcall htype
  have hknown := hs.members name signature hresolves.selects.mem
  have hfinal : ∀ param ∈ receiver :: argTypes, param ≠ .auto := fun param hparam =>
    hs.ne_auto (hknown.component hresolves.form (List.mem_append_left _ hparam))
  obtain ⟨hreceiver, hfinal⟩ := List.forall_mem_cons.mp hfinal
  exact ⟨signature, receiver, argTypes, hcallee (hs.ne_auto hknown), hbase hreceiver,
    typesOf_of_bears hargs hfinal, hresolves⟩

/-! ## Rules -/

theorem openFrame_resolving (kind : FrameKind) :
    Goes (Resolving cx) (fun _ _ _ => True) (openFrame kind) :=
  .of_moves ((openFrame_later (N := fun _ => False) kind).mono fun _ _ h => h.resolving (by simp))

theorem closeFrame_resolving : Goes (Resolving cx) (fun _ _ _ => True) closeFrame :=
  .of_moves ((closeFrame_later (N := fun _ => False)).mono fun _ _ h => h.resolving (by simp))

theorem bindName_resolving (name : String) (type : TypeId) (kind : BindingKind) (span : Span) :
    Goes (Resolving cx) (fun _ _ _ => True) (bindName name type kind span) :=
  .of_moves ((bindName_later (N := fun _ => False) name type kind span).mono
    fun _ _ h => h.resolving (by simp))

theorem resolving_of_set {node : Node} {annotations : Annotations}
    (hnode : cx.arena.node? id = some node) (hkind : ∀ callee args, node.kind ≠ .call callee args)
    (h : s.annotations.set id type = .ok annotations) :
    Resolving cx s { s with annotations } := by
  refine (Later.of_annotations (.of_set (N := (· = id)) rfl h)).resolving ?_
  rintro _ rfl node' hnode'
  cases hnode.symm.trans hnode'
  exact hkind

/-- A callee that gets a signature is a name or a member, and no call itself. -/
theorem inferCall_resolving (h : ∀ id, Goes (Resolving cx) (fun _ _ _ => True) (infer id))
    (callee : NodeId) (args : List NodeId) :
    Goes (Resolving cx) (fun _ _ _ => True) (inferCall cx infer callee args) := by
  refine .of_ends (fun {s type s'} hok => ?_) fun _ => trivial
  obtain ⟨argTypes, s₁, node, hargs, hnode, hways⟩ := inferCall_eq_ok hok
  have hfirst : Resolving cx s s₁ := (inferAll_goes fun id _ => h id).ok hargs
  refine trans_of (Resolving cx) hfirst ?_
  obtain ⟨symbol, signature, annotations, hkind, -, -, hset, rfl, -⟩ |
    ⟨base, name, receiver, s₂, signature, annotations, hkind, -, hbase, -, hset, rfl, -⟩ |
    ⟨calleeType, -, hcallee, -⟩ := hways
  · exact resolving_of_set hnode (by simp [hkind]) hset
  · exact trans_of (Resolving cx) ((h base).ok hbase)
      (resolving_of_set hnode (by simp [hkind]) hset)
  · exact (h callee).ok hcallee

theorem inferNode_resolving (h : ∀ id, Goes (Resolving cx) (fun _ _ _ => True) (infer id))
    {node : Node} (hnode : cx.arena.node? id = some node) :
    Goes (Resolving cx) (fun _ _ _ => True) (inferNode cx infer id node) := by
  refine inferNode_goes_of_writing (fun _ child _ => h child)
    (fun callee args _ => inferCall_resolving h callee args) (fun statements _ => ?_)
    (fun start condition body _ => ?_) fun name written start hkind => ?_
  · exact inferBlock_goes (openFrame_resolving _) closeFrame_resolving fun child _ => h child
  · exact inferLoop_goes (openFrame_resolving _) closeFrame_resolving (fun child _ => h child)
      (h condition) (h body)
  · refine inferVariable_goes (.of_moves ?_) (h start) (fun _ => bindName_resolving _ _ _ _) written
    refine (annotateProvisional_later (N := (· = id)) rfl).mono fun _ _ hlater =>
      hlater.resolving ?_
    rintro _ rfl node' hnode'
    cases hnode.symm.trans hnode'
    simp [hkind]

theorem bears_of_inferAt {depth : Nat} (h : inferAt cx depth id s = .ok type s') :
    Bears s' id type := by
  cases depth with
  | zero => exact (throw_eq_ok.mp h).elim
  | succ depth =>
    obtain ⟨node, s₁, annotations, -, -, hset, rfl⟩ := inferAt_succ_eq_ok h
    exact fun _ => (Annotations.get?_of_set hset id).trans (if_pos rfl)

theorem bears_of_inferAll {depth : Nat} {ids : List NodeId} {types : List TypeId}
    (h : inferAll (inferAt cx depth) ids s = .ok types s') :
    List.Forall₂ (Bears s') ids types := by
  induction ids generalizing s types with
  | nil =>
    obtain ⟨rfl, -⟩ := pure_eq_ok.mp h
    exact .nil
  | cons id ids ih =>
    obtain ⟨type, s₁, rest, hfirst, hrest, rfl⟩ := inferAll_cons_eq_ok.mp h
    exact .cons ((bears_of_inferAt hfirst).lasts ((inferAll_forward depth ids).ok hrest).lasts)
      (ih hrest)

theorem callResolved_of_inferAt {depth : Nat} (h : inferAt cx (depth + 1) id s = .ok type s') :
    CallResolved cx s' id := by
  intro callee base name args found hcall hfound
  have hlater : Later (fun _ => True) s s' := (inferAt_forward (depth + 1) id).ok h
  obtain ⟨argTypes, receiver, s₁, s₂, hargs, hbase, hafter, signature, hcallee, hresolves⟩ :=
    (hcall.of_members hlater.members.symm).resolves h
  have hlasts : Lasts s₁ s' := (((inferAt_forward depth base).ok hbase).trans hafter).lasts
  obtain ⟨_, _, annotations, -, -, hset, rfl⟩ := inferAt_succ_eq_ok h
  rw [Annotations.get?_of_set hset, if_pos rfl] at hfound
  obtain rfl := Option.some.inj hfound
  exact ⟨signature, receiver, argTypes, fun _ => hcallee,
    (bears_of_inferAt hbase).lasts hafter.lasts,
    (bears_of_inferAll hargs).imp fun _ _ => Bears.lasts hlasts, hresolves⟩

/-- **Inference leaves calls of member functions resolved.** -/
theorem inferAt_resolving (depth : Nat) :
    ∀ id, Goes (Resolving cx) (fun _ _ _ => True) (inferAt cx depth id) := by
  induction depth with
  | zero => exact fun _ => .throw _
  | succ depth ih =>
    refine fun id => .of_ends (fun {s type s'} hok => ?_) fun _ => trivial
    refine ⟨(inferAt_forward (depth + 1) id).ok hok, fun hs => ?_⟩
    have hresolved := callResolved_of_inferAt hok
    obtain ⟨node, s₁, annotations, hnode, hrule, hset, rfl⟩ := inferAt_succ_eq_ok hok
    have hparts := ((inferNode_resolving ih hnode).ok hrule).calls hs
    refine hparts.later (.of_annotations (.of_set (N := (· = id)) rfl hset)) ?_
    rintro _ rfl
    exact hresolved

/-! ## Items -/

theorem checkItem_resolving {item : Item} {function? : Option CheckedFunction}
    (h : checkItem cx item s = .ok function? s') : Resolving cx s s' := by
  unfold checkItem at h
  cases hkind : item.node.kind with
  | struct | foreign =>
    simp only [hkind] at h
    obtain ⟨-, rfl⟩ := pure_eq_ok.mp h
    exact refl_of (Resolving cx) s
  | function name kind params result body =>
    simp only [hkind, bind_eq_ok, pure_eq_ok] at h
    obtain ⟨f, s₁, hfunction, -, rfl⟩ := h
    obtain ⟨signature, paramTypes, result, opened, s₂, found, s₃, closed, fingerprint, -, -, -,
      hparams, hbody, -, -, rfl, -, -⟩ := checkFunction_eq_ok hfunction
    have hbefore : Later (fun _ => False) s s₂ :=
      (Later.of_scope s opened).trans ((bindParams_later _ params paramTypes).ok hparams)
    have hafter : Later (fun _ => False) s₃ { s₃ with scope := closed } := .of_scope s₃ closed
    exact trans_of (Resolving cx) (hbefore.resolving (by simp))
      (trans_of (Resolving cx) ((inferAt_resolving _ _).ok hbody) (hafter.resolving (by simp)))
  | var name type start =>
    simp only [hkind, bind_eq_ok, pure_eq_ok] at h
    obtain ⟨type, s₁, hinfer, -, rfl⟩ := h
    exact (inferAt_resolving _ _).ok hinfer
  | _ =>
    simp only [hkind, bind_eq_ok, pure_eq_ok, require_eq_ok] at h
    obtain ⟨_, _, ⟨-, rfl⟩, type, s₁, hinfer, -, rfl⟩ := h
    exact (inferAt_resolving _ _).ok hinfer

variable {p q : Progress} {items : List Item} {table : TypeTable}

/-- No call has a type when registration is over. -/
theorem callsResolved_of_registered
    (hnode : ∀ item ∈ items, cx.arena.node? item.id = some item.node)
    (h : registered cx items table = .ok q) : CallsResolved cx q.state := by
  intro id callee base name args type hcall htype
  obtain ⟨item, hitem, rfl, hregistered⟩ :=
    (ready_of_steps (registered_steps h)).annotated id (by simp [htype])
  obtain ⟨node, hnode', hkind⟩ := hcall.call
  obtain rfl := Option.some.inj (hnode'.symm.trans (hnode item hitem))
  simp [Item.IsRegistered, Item.structDef?, Item.functionDef?, hkind] at hregistered

/-- **In the end, every call of a member function that has a type is resolved.** -/
theorem callsResolved_of_run {ids : List NodeId} (hcanonical : table.Canonical)
    (hbuiltin : cx.builtin.ClearIn .known table) (hrun : run cx ids table = .ok p) :
    ∃ items, itemsFrom cx.arena 0 ids = .ok items ∧ Complete cx items items p ∧
      CallsResolved cx p.state := by
  obtain ⟨items, q, hfrom, hregistered, hcheck⟩ := run_eq_ok.mp hrun
  have hnode : ∀ item ∈ items, cx.arena.node? item.id = some item.node := fun _ =>
    node?_of_itemsFrom hfrom
  have hstart : Complete cx items [] q ∧ CallsResolved cx q.state :=
    ⟨complete_of_registered hcanonical hbuiltin hnode hregistered,
      callsResolved_of_registered hnode hregistered⟩
  refine ⟨items, hfrom, checkItems_invariant
    (P := fun seen p => Complete cx items seen p ∧ CallsResolved cx p.state)
    (fun seen item rest p p' hsplit hp hstep => ?_) hstart hcheck⟩
  have hitem : item ∈ items := by simp [hsplit]
  refine ⟨hp.1.step hitem (hnode item hitem) hstep, ?_⟩
  cases hstep with
  | skip => exact hp.2
  | done _ hok => exact (checkItem_resolving hok).calls hp.2
  | found _ hfound =>
    have hkeeps := keeps_of_attempt_error (checkItem_forward item) (fun x _ => hp.1.final x) hfound
    refine hp.2.keeps (N := fun _ => False) (hkeeps.mono fun _ _ => trivial) (fun x type hx _ => ?_)
      (by simp)
    exact (hkeeps.annotations x trivial).trans hx

end RuleTypes.Check
