import RuleTypes.Proofs.Check.Blame
import RuleTypes.Proofs.Check.Visits
import RuleTypes.Proofs.Overloads

/-!
# Member functions

Member functions of one name are registered only if they differ in their parameters, the first of
which is the receiver. This is kept by every step of a registration, whether it goes through or not
(`MembersApart.of_registered`), and afterwards the registry stays as it is. So at most one signature
takes a receiver with its arguments, and the selection among them is never ambiguous: a call of a
member function whose parts have types finds its signature or none (`MemberCall.unambiguous`,
`MemberCall.resolves`).
-/

namespace RuleTypes

/-! ## Signatures that take different arguments -/

namespace TypeTable

variable {t t' : TypeTable} {id signature : TypeId} {args args' candidates found : List TypeId}

theorem Takes.grows (h : t.Takes signature args) (hgrows : t.Grows t') :
    t'.Takes signature args := by
  obtain ⟨result, hform⟩ := h
  exact ⟨result, hgrows.form? hform rfl⟩

theorem Takes.unique (h : t.Takes signature args) (h' : t.Takes signature args') :
    args = args' := by
  obtain ⟨_, hform⟩ := h
  obtain ⟨_, hform'⟩ := h'
  cases hform.symm.trans hform'
  rfl

/-- No two of the signatures take the same arguments. -/
def Apart (t : TypeTable) (signatures : List TypeId) : Prop :=
  signatures.Pairwise fun a b => ∀ args, t.Takes a args → ¬ t.Takes b args

/-- Of signatures that are apart, one at most takes the arguments. -/
theorem Apart.length_le_one (h : t.Apart candidates)
    (hfound : t.matching args candidates = .ok found) : found.length ≤ 1 := by
  have hpairwise := h.sublist (matching_sublist hfound)
  have htakes : ∀ id ∈ found, t.Takes id args := fun id hid =>
    ((matching_eq_ok hfound id).mp hid).2
  cases found with
  | nil => simp
  | cons a rest =>
    cases rest with
    | nil => simp
    | cons b rest =>
      have hne := (List.pairwise_cons.mp hpairwise).1 b (List.mem_cons_self ..)
      exact absurd (htakes b (by simp)) (hne args (htakes a (by simp)))

/-- Among signatures that are apart, none is ambiguous. -/
theorem Apart.selectExact_ne_ambiguous (h : t.Apart candidates) (symbol name text : String)
    (count : Nat) :
    t.selectExact symbol candidates args ≠ .error (.error (.ambiguous name text count)) := by
  intro hambiguous
  unfold selectExact at hambiguous
  cases hfound : t.matching args candidates with
  | error cause => simp [hfound] at hambiguous
  | ok found =>
    have hlength := h.length_le_one hfound
    rw [hfound] at hambiguous
    cases found with
    | nil => cases htext : t.listText args <;> simp [htext] at hambiguous
    | cons a rest =>
      obtain rfl : rest = [] := List.length_eq_zero_iff.mp (by simpa using hlength)
      cases hambiguous

/-! ## Fields that stand in the way -/

/-- The struct of a value is behind a pointer, or the value is no pointer. -/
theorem structOf_eq_ok {owner : Option (TypeId × List (String × TypeId))} :
    t.structOf id = .ok owner ↔
      (∃ target form, t.form? id = some (.pointer target) ∧ t.form? target = some form ∧
        owner = form.fields?.map (target, ·)) ∨
      ∃ form, t.form? id = some form ∧ (∀ target, form ≠ .pointer target) ∧
        owner = form.fields?.map (id, ·) := by
  unfold structOf TypeTable.form
  cases hform : t.form? id with
  | none => simp [bind, Except.bind]
  | some form =>
    cases form with
    | pointer target =>
      cases htarget : t.form? target <;>
        simp [htarget, bind, Except.bind, pure, Except.pure, eq_comm]
    | _ => simp [bind, Except.bind, pure, Except.pure, eq_comm]

variable {owner : Option (TypeId × List (String × TypeId))} {name : String} {type : TypeId}

theorem structOf_extends (h : t.structOf id = .ok owner) (hext : t.Extends t') :
    t'.structOf id = .ok owner := by
  obtain ⟨target, form, hid, htarget, rfl⟩ | ⟨form, hid, hplain, rfl⟩ := structOf_eq_ok.mp h
  · exact structOf_eq_ok.mpr (.inl ⟨target, form, hext.form? hid, hext.form? htarget, rfl⟩)
  · exact structOf_eq_ok.mpr (.inr ⟨form, hext.form? hid, hplain, rfl⟩)

/-- What can be read from a value are the fields of its struct. -/
theorem Offers.lookup_eq_some (h : t.Offers id name type) (howner : t.structOf id = .ok owner) :
    ∃ struct fields, owner = some (struct, fields) ∧ fields.lookup name = some type := by
  obtain ⟨form, fields, hform, hfields, hlookup⟩ | ⟨target, hform, form, fields, htarget, hfields,
    hlookup⟩ := h
  · obtain ⟨target, _, hid, -, -⟩ | ⟨_, hid, -, rfl⟩ := structOf_eq_ok.mp howner
    · cases hform.symm.trans hid
      cases hfields
    · cases hform.symm.trans hid
      exact ⟨id, fields, by rw [hfields]; rfl, hlookup⟩
  · obtain ⟨_, _, hid, htarget', rfl⟩ | ⟨_, hid, hplain, -⟩ := structOf_eq_ok.mp howner
    · cases hform.symm.trans hid
      cases htarget.symm.trans htarget'
      exact ⟨target, fields, by rw [hfields]; rfl, hlookup⟩
    · cases hform.symm.trans hid
      exact absurd rfl (hplain target)

/-- A field that the struct of a value has not cannot be read from the value. -/
theorem not_offers_of_structOf (h : t.structOf id = .ok owner)
    (hfield : ∀ struct fields, owner = some (struct, fields) → fields.lookup name = none)
    (type : TypeId) : ¬ t.Offers id name type := by
  intro hoffers
  obtain ⟨struct, fields, hsome, hlookup⟩ := hoffers.lookup_eq_some h
  simp [hfield struct fields hsome] at hlookup

end TypeTable

namespace Check

open Relation

variable {cx : Setting} {infer : Infer} {s s' : State} {p p' q : Progress} {items : List Item}
  {signature : TypeId} {span : Span}

/-! ## Registration -/

/-- Member functions of one name take different arguments, the first of which is the receiver. -/
structure MembersApart (s : State) : Prop where
  takes : ∀ name, ∀ signature ∈ (s.members.get? name).getD [],
    ∃ receiver args, s.table.Takes signature (receiver :: args)
  apart : ∀ name, s.table.Apart ((s.members.get? name).getD [])

namespace MembersApart

theorem grows (h : MembersApart s) (hgrows : s.table.Grows s'.table)
    (hmembers : s'.members = s.members) : MembersApart s' := by
  refine ⟨fun name signature hsignature => ?_, fun name => ?_⟩
  · rw [hmembers] at hsignature
    obtain ⟨receiver, args, htakes⟩ := h.takes name signature hsignature
    exact ⟨receiver, args, htakes.grows hgrows⟩
  · rw [hmembers]
    refine (h.apart name).imp_of_mem fun {a b} ha hb hne args hta htb => ?_
    obtain ⟨_, _, ha⟩ := h.takes name a ha
    obtain ⟨_, _, hb⟩ := h.takes name b hb
    obtain rfl := (ha.grows hgrows).unique hta
    exact hne _ ha ((hb.grows hgrows).unique htb ▸ hb)

theorem later {N : NodeId → Prop} (h : MembersApart s) (hlater : Later N s s') : MembersApart s' :=
  h.grows hlater.table.grows hlater.members

theorem withMember (h : MembersApart s) {name : String} {receiver : TypeId} {args : List TypeId}
    (htakes : s.table.Takes signature (receiver :: args))
    (hnew : ∀ other ∈ (s.members.get? name).getD [], ¬ s.table.Takes other (receiver :: args)) :
    MembersApart (s.withMember name signature) := by
  refine ⟨fun other old hold => ?_, fun other => ?_⟩
  · obtain rfl | hold := mem_getD_insert hold
    · exact ⟨receiver, args, htakes⟩
    · exact h.takes other old hold
  · change s.table.Apart (((s.members.insert name _).get? other).getD [])
    rw [NameMap.get?_insert]
    split
    · refine List.pairwise_append.mpr ⟨h.apart name, List.pairwise_singleton .., ?_⟩
      intro old hold new hnew' types htold htnew
      obtain rfl := List.mem_singleton.mp hnew'
      exact hnew old hold (htakes.unique htnew ▸ htold)
    · exact h.apart other

end MembersApart

/-- Member functions stay apart. -/
def KeepsApart (s s' : State) : Prop := MembersApart s → MembersApart s'

instance : Tolerant KeepsApart where
  refl _ := id
  trans _ _ _ h h' := h' ∘ h
  table _ _ hgrows _ h := h.grows hgrows rfl
  names _ _ h := h.grows .refl rfl

theorem keepsApart_of_later {α : Type} {x : Check α} (h : Moves (Later fun _ => True) x) :
    Moves KeepsApart x := h.mono fun _ _ hlater hs => hs.later hlater

theorem length_of_resolveParams {params : List (String × TypeExpr)} {types : List TypeId}
    (h : resolveParams span params s = .ok types s') : types.length = params.length := by
  induction params generalizing s s' types with
  | nil =>
    obtain ⟨rfl, -⟩ := pure_eq_ok.mp h
    rfl
  | cons param params ih =>
    simp only [resolveParams, bind_eq_ok, pure_eq_ok] at h
    obtain ⟨_, _, -, rest, _, hrest, rfl, -⟩ := h
    rw [List.length_cons, List.length_cons, ih hrest]

/-- A signature takes as many arguments as there are parameters. -/
theorem takes_of_signatureOf {d : FunctionDef} (h : signatureOf d s = .ok signature s') :
    ∃ params, params.length = d.params.length ∧ s'.table.Takes signature params := by
  obtain ⟨params, s₁, hparams, h⟩ := bind_eq_ok.mp h
  have hform : ∀ {result s₂}, onTable Problem.ofTable d.span
      (TypeTable.internFunction params result) s₂ = .ok signature s' →
      s'.table.Takes signature params := by
    intro result s₂ h
    obtain ⟨table, hintern, rfl⟩ := onTable_eq_ok.mp h
    exact ⟨result, TypeTable.form?_of_internFunction hintern⟩
  refine ⟨params, length_of_resolveParams hparams, ?_⟩
  cases hresult : d.result with
  | none | some =>
    simp only [hresult] at h
    obtain ⟨_, _, -, h⟩ := bind_eq_ok.mp h
    exact hform h

/-- A member function is registered if it has a receiver and none of its name takes the same
arguments; otherwise nothing is registered. -/
theorem registerMember_keepsApart (name : String) {arity : Nat} {params : List TypeId}
    (harity : params.length = arity) (htakes : s.table.Takes signature params) :
    KeepsApart s (endState (registerMember name arity signature span s)) := by
  refine Moves.bind_at (require_moves _ (.pure _) _ s) fun _ s₁ hrequire => ?_
  obtain ⟨hne, rfl⟩ := require_eq_ok.mp hrequire
  rw [get_bind]
  refine Moves.bind_at (formOf_moves _ s) fun form s₁ hread => ?_
  obtain ⟨hform, rfl⟩ := formOf_eq_ok.mp hread
  refine Moves.bind_at (inspect_moves _ s) fun others s₁ hinspect => ?_
  obtain ⟨hothers, rfl⟩ := inspect_eq_ok.mp hinspect
  refine Moves.bind_at (require_moves _ (.pure _) _ s) fun _ s₁ hrequire => ?_
  obtain ⟨hnew, rfl⟩ := require_eq_ok.mp hrequire
  intro hs
  change MembersApart (s.withMember name signature)
  cases params with
  | nil => simp [← harity] at hne
  | cons receiver args =>
    refine hs.withMember htakes fun other hother htaken => ?_
    obtain ⟨_, htakes⟩ := htakes
    obtain ⟨_, htaken⟩ := htaken
    obtain ⟨found, hfound, hread⟩ := except_mapM_mem hothers hother
    obtain rfl := Option.some.inj (htaken.symm.trans (TypeTable.form_eq_ok.mp hread))
    obtain rfl := Option.some.inj (htakes.symm.trans hform)
    have hdiffers := List.all_eq_true.mp hnew _ hfound
    simp [Form.signature?] at hdiffers

theorem registerFunction_keepsApart (d : FunctionDef) :
    Moves KeepsApart (registerFunction cx d) := by
  intro s
  refine Moves.bind_at (moves_of_extended (signatureOf_extended d) s) fun signature s₁ hok => ?_
  have hannotate : Moves KeepsApart (annotate d.node signature) :=
    keepsApart_of_later (annotate_later trivial _)
  have hbind : ∀ kind, Moves KeepsApart (bindName d.name signature kind d.span) := fun _ =>
    keepsApart_of_later (bindName_later _ _ _ _)
  cases d.kind with
  | none => exact Moves.bind (hbind .foreign) (fun _ => hannotate) s₁
  | some kind =>
    cases kind with
    | normal => exact Moves.bind (hbind .function) (fun _ => hannotate) s₁
    | symbolic =>
      exact Moves.bind_at (registerOperator_at (fun hs => hs.grows .refl rfl) _ _)
        fun _ s₂ _ => hannotate s₂
    | member =>
      obtain ⟨params, hlength, htakes⟩ := takes_of_signatureOf hok
      exact Moves.bind_at (registerMember_keepsApart _ hlength htakes) fun _ s₂ _ => hannotate s₂

namespace MembersApart

/-- However a registration ends, member functions stay apart. -/
theorem register {position : Nat} {node : NodeId} {x : Check Unit} (hp : MembersApart p.state)
    (hx : Moves KeepsApart x) (h : p.register position node x = .ok p') :
    MembersApart p'.state := by
  obtain ⟨r, state, hattempt, hresult⟩ := register_eq_ok h
  have hstate : MembersApart state := by
    obtain ⟨_, -, hok⟩ | ⟨_, s₁, _, -, herror, -, rfl⟩ := attempt_eq_ok hattempt
    · exact hx.ok hok hp
    · exact (hx.error herror hp).grows .refl rfl
  obtain ⟨-, rfl⟩ | ⟨_, -, rfl⟩ := hresult
  · exact hstate
  · exact hstate

theorem registerStep (hp : MembersApart p.state) (h : RegisterStep cx items p p') :
    MembersApart p'.state := by
  cases h with
  | declare _ h =>
    refine hp.register (declareStruct_moves _ fun _ => ?_) h
    exact keepsApart_of_later (annotate_later trivial _)
  | fill _ _ h => exact hp.register (fillStruct_moves _) h
  | layout _ _ h => exact hp.register (checkLayout_moves _) h
  | function _ h => exact hp.register (registerFunction_keepsApart _) h

/-- **When registration is over, member functions of one name take different arguments.** -/
theorem of_registered {table : TypeTable} (h : registered cx items table = .ok q) :
    MembersApart q.state := by
  have hstart : MembersApart (State.start table cx.arena.size) := by
    refine ⟨fun name signature hsignature => ?_, fun name => ?_⟩
    · simp [State.start, NameMap.get?_empty] at hsignature
    · simp [State.start, NameMap.get?_empty, TypeTable.Apart]
  have hsteps := registered_steps h
  clear h
  induction hsteps with
  | refl => exact hstart
  | tail _ hstep ih => exact ih.registerStep hstep

/-- So it is whenever the check comes to an item. -/
theorem of_comesTo {ids : List NodeId} {table : TypeTable} {item : Item}
    (h : ComesTo cx ids table item p) : MembersApart p.state := by
  obtain ⟨seen, rest, q, -, hregistered, hseen⟩ := h
  exact (of_registered hregistered).grows (grows_of_checkItems hseen) (members_of_checkItems hseen)

/-- One signature of the name at most takes the receiver and the arguments. -/
theorem exists_matching (h : MembersApart s) (name : String) (receiver : TypeId)
    (args : List TypeId) :
    ∃ found, s.table.matching (receiver :: args) ((s.members.get? name).getD []) = .ok found ∧
      found.length ≤ 1 := by
  obtain ⟨found, hfound⟩ := TypeTable.exists_matching (receiver :: args) fun signature hmem => by
    obtain ⟨_, _, _, hform⟩ := h.takes name signature hmem
    exact TypeTable.form?_eq_some_lt hform
  exact ⟨found, hfound, (h.apart name).length_le_one hfound⟩

end MembersApart

/-! ## Selection -/

/-- The finding says that several signatures take the arguments. -/
def IsAmbiguous (finding : Finding) : Prop :=
  ∃ symbol args count, finding.problem = .ambiguousOverload symbol args count

theorem select_unambiguous {candidates : List TypeId} (h : s.table.Apart candidates)
    (symbol : String) (args : List TypeId) (span : Span) :
    Refuses (fun finding => ¬ IsAmbiguous finding) (select symbol candidates args span) s := by
  rintro finding s' hselect ⟨name, text, count, hproblem⟩
  unfold select at hselect
  cases hexact : s.table.selectExact symbol candidates args with
  | ok id => simp [hexact] at hselect
  | error e =>
    cases e with
    | fault cause => simp [hexact] at hselect
    | error cause =>
      cases cause with
      | noMatch =>
        simp only [hexact, EStateM.Result.error.injEq, Failure.error.injEq] at hselect
        obtain ⟨rfl, -⟩ := hselect
        cases hproblem
      | ambiguous name text count => exact h.selectExact_ne_ambiguous symbol name text count hexact

theorem selectMember_unambiguous {base : NodeId} {receiver : TypeId}
    (hbase : infer base s = .ok receiver s') (hs : MembersApart s') (name : String)
    (args : List TypeId) (span : Span) :
    Refuses (fun finding => ¬ IsAmbiguous finding) (selectMember infer base name args span) s := by
  refine .bind (.of_ok hbase) fun found s₁ hfound => ?_
  cases hbase.symm.trans hfound
  refine .bind (Blames.refuses fun _ _ => inspect_blames _) fun owner s₂ hread => ?_
  obtain ⟨-, rfl⟩ := inspect_eq_ok.mp hread
  have hselect : Refuses (fun finding => ¬ IsAmbiguous finding) (do
      let candidates := ((← get).members.get? name).getD []
      select name candidates (receiver :: args) span) s' :=
    select_unambiguous (hs.apart name) name (receiver :: args) span
  rcases owner with _ | ⟨owner, fields⟩
  · exact hselect
  · refine .bind (Blames.refuses fun _ _ => requireText_blames ?_ _) fun _ s₃ hrequire => ?_
    · rintro text ⟨symbol, args, count, hproblem⟩
      cases hproblem
    · obtain ⟨-, rfl⟩ := require_eq_ok.mp hrequire
      exact hselect

/-! ## Calls -/

/-- The node calls `name` on the value of `base`, and there are member functions of the name. -/
structure MemberCall (cx : Setting) (s : State) (id callee base : NodeId) (name : String)
    (args : List NodeId) : Prop where
  call : ∃ node, cx.arena.node? id = some node ∧ node.kind = .call callee args
  callee : ∃ node, cx.arena.node? callee = some node ∧ node.kind = .member base name
  registered : s.members.contains name = true

theorem MemberCall.of_members {id callee base : NodeId} {name : String} {args : List NodeId}
    (h : MemberCall cx s id callee base name args) (hmembers : s'.members = s.members) :
    MemberCall cx s' id callee base name args :=
  ⟨h.call, h.callee, hmembers ▸ h.registered⟩

theorem calleeOf_member {name : String} (h : s.members.contains name = true) (base : NodeId) :
    calleeOf cx (.member base name) s = .ok (.member base name) s := by
  change (if s.members.contains name then pure (.member base name) else pure .value : Check Callee)
    s = _
  rw [if_pos h]
  rfl

theorem inferAll_forward (depth : Nat) (ids : List NodeId) :
    Moves (Later fun _ => True) (inferAll (inferAt cx depth) ids) :=
  (inferAll_goes fun id _ => (inferAt_forward depth id).goes).moves

/-- How a member function is called. -/
def inferMemberCall (infer : Infer) (callee base : NodeId) (name : String) (args : List NodeId)
    (span : Span) : Check TypeId := do
  let argTypes ← inferAll infer args
  let signature ← selectMember infer base name argTypes span
  annotate callee signature
  resultOf signature

namespace MemberCall

variable {id callee base : NodeId} {name : String} {args : List NodeId} {depth : Nat}

/-- The rule of a node that calls a member function. -/
theorem inferNode_eq (h : MemberCall cx s id callee base name args) (depth : Nat) :
    ∃ node span, cx.arena.node? id = some node ∧ inferNode cx (inferAt cx depth) id node s =
      inferMemberCall (inferAt cx depth) callee base name args span s := by
  obtain ⟨⟨node, hnode, hkind⟩, ⟨calleeNode, hcallee, hcalleeKind⟩, hregistered⟩ := h
  refine ⟨node, calleeNode.span, hnode, ?_⟩
  rw [inferNode, hkind]
  refine bind_congr_at rfl fun argTypes s₁ hargs => ?_
  have hmembers : s₁.members = s.members := ((inferAll_forward depth args).ok hargs).members
  rw [bind_of_ok (nodeOf_eq_ok.mpr ⟨hcallee, rfl⟩), hcalleeKind,
    bind_of_ok (calleeOf_member (hmembers ▸ hregistered) base)]

/-- **A call of a member function is never ambiguous.** Once its arguments and its receiver have
types, no finding of the call says that several signatures take them. -/
theorem unambiguous (h : MemberCall cx s id callee base name args) (hs : MembersApart s)
    {argTypes : List TypeId} {receiver : TypeId} {s₁ s₂ : State}
    (hargs : inferAll (inferAt cx depth) args s = .ok argTypes s₁)
    (hbase : inferAt cx depth base s₁ = .ok receiver s₂) :
    Refuses (fun finding => ¬ IsAmbiguous finding) (inferAt cx (depth + 1) id) s := by
  obtain ⟨node, span, hnode, heq⟩ := h.inferNode_eq depth
  have hlater : Later (fun _ => True) s s₂ :=
    ((inferAll_forward depth args).ok hargs).trans ((inferAt_forward depth base).ok hbase)
  refine .bind (.of_ok (nodeOf_eq_ok.mpr ⟨hnode, rfl⟩)) fun found s₃ hfound => ?_
  cases hfound.symm.trans (nodeOf_eq_ok.mpr ⟨hnode, rfl⟩)
  refine .bind (.congr heq ?_) fun _ _ _ => .bind (update_refuses _) fun _ _ _ => .pure _
  refine .bind (.of_ok hargs) fun types s₃ htypes => ?_
  cases htypes.symm.trans hargs
  exact .bind (selectMember_unambiguous hbase (hs.later hlater) name argTypes span) fun _ _ _ =>
    .bind (update_refuses _) fun _ _ _ => Blames.refuses fun _ _ => inspect_blames _

end MemberCall

/-- `name`, called on a `receiver` with `args`, is `signature` and nothing else: of the signatures
that are registered under the name, it is the only one that takes the receiver and the arguments.
And no field of the name can be read from the receiver. -/
structure Resolves (s : State) (name : String) (receiver : TypeId) (args : List TypeId)
    (signature result : TypeId) : Prop where
  selects : s.table.Selects ((s.members.get? name).getD []) (receiver :: args) signature
  form : s.table.form? signature = some (.function (receiver :: args) result)
  owner : ∃ owner, s.table.structOf receiver = .ok owner
  noField : ∀ type, ¬ s.table.Offers receiver name type

theorem Resolves.extends {name : String} {receiver result : TypeId} {args : List TypeId}
    (h : Resolves s name receiver args signature result) (htable : s.table.Extends s'.table)
    (hmembers : s'.members = s.members) : Resolves s' name receiver args signature result := by
  obtain ⟨owner, howner⟩ := h.owner
  have howner' := TypeTable.structOf_extends howner htable
  refine ⟨?_, htable.form? h.form, ⟨owner, howner'⟩, fun type hoffers => ?_⟩
  · rw [hmembers]
    exact h.selects.extends htable
  · obtain ⟨struct, fields, rfl, hlookup⟩ := hoffers.lookup_eq_some howner'
    exact h.noField type (TypeTable.offers_of_structOf howner hlookup)

theorem noField_of_selectMember {base : NodeId} {name : String} {args : List TypeId}
    (h : selectMember infer base name args span s = .ok signature s') :
    ∃ receiver owner, infer base s = .ok receiver s' ∧ s'.table.structOf receiver = .ok owner ∧
      ∀ struct fields, owner = some (struct, fields) → fields.lookup name = none := by
  obtain ⟨receiver, s₁, hbase, h⟩ := bind_eq_ok.mp h
  obtain ⟨owner, s₂, hread, h⟩ := bind_eq_ok.mp h
  obtain ⟨howner, rfl⟩ := inspect_eq_ok.mp hread
  refine ⟨receiver, owner, ?_⟩
  rcases owner with _ | ⟨owner, fields⟩
  all_goals simp only [bind_eq_ok, require_eq_ok, get_eq_ok, select_eq_ok] at h
  · obtain ⟨_, _, ⟨rfl, rfl⟩, -, rfl⟩ := h
    exact ⟨hbase, howner, by simp⟩
  · obtain ⟨_, _, ⟨hnone, rfl⟩, _, _, ⟨rfl, rfl⟩, -, rfl⟩ := h
    refine ⟨hbase, howner, fun struct others heq => ?_⟩
    cases heq
    exact Option.isNone_iff_eq_none.mp hnone

/-- **A call of a member function that answers has found its one signature.** -/
theorem MemberCall.resolves {id callee base : NodeId} {name : String} {args : List NodeId}
    {depth : Nat} {type : TypeId} (h : MemberCall cx s id callee base name args)
    (hok : inferAt cx (depth + 1) id s = .ok type s') :
    ∃ argTypes receiver s₁ s₂, inferAll (inferAt cx depth) args s = .ok argTypes s₁ ∧
      inferAt cx depth base s₁ = .ok receiver s₂ ∧ Later (fun _ => True) s₂ s' ∧
      ∃ signature, s'.annotations.get? callee = some signature ∧
        Resolves s' name receiver argTypes signature type := by
  obtain ⟨node, s₃, annotations, hnode, hrule, hset, rfl⟩ := inferAt_succ_eq_ok hok
  obtain ⟨node', span, hnode', heq⟩ := h.inferNode_eq depth
  obtain rfl := Option.some.inj (hnode.symm.trans hnode')
  rw [heq] at hrule
  obtain ⟨argTypes, s₁, hargs, hrule⟩ := bind_eq_ok.mp hrule
  obtain ⟨signature, s₂, hselect, hrule⟩ := bind_eq_ok.mp hrule
  obtain ⟨_, _, hannotate, hrule⟩ := bind_eq_ok.mp hrule
  obtain ⟨signed, hsign, rfl⟩ := annotate_eq_ok.mp hannotate
  obtain ⟨⟨params, hform⟩, rfl⟩ := resultOf_eq_ok.mp hrule
  obtain ⟨receiver, hbase, hselects⟩ := selectMember_eq_ok hselect
  obtain ⟨receiver', owner, hbase', howner, hfield⟩ := noField_of_selectMember hselect
  cases hbase.symm.trans hbase'
  obtain ⟨_, htakes⟩ := ((hselects.only signature).mpr rfl).2
  cases hform.symm.trans htakes
  refine ⟨argTypes, receiver, s₁, s₂, hargs, hbase,
    (Later.of_annotations (.of_set trivial hsign)).trans
      (.of_annotations (.of_set (N := fun _ => True) trivial hset)), signature, ?_, ?_⟩
  · -- the callee is no call, so it is another node
    have hne : callee ≠ id := by
      rintro rfl
      obtain ⟨⟨call, hcall, hcallKind⟩, ⟨member, hmember, hmemberKind⟩, -⟩ := h
      cases hcall.symm.trans hmember
      cases hcallKind.symm.trans hmemberKind
    rw [Annotations.get?_of_set hset, if_neg hne, Annotations.get?_of_set hsign, if_pos rfl]
  · exact ⟨hselects, hform, ⟨owner, howner⟩, TypeTable.not_offers_of_structOf howner hfield⟩

/-- How a call of a member function ends that is looked at in `s`. -/
structure CallOutcome (cx : Setting) (depth : Nat) (s : State) (id callee base : NodeId)
    (name : String) (args : List NodeId) : Prop where
  /-- Once the arguments and the receiver have types, it does not fail as ambiguous. -/
  unambiguous : ∀ argTypes receiver s₁ s₂, inferAll (inferAt cx depth) args s = .ok argTypes s₁ →
    inferAt cx depth base s₁ = .ok receiver s₂ →
    Refuses (fun finding => ¬ IsAmbiguous finding) (inferAt cx (depth + 1) id) s
  /-- If it answers, the callee has the one signature that takes the receiver and the arguments. -/
  resolved : ∀ type s', inferAt cx (depth + 1) id s = .ok type s' →
    ∃ argTypes receiver s₁ s₂ signature, inferAll (inferAt cx depth) args s = .ok argTypes s₁ ∧
      inferAt cx depth base s₁ = .ok receiver s₂ ∧ s'.annotations.get? callee = some signature ∧
      Resolves s' name receiver argTypes signature type

theorem MemberCall.outcome {id callee base : NodeId} {name : String} {args : List NodeId}
    (h : MemberCall cx s id callee base name args) (hs : MembersApart s) (depth : Nat) :
    CallOutcome cx depth s id callee base name args where
  unambiguous _ _ _ _ hargs hbase := h.unambiguous hs hargs hbase
  resolved _ _ hok := by
    obtain ⟨argTypes, receiver, s₁, s₂, hargs, hbase, -, signature, hcallee, hresolves⟩ :=
      h.resolves hok
    exact ⟨argTypes, receiver, s₁, s₂, signature, hargs, hbase, hcallee, hresolves⟩

end Check

end RuleTypes
