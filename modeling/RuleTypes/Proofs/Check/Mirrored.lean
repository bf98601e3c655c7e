import RuleTypes.Proofs.Check.Answers
import RuleTypes.Proofs.Check.Copy

/-!
# Rules applied to copied code

Each rule of a check, applied to a node, is followed by the same rule applied to the copy of the
node, as long as the inference of the parts is. So the inference of copied code gives the same types
or the same finding, whatever else the two tables and the two arenas hold (`inferAt_mirrors`).
-/

namespace RuleTypes

open List (Forall₂)

/-- The same flaw, with related types. -/
inductive MemberFlaw.Renames (R : Renaming) : MemberFlaw → MemberFlaw → Prop
  | unknownField (name : String) : Renames R (.unknownField name) (.unknownField name)
  | tooMany : Renames R .tooMany .tooMany
  | repeated (field : String) : Renames R (.repeated field) (.repeated field)
  | mismatch (field : String) {expected expected' found found' : TypeId}
      (hexpected : R.rel expected expected') (hfound : R.rel found found') :
      Renames R (.mismatch field expected found) (.mismatch field expected' found')

namespace Check

variable {cx cx' : Setting} {M : Copy cx cx'} {infer infer' : Infer} {R : Renaming}
  {a b : TypeId} {n base callee target value condition : NodeId} {ids : List NodeId}
  {types types' : List TypeId}

/-- The second inference follows the first from a copied node. -/
structure Parallel (M : Copy cx cx') (infer infer' : Infer) (n : NodeId) : Prop where
  copied : M.copied n
  mirrors : ∀ R, Mirrors (Mirrored M) Renaming.rel R (infer n) (infer' (M.place n))

theorem inferAll_mirrors (h : ∀ n ∈ ids, Parallel M infer infer' n) :
    Mirrors (Mirrored M) (fun R => Forall₂ R.rel) R (inferAll infer ids)
      (inferAll infer' (ids.map M.place)) := by
  induction ids generalizing R with
  | nil => exact .pure fun _ _ => .nil
  | cons id ids ih =>
    obtain ⟨hid, hids⟩ := List.forall_mem_cons.mp h
    exact (hid.mirrors R).bind fun _ _ _ _ hab => (ih hids).bind fun _ hR₁ _ _ hrest =>
      .pure fun _ hR₂ => .cons (hR₂ _ _ (hR₁ _ _ hab)) (hrest.imp hR₂)

/-! ## Names, members, indexing and assignment -/

theorem inferIdentifier_mirrors (name : String) (span : Span) :
    Mirrors (Mirrored M) Renaming.rel R (inferIdentifier name span)
      (inferIdentifier name span) := by
  refine (lookup_mirrors name).bind fun R₁ _ x y hxy => ?_
  cases hxy with
  | none => exact report_mirrors _ span
  | some hbinding => exact .pure fun _ hR => hR _ _ hbinding.1

theorem inferMember_mirrors (hbase : Parallel M infer infer' base) (field : String) (span : Span) :
    Mirrors (Mirrored M) Renaming.rel R (inferMember infer base field span)
      (inferMember infer' (M.place base) field span) := by
  refine (hbase.mirrors R).bind fun R₁ _ a b hab => ?_
  refine (structOf_mirrors hab).bind fun R₂ hR₂ x y hxy => ?_
  cases hxy with
  | none => exact reportText_mirrors .notStruct (hR₂ _ _ hab) span
  | @some x y hstruct =>
    obtain ⟨owner, fields⟩ := x
    obtain ⟨owner', fields'⟩ := y
    rcases optionRel_cases (Form.lookup_of_sameFields hstruct.2 field) with
      ⟨hx, hy⟩ | ⟨type, type', hx, hy, htype⟩
    · simp only [hx, hy]
      exact reportText_mirrors (.unknownField · field) hstruct.1 span
    · simp only [hx, hy]
      exact .pure fun _ hR => hR _ _ htype

theorem inferIndex_mirrors {position : NodeId} (hbase : Parallel M infer infer' base)
    (hposition : Parallel M infer infer' position) :
    Mirrors (Mirrored M) Renaming.rel R (inferIndex cx infer base position)
      (inferIndex cx' infer' (M.place base) (M.place position)) := by
  refine (hbase.mirrors R).bind fun R₁ _ a b hab => ?_
  refine (formOf_mirrors hab).bind fun R₂ hR₂ f g hform => ?_
  rcases optionRel_cases hform.element? with ⟨hf, hg⟩ | ⟨element, element', hf, hg, helement⟩
  · simp only [hf, hg]
    refine (textOf_mirrors (hR₂ _ _ hab)).bind fun _ _ _ _ heq => ?_
    refine (nodeOf_mirrors hbase.copied).bind fun _ _ node node' hnode => ?_
    rw [heq, hnode.2]
    exact report_mirrors _ node.span
  · simp only [hf, hg]
    refine (hposition.mirrors R₂).bind fun R₃ hR₃ found found' hfound => .of_states ?_
    intro R₄ hR₄ s s' hs
    refine (nodeOf_mirrors hposition.copied).bind fun R₅ hR₅ node node' hnode => ?_
    have hfound' := hR₅ _ _ (hR₄ _ _ hfound)
    have hnumber := hR₅ _ _ hs.builtin.number
    rw [hnode.2]
    refine (require_mirrors (decide_eq_decide.mpr (R₅.eq_iff hfound' hnumber).symm)
      (twoTexts_mirrors (.argumentMismatch 0) hnumber hfound') node.span).bind
        fun R₆ hR₆ _ _ _ => ?_
    exact .pure fun _ hR₇ => hR₇ _ _ (hR₆ _ _ (hR₅ _ _ (hR₄ _ _ (hR₃ _ _ helement))))

theorem isAssignable_mirrors (kind : NodeKind) :
    Mirrors (Mirrored M) (fun _ => Eq) R (isAssignable kind)
      (isAssignable (kind.rename M.place)) := by
  have hplace : Mirrors (Mirrored M) (fun _ => Eq) R (pure kind.isPlace : Check Bool)
      (pure (kind.rename M.place).isPlace) := by
    rw [NodeKind.isPlace_rename]
    exact .pure fun _ _ => rfl
  cases kind with
  | identifier name =>
    refine (lookup_mirrors name).bind fun R₁ _ x y hxy => ?_
    cases hxy with
    | none => exact .pure fun _ _ => rfl
    | some hbinding => exact .pure fun _ _ => by rw [hbinding.2]
  | _ => exact hplace

theorem inferAssign_mirrors (htarget : Parallel M infer infer' target)
    (hvalue : Parallel M infer infer' value) (span : Span) :
    Mirrors (Mirrored M) Renaming.rel R (inferAssign cx infer target value span)
      (inferAssign cx' infer' (M.place target) (M.place value) span) := by
  refine (nodeOf_mirrors htarget.copied).bind fun _ _ node node' hnode => ?_
  rw [hnode.2]
  refine (isAssignable_mirrors node.kind).bind fun _ _ holds holds' hholds => ?_
  refine (require_mirrors hholds.symm (.pure fun _ _ => rfl) span).bind fun R₁ _ _ _ _ => ?_
  refine (htarget.mirrors R₁).bind fun R₂ _ a b hab => ?_
  refine (hvalue.mirrors R₂).bind fun R₃ hR₃ c d hcd => ?_
  refine (require_mirrors (decide_eq_decide.mpr (and_congr
    (not_congr (R₃.eq_iff hcd R₃.noValue)) (R₃.eq_iff (hR₃ _ _ hab) hcd)).symm)
    (twoTexts_mirrors .assignmentMismatch (hR₃ _ _ hab) hcd) span).bind fun _ _ _ _ _ => ?_
  exact .pure fun R _ => R.noValue

/-! ## Calls and operators -/

theorem Mirrored.candidates {s s' : State} (hs : Mirrored M R s s') (symbol : String) :
    R.Shuffles (cx.builtin.candidates symbol ++ (s.operators.get? symbol).getD [])
      (cx'.builtin.candidates symbol ++ (s'.operators.get? symbol).getD []) :=
  .append (.of_forall₂ (hs.builtin.overloads.getD .nil symbol)) (hs.operators.getD .nil symbol)

theorem selectOperator_mirrors (symbol : String) (htypes : Forall₂ R.rel types types')
    (span : Span) : Mirrors (Mirrored M) Renaming.rel R (selectOperator cx symbol types span)
      (selectOperator cx' symbol types' span) :=
  .get_bind fun _ hR _ _ hs => select_mirrors symbol (hs.candidates symbol) (htypes.imp hR) span

theorem selectMember_mirrors (hbase : Parallel M infer infer' base) (name : String)
    (htypes : Forall₂ R.rel types types') (span : Span) :
    Mirrors (Mirrored M) Renaming.rel R (selectMember infer base name types span)
      (selectMember infer' (M.place base) name types' span) := by
  refine (hbase.mirrors R).bind fun R₁ hR₁ a b hab => ?_
  have hselect : ∀ {R₂}, R₁ ≤ R₂ → Mirrors (Mirrored M) Renaming.rel R₂
      (do
        let candidates := ((← get).members.get? name).getD []
        select name candidates (a :: types) span)
      (do
        let candidates := ((← get).members.get? name).getD []
        select name candidates (b :: types') span) :=
    fun hR₂ => .get_bind fun _ hR₃ _ _ hs => select_mirrors name (hs.members.getD .nil name)
      ((List.Forall₂.cons hab (htypes.imp hR₁)).imp (hR₂.trans hR₃)) span
  refine (structOf_mirrors hab).bind fun R₂ hR₂ x y hxy => ?_
  cases hxy with
  | none => exact hselect hR₂
  | @some x y hstruct =>
    obtain ⟨owner, fields⟩ := x
    obtain ⟨owner', fields'⟩ := y
    have hfield : (fields'.lookup name).isNone = (fields.lookup name).isNone := by
      rcases optionRel_cases (Form.lookup_of_sameFields hstruct.2 name) with
        ⟨hx, hy⟩ | ⟨type, type', hx, hy, -⟩ <;>
        simp only [hx, hy, Option.isNone_none, Option.isNone_some]
    refine (require_mirrors hfield ?_ span).bind fun R₃ hR₃ _ _ _ => hselect (hR₂.trans hR₃)
    exact (textOf_mirrors hstruct.1).bind fun _ _ _ _ heq => .pure fun _ _ => by rw [heq]

/-- The first unfitting argument is the same, with related types. -/
theorem argumentFlaw?_rel {params params' : List TypeId} (hparams : Forall₂ R.rel params params')
    (htypes : Forall₂ R.rel types types') (i : Nat) :
    Option.Rel (fun x y => x.1 = y.1 ∧ R.rel x.2.1 y.2.1 ∧ R.rel x.2.2 y.2.2)
      (argumentFlaw? i params types) (argumentFlaw? i params' types') := by
  induction hparams generalizing i types types' with
  | nil => exact .none
  | cons hparam _ ih =>
    cases htypes with
    | nil => exact .none
    | cons htype htypes =>
      simp only [argumentFlaw?, R.eq_iff hparam htype]
      split
      · exact ih htypes (i + 1)
      · exact .some ⟨rfl, hparam, htype⟩

theorem applyValue_mirrors (hab : R.rel a b) (hcallee : M.copied callee)
    (hids : ∀ id ∈ ids, M.copied id) (htypes : Forall₂ R.rel types types') :
    Mirrors (Mirrored M) Renaming.rel R (applyValue cx a callee ids types)
      (applyValue cx' b (M.place callee) (ids.map M.place) types') := by
  refine (nodeOf_mirrors hcallee).bind fun R₁ hR₁ node node' hnode => ?_
  obtain ⟨-, rfl⟩ := hnode
  refine (formOf_mirrors (hR₁ _ _ hab)).bind fun R₂ hR₂ f g hform => ?_
  have hab₂ := hR₂ _ _ (hR₁ _ _ hab)
  have htypes₂ := htypes.imp (hR₁.trans hR₂)
  rcases optionRel_cases hform.signature? with ⟨hf, hg⟩ | ⟨x, y, hf, hg, hsignature⟩
  · simp only [hf, hg]
    exact reportText_mirrors .notCallable hab₂ node.span
  obtain ⟨params, result⟩ := x
  obtain ⟨params', result'⟩ := y
  obtain ⟨hparams, hresult⟩ : Forall₂ R₂.rel params params' ∧ R₂.rel result result' := hsignature
  simp only [hf, hg]
  refine (require_mirrors (by rw [hparams.length_eq, htypes.length_eq]) ?_ node.span).bind
    fun R₃ hR₃ _ _ _ => ?_
  · have hkind : (node.rename M.place).kind = node.kind.rename M.place := rfl
    rw [hkind, ← hparams.length_eq, ← htypes.length_eq]
    cases node.kind with
    | identifier name => exact .pure fun _ _ => rfl
    | _ => exact (textOf_mirrors hab₂).bind fun _ _ _ _ heq => .pure fun _ _ => by rw [heq]
  rcases optionRel_cases (argumentFlaw?_rel hparams htypes₂ 0) with
    ⟨hx, hy⟩ | ⟨⟨i, expected, found⟩, ⟨i', expected', found'⟩, hx, hy, hflaw⟩
  · simp only [hx, hy]
    exact .pure fun _ hR₄ => hR₄ _ _ (hR₃ _ _ hresult)
  obtain ⟨rfl, hexpected, hfound⟩ : i = i' ∧ R₂.rel expected expected' ∧ R₂.rel found found' :=
    hflaw
  simp only [hx, hy]
  refine (textOf_mirrors (hR₃ _ _ hexpected)).bind fun R₄ hR₄ text _ heq => ?_
  refine (textOf_mirrors (hR₄ _ _ (hR₃ _ _ hfound))).bind fun R₅ _ text₁ _ heq₁ => ?_
  subst heq heq₁
  rw [List.getElem?_map]
  cases harg : ids[i]? with
  | none => exact .fault _ _
  | some arg =>
    refine (nodeOf_mirrors (hids arg (List.mem_of_getElem? harg))).bind
      fun _ _ argNode _ hargNode => ?_
    rw [hargNode.2]
    exact report_mirrors _ argNode.span

/-- The same way to find a function, by copied nodes. -/
inductive Callee.Renames (M : Copy cx cx') (callee : NodeId) : Callee → Callee → Prop
  | operator (symbol : String) : Renames M callee (.operator symbol) (.operator symbol)
  | member {base : NodeId} (name : String) (hbase : cx.arena.IsChild callee base) :
      Renames M callee (.member base name) (.member (M.place base) name)
  | value : Renames M callee .value .value

theorem isOperator_mirrors (symbol : String) :
    Mirrors (Mirrored M) (fun _ => Eq) R (isOperator cx symbol) (isOperator cx' symbol) := by
  refine .get_bind fun _ _ s s' hs => .pure fun _ _ => ?_
  have hbuiltin : cx'.builtin.has symbol = cx.builtin.has symbol :=
    hs.builtin.overloads.contains symbol
  rw [hbuiltin, hs.operators.contains symbol]

theorem calleeOf_mirrors {node : Node} (hnode : cx.arena.node? callee = some node) :
    Mirrors (Mirrored M) (fun _ => Callee.Renames M callee) R (calleeOf cx node.kind)
      (calleeOf cx' (node.kind.rename M.place)) := by
  cases hkind : node.kind with
  | identifier name =>
    refine (lookup_mirrors name).bind fun R₁ _ x y hxy => ?_
    refine (isOperator_mirrors name).bind fun R₂ _ p q hpq => ?_
    have hnone : y.isNone = x.isNone := by cases hxy <;> rfl
    subst hpq
    rw [hnone]
    split
    · exact .pure fun _ _ => .operator name
    · exact .pure fun _ _ => .value
  | member base field =>
    refine .get_bind fun R₁ _ s s' hs => ?_
    rw [hs.members.contains field]
    split
    · exact .pure fun _ _ => .member field ⟨node, hnode, by simp [hkind, NodeKind.children]⟩
    · exact .pure fun _ _ => .value
  | _ => exact .pure fun _ _ => .value

theorem inferCall_mirrors (hcallee : Parallel M infer infer' callee)
    (hbase : ∀ base, cx.arena.IsChild callee base → Parallel M infer infer' base)
    (hids : ∀ id ∈ ids, Parallel M infer infer' id) :
    Mirrors (Mirrored M) Renaming.rel R (inferCall cx infer callee ids)
      (inferCall cx' infer' (M.place callee) (ids.map M.place)) := by
  have happly : ∀ {R a b}, R.rel a b → Mirrors (Mirrored M) Renaming.rel R
      (do annotate callee a; resultOf a) (do annotate (M.place callee) b; resultOf b) :=
    fun hab => (annotate_mirrors (M.shared_of_copied callee hcallee.copied) hab).bind
      fun _ hR _ _ _ => resultOf_mirrors (hR _ _ hab)
  refine (inferAll_mirrors hids).bind fun R₁ _ types types' htypes => ?_
  refine (nodeOf_mirrors hcallee.copied).bind fun R₂ hR₂ node node' hnode => ?_
  obtain ⟨hnode, rfl⟩ := hnode
  refine (calleeOf_mirrors hnode).bind fun R₃ hR₃ x y hxy => ?_
  have htypes₃ := htypes.imp (hR₂.trans hR₃)
  cases hxy with
  | operator symbol =>
    exact (selectOperator_mirrors symbol htypes₃ node.span).bind fun _ _ _ _ => happly
  | member name hchild =>
    exact (selectMember_mirrors (hbase _ hchild) name htypes₃ node.span).bind fun _ _ _ _ => happly
  | value =>
    exact (hcallee.mirrors R₃).bind fun _ hR₄ _ _ hab => applyValue_mirrors hab hcallee.copied
      (fun id hid => (hids id hid).copied) (htypes₃.imp hR₄)

theorem inferBinary_mirrors {left right : NodeId} (symbol : String)
    (hleft : Parallel M infer infer' left) (hright : Parallel M infer infer' right) (span : Span) :
    Mirrors (Mirrored M) Renaming.rel R (inferBinary cx infer symbol left right span)
      (inferBinary cx' infer' symbol (M.place left) (M.place right) span) :=
  (hleft.mirrors R).bind fun R₁ _ _ _ hab => (hright.mirrors R₁).bind fun _ hR₂ _ _ hcd =>
    (selectOperator_mirrors symbol (.cons (hR₂ _ _ hab) (.cons hcd .nil)) span).bind
      fun _ _ _ _ => resultOf_mirrors

theorem inferUnary_mirrors {operand : NodeId} (symbol : String)
    (hoperand : Parallel M infer infer' operand) (span : Span) :
    Mirrors (Mirrored M) Renaming.rel R (inferUnary cx infer symbol operand span)
      (inferUnary cx' infer' symbol (M.place operand) span) := by
  refine (hoperand.mirrors R).bind fun R₁ _ a b hab => ?_
  by_cases haddress : symbol = "&"
  · simp only [if_pos haddress]
    refine (require_mirrors (decide_eq_decide.mpr (not_congr (R₁.eq_iff hab R₁.noValue)).symm)
      ?_ span).bind fun R₂ hR₂ _ _ _ => ?_
    · exact (textOf_mirrors hab).bind fun _ _ _ _ heq => .pure fun _ _ => by rw [heq]
    · exact onTable_mirrors (TypeTable.internPointer_mirrors (hR₂ _ _ hab)) _ span
  by_cases htarget : symbol = "*"
  · simp only [if_neg haddress, if_pos htarget]
    refine (formOf_mirrors hab).bind fun R₂ hR₂ f g hform => ?_
    rcases optionRel_cases hform.base? with ⟨hf, hg⟩ | ⟨base, base', hf, hg, hbase⟩
    · simp only [hf, hg]
      exact reportText_mirrors .notPointer (hR₂ _ _ hab) span
    · simp only [hf, hg]
      exact .pure fun _ hR₃ => hR₃ _ _ hbase
  · simp only [if_neg haddress, if_neg htarget]
    exact (selectOperator_mirrors symbol (.cons hab .nil) span).bind fun _ _ _ _ => resultOf_mirrors

/-! ## Literals -/

theorem fieldIndex?_eq {fields fields' : List (String × TypeId)}
    (hfields : Forall₂ (Form.SameField R.rel) fields fields') (position : Nat)
    (name : Option String) :
    fieldIndex? fields' position name = fieldIndex? fields position name := by
  cases name with
  | none => rw [fieldIndex?, fieldIndex?, hfields.length_eq]
  | some name =>
    have hmap : ∀ fields : List (String × TypeId), fieldIndex? fields position (some name) =
        (fields.map (·.1)).findIdx? (· == name) := fun _ => by
      rw [List.findIdx?_map]
      rfl
    rw [hmap, hmap, Form.map_fst_of_sameFields hfields]

/-- Related members of a literal. -/
def SameMember (R : Renaming) (member member' : Option String × TypeId) : Prop :=
  member.1 = member'.1 ∧ R.rel member.2 member'.2

/-- The first flaw of a struct literal is the same. -/
theorem structFlaw?_rel {fields fields' : List (String × TypeId)}
    (hfields : Forall₂ (Form.SameField R.rel) fields fields')
    {members members' : List (Option String × TypeId)}
    (hmembers : Forall₂ (SameMember R) members members') (position : Nat) (given : List Nat) :
    Option.Rel (fun x y => x.1 = y.1 ∧ MemberFlaw.Renames R x.2 y.2)
      (structFlaw? fields position given members)
      (structFlaw? fields' position given members') := by
  induction hmembers generalizing position given with
  | nil => exact .none
  | @cons member member' _ _ hmember _ ih =>
    obtain ⟨name, found⟩ := member
    obtain ⟨name', found'⟩ := member'
    obtain ⟨rfl, hfound⟩ : name = name' ∧ R.rel found found' := hmember
    simp only [structFlaw?, fieldIndex?_eq hfields]
    cases fieldIndex? fields position name with
    | none =>
      cases name with
      | none => exact .some ⟨rfl, .tooMany⟩
      | some name => exact .some ⟨rfl, .unknownField name⟩
    | some i =>
      rcases optionRel_cases (forall₂_getElem? hfields i) with
        ⟨hx, hy⟩ | ⟨⟨field, expected⟩, ⟨field', expected'⟩, hx, hy, hfield⟩
      · simp only [hx, hy]
        exact .some ⟨rfl, .tooMany⟩
      · obtain ⟨rfl, hexpected⟩ : field = field' ∧ R.rel expected expected' := hfield
        simp only [hx, hy]
        split
        · exact .some ⟨rfl, .repeated field⟩
        · simp only [Ne, R.eq_iff hexpected hfound]
          split
          · exact .some ⟨rfl, .mismatch field hexpected hfound⟩
          · exact ih (position + 1) (i :: given)

/-- The first flaw of a slice literal is the same. -/
theorem sliceFlaw?_rel {element element' : TypeId} (helement : R.rel element element')
    {members members' : List (Option String × TypeId)}
    (hmembers : Forall₂ (SameMember R) members members') (position : Nat) :
    Option.Rel (fun x y => x.1 = y.1 ∧ MemberFlaw.Renames R x.2 y.2)
      (sliceFlaw? element position members) (sliceFlaw? element' position members') := by
  induction hmembers generalizing position with
  | nil => exact .none
  | @cons member member' _ _ hmember _ ih =>
    obtain ⟨name, found⟩ := member
    obtain ⟨name', found'⟩ := member'
    obtain ⟨rfl, hfound⟩ : name = name' ∧ R.rel found found' := hmember
    cases name with
    | some name => exact .some ⟨rfl, .unknownField name⟩
    | none =>
      simp only [sliceFlaw?, Ne, R.eq_iff hfound helement]
      split
      · exact .some ⟨rfl, .mismatch _ helement hfound⟩
      · exact ih (position + 1)

/-- The members of the copy of a literal. -/
def Copy.members (M : Copy cx cx') (members : Members) : Members :=
  members.map fun member => (member.1, M.place member.2)

theorem reportFlaw_mirrors {α β : Type} {Q : Renaming → α → β → Prop} {members : Members}
    (hmembers : ∀ member ∈ members, M.copied member.2) (hab : R.rel a b) (fieldCount : Nat)
    (position : Nat) {flaw flaw' : MemberFlaw} (hflaw : MemberFlaw.Renames R flaw flaw')
    (span : Span) :
    Mirrors (Mirrored M) Q R (reportFlaw cx a fieldCount members position flaw span)
      (reportFlaw cx' b fieldCount (M.members members) position flaw' span) := by
  unfold reportFlaw Copy.members
  rw [List.getElem?_map]
  cases hmember : members[position]? with
  | none => exact .fault _ _
  | some member =>
    refine (nodeOf_mirrors (hmembers member (List.mem_of_getElem? hmember))).bind
      fun R₁ hR₁ node node' hnode => ?_
    rw [hnode.2]
    have hab₁ := hR₁ _ _ hab
    cases hflaw with
    | unknownField name => exact reportText_mirrors (.unknownField · name) hab₁ node.span
    | tooMany =>
      rw [List.length_map]
      exact reportText_mirrors (.arityMismatch · fieldCount members.length) hab₁ span
    | repeated field => exact reportText_mirrors (.duplicateField · field) hab₁ node.span
    | mismatch field hexpected hfound =>
      refine (textOf_mirrors (hR₁ _ _ hexpected)).bind fun R₂ hR₂ _ _ heq => ?_
      subst heq
      exact reportText_mirrors (.memberMismatch field _) (hR₂ _ _ (hR₁ _ _ hfound)) node.span

theorem inferTyped_mirrors (type : TypeExpr) {members : Members}
    (hmembers : ∀ member ∈ members, M.copied member.2) (htypes : Forall₂ R.rel types types')
    (span : Span) :
    Mirrors (Mirrored M) Renaming.rel R (inferTyped cx type members types span)
      (inferTyped cx' type (M.members members) types' span) := by
  refine (resolveConcrete_mirrors type span).bind fun R₁ hR₁ a b hab => ?_
  refine (formOf_mirrors hab).bind fun R₂ hR₂ f g hform => ?_
  have hab₂ := hR₂ _ _ hab
  have hnames : (M.members members).map (·.1) = members.map (·.1) := by simp [Copy.members]
  have hgiven := forall₂_zip_left (members.map (·.1)) (htypes.imp (hR₁.trans hR₂))
  rw [hnames]
  rcases optionRel_cases hform.fields? with ⟨hf, hg⟩ | ⟨fields, fields', hf, hg, hfields⟩
  · rcases optionRel_cases hform.element? with ⟨hx, hy⟩ | ⟨element, element', hx, hy, helement⟩
    · simp only [hf, hg, hx, hy]
      exact reportText_mirrors .notStruct hab₂ span
    · simp only [hf, hg, hx, hy]
      rcases optionRel_cases (sliceFlaw?_rel helement hgiven 0) with
        ⟨hp, hq⟩ | ⟨⟨position, flaw⟩, ⟨position', flaw'⟩, hp, hq, hflaw⟩
      · simp only [hp, hq]
        exact .pure fun _ hR₃ => hR₃ _ _ hab₂
      · obtain ⟨rfl, hflaw⟩ : position = position' ∧ MemberFlaw.Renames R₂ flaw flaw' := hflaw
        simp only [hp, hq]
        exact reportFlaw_mirrors hmembers hab₂ 0 position hflaw span
  · simp only [hf, hg]
    rcases optionRel_cases (structFlaw?_rel hfields hgiven 0 []) with
      ⟨hp, hq⟩ | ⟨⟨position, flaw⟩, ⟨position', flaw'⟩, hp, hq, hflaw⟩
    · simp only [hp, hq]
      exact .pure fun _ hR₃ => hR₃ _ _ hab₂
    · obtain ⟨rfl, hflaw⟩ : position = position' ∧ MemberFlaw.Renames R₂ flaw flaw' := hflaw
      simp only [hp, hq, ← hfields.length_eq]
      exact reportFlaw_mirrors hmembers hab₂ fields.length position hflaw span

theorem recordFields_mirrors {members : Members}
    (hmembers : ∀ member ∈ members, M.copied member.2) (htypes : Forall₂ R.rel types types')
    (position : Nat) :
    Mirrors (Mirrored M) (fun R => Forall₂ (Form.SameField R.rel)) R
      (recordFields cx position members types)
      (recordFields cx' position (M.members members) types') := by
  induction members generalizing R position types types' with
  | nil => exact .pure fun _ _ => .nil
  | cons member members ih =>
    obtain ⟨name, value⟩ := member
    obtain ⟨hvalue, hrest⟩ := List.forall_mem_cons.mp hmembers
    cases htypes with
    | nil => exact .pure fun _ _ => .nil
    | @cons type type' _ _ htype htypes =>
      change Mirrors _ _ _ (recordFields cx position ((name, value) :: members) _)
        (recordFields cx' position ((name, M.place value) :: M.members members) _)
      rw [recordFields, recordFields]
      by_cases hnone : type = .noValue
      · rw [if_pos hnone, if_pos ((R.eq_iff htype R.noValue).mp hnone)]
        refine (nodeOf_mirrors hvalue).bind fun _ _ node node' hnode => ?_
        rw [hnode.2]
        exact report_mirrors _ node.span
      · rw [if_neg hnone, if_neg fun heq => hnone ((R.eq_iff htype R.noValue).mpr heq)]
        exact (ih hrest htypes (position + 1)).bind fun _ hR₁ _ _ hfields =>
          .pure fun _ hR₂ => .cons ⟨rfl, hR₂ _ _ (hR₁ _ _ htype)⟩
            (hfields.imp fun _ _ hfield => ⟨hfield.1, hR₂ _ _ hfield.2⟩)

theorem inferLiteral_mirrors (type : Option TypeExpr) {members : Members}
    (hmembers : ∀ member ∈ members, Parallel M infer infer' member.2) (span : Span) :
    Mirrors (Mirrored M) Renaming.rel R (inferLiteral cx infer type members span)
      (inferLiteral cx' infer' type (M.members members) span) := by
  have hcopied : ∀ member ∈ members, M.copied member.2 := fun member hmember =>
    (hmembers member hmember).copied
  have hvalues : (M.members members).map (·.2) = (members.map (·.2)).map M.place := by
    simp [Copy.members]
  unfold inferLiteral
  rw [hvalues]
  refine (inferAll_mirrors ?_).bind fun R₁ _ types types' htypes => ?_
  · intro id hid
    obtain ⟨member, hmember, rfl⟩ := List.mem_map.mp hid
    exact hmembers member hmember
  cases type with
  | some type => exact inferTyped_mirrors type hcopied htypes span
  | none =>
    exact (recordFields_mirrors hcopied htypes 0).bind fun _ _ _ _ hfields =>
      onTable_mirrors (TypeTable.internRecord_mirrors hfields) _ span

/-! ## Blocks, branches, loops and jumps -/

theorem inferStatements_mirrors (h : ∀ n ∈ ids, Parallel M infer infer' n) (hab : R.rel a b) :
    Mirrors (Mirrored M) Renaming.rel R (inferStatements cx infer a ids)
      (inferStatements cx' infer' b (ids.map M.place)) := by
  induction ids generalizing R a b with
  | nil => exact .pure fun _ hR => hR _ _ hab
  | cons id ids ih =>
    obtain ⟨hid, hids⟩ := List.forall_mem_cons.mp h
    refine (hid.mirrors R).bind fun R₁ _ c d hcd => ?_
    refine (nodeOf_mirrors hid.copied).bind fun R₂ hR₂ node node' hnode => ih hids ?_
    obtain ⟨-, rfl⟩ := hnode
    change R₂.rel _ (if (node.kind.rename M.place).isDefinition ||
      (node.kind.rename M.place).isJump then _ else _)
    rw [NodeKind.isDefinition_rename, NodeKind.isJump_rename]
    split
    · exact R₂.noValue
    · exact hR₂ _ _ hcd

theorem inferBlock_mirrors (h : ∀ n ∈ ids, Parallel M infer infer' n) :
    Mirrors (Mirrored M) Renaming.rel R (inferBlock cx infer ids)
      (inferBlock cx' infer' (ids.map M.place)) :=
  (openFrame_mirrors .block).bind fun R₁ _ _ _ _ =>
    (inferStatements_mirrors h R₁.noValue).bind fun _ _ _ _ hab =>
      closeFrame_mirrors.bind fun _ hR _ _ _ => .pure fun _ hR' => hR' _ _ (hR _ _ hab)

theorem inferCondition_mirrors (h : Parallel M infer infer' condition) :
    Mirrors (Mirrored M) (fun _ _ _ => True) R (inferCondition cx infer condition)
      (inferCondition cx' infer' (M.place condition)) := by
  refine (h.mirrors R).bind fun R₁ _ a b hab => ?_
  refine (nodeOf_mirrors h.copied).bind fun R₂ hR₂ node node' hnode => ?_
  rw [hnode.2]
  exact requireTruth_mirrors (hR₂ _ _ hab) node.span

theorem inferBranch_mirrors {thenArm : NodeId} {elseArm : Option NodeId}
    (hcondition : Parallel M infer infer' condition) (hthen : Parallel M infer infer' thenArm)
    (helse : ∀ n ∈ elseArm, Parallel M infer infer' n) (span : Span) :
    Mirrors (Mirrored M) Renaming.rel R (inferBranch cx infer condition thenArm elseArm span)
      (inferBranch cx' infer' (M.place condition) (M.place thenArm) (elseArm.map M.place)
        span) := by
  refine (inferCondition_mirrors hcondition).bind fun R₁ _ _ _ _ => ?_
  refine (hthen.mirrors R₁).bind fun R₂ _ a b hab => ?_
  cases elseArm with
  | none => exact .pure fun R _ => R.noValue
  | some elseArm =>
    refine ((helse elseArm rfl).mirrors R₂).bind fun R₃ hR₃ c d hcd => ?_
    have hab₃ := hR₃ _ _ hab
    exact (require_mirrors (decide_eq_decide.mpr (R₃.eq_iff hab₃ hcd).symm)
      (twoTexts_mirrors .branchMismatch hab₃ hcd) span).bind fun _ hR₄ _ _ _ =>
        .pure fun _ hR₅ => hR₅ _ _ (hR₄ _ _ hab₃)

theorem inferOptional_mirrors {part : Option NodeId}
    (h : ∀ n ∈ part, Parallel M infer infer' n) :
    Mirrors (Mirrored M) Renaming.rel R (inferOptional infer part)
      (inferOptional infer' (part.map M.place)) := by
  cases part with
  | none => exact .pure fun R _ => R.noValue
  | some id => exact (h id rfl).mirrors R

theorem inferLoop_mirrors {start : Option NodeId} {body : NodeId}
    (hstart : ∀ n ∈ start, Parallel M infer infer' n)
    (hcondition : Parallel M infer infer' condition) (hbody : Parallel M infer infer' body) :
    Mirrors (Mirrored M) Renaming.rel R (inferLoop cx infer start condition body)
      (inferLoop cx' infer' (start.map M.place) (M.place condition) (M.place body)) :=
  (openFrame_mirrors .loop).bind fun _ _ _ _ _ => (inferOptional_mirrors hstart).bind
    fun _ _ _ _ _ => (inferCondition_mirrors hcondition).bind fun R₃ _ _ _ _ =>
      (hbody.mirrors R₃).bind fun _ _ _ _ _ => closeFrame_mirrors.bind fun _ _ _ _ _ =>
        .pure fun R _ => R.noValue

theorem inferJump_mirrors (kind : Jump) {value : Option NodeId}
    (h : ∀ n ∈ value, Parallel M infer infer' n) (span : Span) :
    Mirrors (Mirrored M) Renaming.rel R (inferJump infer kind value span)
      (inferJump infer' kind (value.map M.place) span) := by
  have hloop : Mirrors (Mirrored M) Renaming.rel R
      (do
        require (← get).scope.inLoop (pure (.misplacedJump kind.keyword)) span
        let _ ← inferOptional infer value
        return TypeId.noValue)
      (do
        require (← get).scope.inLoop (pure (.misplacedJump kind.keyword)) span
        let _ ← inferOptional infer' (value.map M.place)
        return TypeId.noValue) :=
    .get_bind fun _ _ _ _ hs => (require_mirrors hs.scope.inLoop (.pure fun _ _ => rfl) span).bind
      fun _ _ _ _ _ => (inferOptional_mirrors h).bind fun _ _ _ _ _ => .pure fun R _ => R.noValue
  cases kind with
  | afterLoop => exact hloop
  | nextRound => exact hloop
  | toCaller =>
    refine .get_bind fun R₁ _ s s' hs => ?_
    rcases optionRel_cases hs.scope.enclosingResult? with ⟨hx, hy⟩ | ⟨a, b, hx, hy, hab⟩
    · simp only [hx, hy]
      exact report_mirrors _ span
    · simp only [hx, hy]
      refine (inferOptional_mirrors h).bind fun R₂ hR₂ c d hcd => ?_
      exact (require_mirrors (decide_eq_decide.mpr (R₂.eq_iff hcd (hR₂ _ _ hab)).symm)
        (twoTexts_mirrors .resultMismatch (hR₂ _ _ hab) hcd) span).bind fun _ _ _ _ _ =>
          .pure fun R _ => R.noValue

/-! ## Any node -/

theorem inferVariable_mirrors {start : NodeId} (hn : M.shared n) (name : String)
    (type : TypeExpr) (hstart : Parallel M infer infer' start) (span : Span) :
    Mirrors (Mirrored M) Renaming.rel R (inferVariable infer n name type start span)
      (inferVariable infer' (M.place n) name type (M.place start) span) := by
  simp only [inferVariable_eq]
  refine (resolve_mirrors type span).bind fun R₁ _ a b hab => ?_
  have hauto := R₁.eq_iff hab R₁.auto
  have hmark : Mirrors (Mirrored M) (fun _ _ _ => True) R₁ (markVariable n a)
      (markVariable (M.place n) b) := by
    unfold markVariable
    simp only [hauto]
    split
    · exact annotateProvisional_mirrors hn
    · exact .pure fun _ _ => trivial
  refine hmark.bind fun R₂ hR₂ _ _ _ => (hstart.mirrors R₂).bind fun R₃ hR₃ c d hcd => ?_
  refine (require_mirrors (decide_eq_decide.mpr (not_congr (R₃.eq_iff hcd R₃.noValue)).symm)
    (.pure fun _ _ => rfl) span).bind fun R₄ hR₄ _ _ _ => ?_
  have hab₄ := hR₄ _ _ (hR₃ _ _ (hR₂ _ _ hab))
  have hcd₄ := hR₄ _ _ hcd
  refine (require_mirrors (decide_eq_decide.mpr (or_congr hauto (R₄.eq_iff hcd₄ hab₄)).symm)
    (twoTexts_mirrors (.declarationMismatch name) hab₄ hcd₄) span).bind fun R₅ hR₅ _ _ _ => ?_
  have hcd₅ := hR₅ _ _ hcd₄
  exact (bindName_mirrors name hcd₅ .var span).bind fun _ hR₆ _ _ _ =>
    .pure fun _ hR₇ => hR₇ _ _ (hR₆ _ _ hcd₅)

/-- The rule for a node is followed by the rule for its copy. -/
theorem inferNode_mirrors (hn : M.shared n) (node : Node)
    (hparts : ∀ part ∈ node.kind.children, Parallel M infer infer' part)
    (hdeeper : ∀ part ∈ node.kind.children, ∀ base, cx.arena.IsChild part base →
      Parallel M infer infer' base) :
    Mirrors (Mirrored M) Renaming.rel R (inferNode cx infer n node)
      (inferNode cx' infer' (M.place n) (node.rename M.place)) := by
  obtain ⟨kind, span⟩ := node
  simp only at hparts hdeeper
  cases kind with
  | identifier name => exact inferIdentifier_mirrors name span
  | number => exact .of_states fun _ _ _ _ hs => .pure fun _ hR => hR _ _ hs.builtin.number
  | string => exact .of_states fun _ _ _ _ hs => .pure fun _ hR => hR _ _ hs.builtin.string
  | member base field =>
    exact inferMember_mirrors (hparts base (by simp [NodeKind.children])) field span
  | index base position =>
    exact inferIndex_mirrors (hparts base (by simp [NodeKind.children]))
      (hparts position (by simp [NodeKind.children]))
  | call callee args =>
    obtain ⟨hcallee, hargs⟩ := List.forall_mem_cons.mp hparts
    exact inferCall_mirrors hcallee (hdeeper callee (List.mem_cons_self ..)) hargs
  | binary symbol left right =>
    exact inferBinary_mirrors symbol (hparts left (by simp [NodeKind.children]))
      (hparts right (by simp [NodeKind.children])) span
  | unary symbol operand =>
    exact inferUnary_mirrors symbol (hparts operand (by simp [NodeKind.children])) span
  | assign target value =>
    exact inferAssign_mirrors (hparts target (by simp [NodeKind.children]))
      (hparts value (by simp [NodeKind.children])) span
  | literal type members =>
    exact inferLiteral_mirrors type (fun member hmember =>
      hparts member.2 (List.mem_map_of_mem hmember)) span
  | branch condition thenArm elseArm =>
    exact inferBranch_mirrors (hparts condition (by simp [NodeKind.children]))
      (hparts thenArm (by simp [NodeKind.children]))
      (fun n hn => hparts n (by simp_all [NodeKind.children])) span
  | loop start condition body =>
    exact inferLoop_mirrors (fun n hn => hparts n (by simp_all [NodeKind.children]))
      (hparts condition (by simp [NodeKind.children])) (hparts body (by simp [NodeKind.children]))
  | block statements => exact inferBlock_mirrors hparts
  | jump kind value =>
    exact inferJump_mirrors kind (fun n hn => hparts n (by simp_all [NodeKind.children])) span
  | var name type start =>
    exact inferVariable_mirrors hn name type (hparts start (by simp [NodeKind.children])) span
  | function => exact report_mirrors _ span
  | foreign => exact report_mirrors _ span
  | struct => exact report_mirrors _ span

/-- **The inference of a node is followed by the inference of its copy.** The induction is on the
depth of the first; the second needs only as much as its code is deep. -/
theorem inferAt_mirrors (depth : Nat) : ∀ {depth' : Nat} {n : NodeId}, M.copied n →
    cx'.arena.Fits depth' (M.place n) → Parallel M (inferAt cx depth) (inferAt cx' depth') n := by
  induction depth with
  | zero => exact fun hn _ => ⟨hn, fun R => .fault _ _⟩
  | succ depth ih =>
    intro depth' n hn hfits
    refine ⟨hn, fun R => ?_⟩
    cases depth' with
    | zero => cases hfits
    | succ depth' =>
      have hshared := M.shared_of_copied n hn
      refine (nodeOf_mirrors hn).bind fun R₁ _ node node' hnode => ?_
      obtain ⟨hnode, rfl⟩ := hnode
      have hfitsPart : ∀ part ∈ node.kind.children, cx'.arena.Fits depth' (M.place part) :=
        fun part hpart => hfits.part (M.isChild hn ⟨node, hnode, hpart⟩)
      have hpart : ∀ part ∈ node.kind.children, M.copied part :=
        fun part hpart => M.part n part hn ⟨node, hnode, hpart⟩
      refine (inferNode_mirrors hshared node (fun part hmem => ih (hpart part hmem)
        (hfitsPart part hmem)) fun part hmem base hbase => ?_).bind fun R₂ _ a b hab => ?_
      · exact ih (M.part part base (hpart part hmem) hbase)
          ((hfitsPart part hmem).of_isChild (M.isChild (hpart part hmem) hbase))
      · exact (annotate_mirrors hshared hab).bind fun _ hR₃ _ _ _ =>
          .pure fun _ hR₄ => hR₄ _ _ (hR₃ _ _ hab)

end Check

end RuleTypes
