import RuleTypes.Proofs.Check.Sane

/-!
# Inference meets no fault

A rule looks at the parts of its node one after another. In rule code shaped as a forest the parts
lie apart, so the parts still to come are untouched when it is their turn (`Awaits`), and every type
found on the way is one that can be read. So no rule meets a fault, if the inference of the parts
meets none (`Copes`). By induction on the depth, the inference of a node meets no fault when it may
go as deep as the ways down from the node (`inferAt_copes`).
-/

namespace RuleTypes.Check

open TypeTable

variable {β : Type} {cx : Setting} {depth : Nat} {infer : Infer} {s s' : State} {span : Span}
  {id : NodeId} {node : Node} {type : TypeId} {ids : List NodeId} {types : List TypeId}

/-! ## Parts one after another -/

/-- The inference of nodes that fit the depth. It meets no fault if they have no types yet. -/
structure Copes (cx : Setting) (depth : Nat) (infer : Infer) : Prop where
  reveals : Reveals .known [] cx infer
  later : ∀ id, Moves (Later (cx.arena.Below id)) (infer id)
  binds : ∀ id, Goes (Binds fun _ _ => True) (Abandons fun _ _ => True) (infer id)
  safe : ∀ {id s}, cx.arena.Fits depth id → Sane cx s → Fresh cx s id → Safe (infer id) s

/-- Nodes are still to be looked at, and types are at hand: the nodes fit the depth, lie apart and
have no types yet, and the types are known. -/
structure Awaits (cx : Setting) (depth : Nat) (ids : List NodeId) (types : List TypeId)
    (s : State) : Prop where
  sane : Sane cx s
  fits : ∀ id ∈ ids, cx.arena.Fits depth id
  fresh : ∀ id ∈ ids, Fresh cx s id
  apart : ids.Pairwise fun a b => ∀ x, cx.arena.Below a x → ¬ cx.arena.Below b x
  known : ∀ type ∈ types, s.table.Known type

namespace Awaits

/-- The parts of a node that has no type yet. -/
theorem parts (hforest : cx.arena.IsForest) (hs : Sane cx s) (hfits : cx.arena.Fits (depth + 1) id)
    (hfresh : Fresh cx s id) (hnode : cx.arena.node? id = some node) :
    Awaits cx depth node.kind.children [] s where
  sane := hs
  fits _ hchild := hfits.part ⟨node, hnode, hchild⟩
  fresh _ hchild := hfresh.part ⟨node, hnode, hchild⟩
  apart := (hforest.once id node hnode).imp_of_mem fun ha hb hne _ hx =>
    hforest.not_below_of_sibling ⟨node, hnode, ha⟩ ⟨node, hnode, hb⟩ hne hx
  known := by simp

theorem head (h : Awaits cx depth ids (type :: types) s) : s.table.Known type :=
  h.known type (List.mem_cons_self ..)

theorem exists_node (h : Awaits cx depth ids types s) (hid : id ∈ ids) :
    ∃ node, cx.arena.node? id = some node := (h.fits id hid).exists_node

theorem perm {ids' : List NodeId} (h : Awaits cx depth ids types s) (hperm : ids.Perm ids') :
    Awaits cx depth ids' types s where
  sane := h.sane
  fits id hid := h.fits id (hperm.mem_iff.mpr hid)
  fresh id hid := h.fresh id (hperm.mem_iff.mpr hid)
  apart := (hperm.pairwise_iff fun hab x hb ha => hab x ha hb).mp h.apart
  known := h.known

theorem withTypes {types' : List TypeId} (h : Awaits cx depth ids types s)
    (htypes : ∀ type ∈ types', s.table.Known type) : Awaits cx depth ids types' s :=
  { h with known := htypes }

theorem cons (h : Awaits cx depth ids types s) (htype : s.table.Known type) :
    Awaits cx depth ids (type :: types) s :=
  h.withTypes (List.forall_mem_cons.mpr ⟨htype, h.known⟩)

/-- Steps that keep away from the nodes change nothing about them. -/
theorem later {N : NodeId → Prop} (h : Awaits cx depth ids types s)
    (hknows : Knows .known [] cx s') (hlater : Later N s s')
    (hapart : ∀ id ∈ ids, ∀ x, cx.arena.Below id x → ¬ N x) : Awaits cx depth ids types s' where
  sane := h.sane.later hknows hlater
  fits := h.fits
  fresh id hid := (h.fresh id hid).keeps (hlater.keeps (hapart id hid))
  apart := h.apart
  known type htype := (h.known type htype).extends hlater.table

theorem opened {kind : FrameKind} (h : Awaits cx depth ids types s)
    (hglobal : kind ≠ .global) (hresult : ∀ result, kind ≠ .function result) :
    Awaits cx depth ids types (s.opened kind) :=
  h.later (N := fun _ => False)
    (h.sane.knows.push (if_neg hglobal) fun result heq => absurd heq (hresult result))
    (.of_scope s _) fun _ _ _ _ => not_false

theorem extended (h : Awaits cx depth ids types s) (hextended : Extended s s') :
    Awaits cx depth ids types s' := by
  obtain ⟨table, hextends, rfl⟩ := hextended
  exact h.later (N := fun _ => False) (h.sane.knows.withTable fun _ hid => hid.extends hextends)
    (.of_table hextends) fun _ _ _ _ => not_false

end Awaits

namespace Copes

theorem first (h : Copes cx depth infer) (hs : Awaits cx depth (id :: ids) types s) :
    Safe (infer id) s :=
  h.safe (hs.fits id (List.mem_cons_self ..)) hs.sane (hs.fresh id (List.mem_cons_self ..))

/-- Looking at the first node leaves the others to be looked at. -/
theorem next (h : Copes cx depth infer) (hs : Awaits cx depth (id :: ids) types s)
    (hok : infer id s = .ok type s') : Awaits cx depth ids (type :: types) s' := by
  have hlater := (h.later id).ok hok
  have hs' : Awaits cx depth ids types s' :=
    Awaits.later (N := cx.arena.Below id)
      { hs with
        fits := fun i hi => hs.fits i (List.mem_cons_of_mem _ hi)
        fresh := fun i hi => hs.fresh i (List.mem_cons_of_mem _ hi)
        apart := (List.pairwise_cons.mp hs.apart).2 }
      ((h.reveals.carries id).ok hok hs.sane.knows) hlater
      fun i hi x hix hx => (List.pairwise_cons.mp hs.apart).1 i hi x hx hix
  exact hs'.cons (h.reveals.clear hs.sane.knows hok)

theorem bind (h : Copes cx depth infer) (hs : Awaits cx depth (id :: ids) types s)
    {f : TypeId → Check β}
    (hf : ∀ type s', Awaits cx depth ids (type :: types) s' → Safe (f type) s') :
    Safe (infer id >>= f) s :=
  .bind (h.first hs) fun type s' hok => hf type s' (h.next hs hok)

theorem all (h : Copes cx depth infer) {parts : List NodeId}
    (hs : Awaits cx depth (parts ++ ids) types s) {f : List TypeId → Check β}
    (hf : ∀ found s', found.length = parts.length → Awaits cx depth ids (found ++ types) s' →
      Safe (f found) s') : Safe (inferAll infer parts >>= f) s := by
  induction parts generalizing s types f with
  | nil => exact hf [] s rfl hs
  | cons part parts ih =>
    unfold inferAll
    rw [bind_assoc]
    refine h.bind hs fun type s₁ hs₁ => ?_
    rw [bind_assoc]
    refine ih hs₁ fun found s₂ hlength hs₂ => ?_
    rw [pure_bind]
    refine hf _ s₂ (by simp [hlength]) (hs₂.withTypes fun other hother => hs₂.known other ?_)
    simp only [List.cons_append, List.mem_cons, List.mem_append] at hother ⊢
    tauto

theorem optional (h : Copes cx depth infer) {part : Option NodeId}
    (hs : Awaits cx depth (part.toList ++ ids) types s) {f : TypeId → Check β}
    (hf : ∀ type s', Awaits cx depth ids (type :: types) s' → Safe (f type) s') :
    Safe (inferOptional infer part >>= f) s := by
  cases part with
  | none => exact hf .noValue s (hs.cons hs.sane.knows.sources.noValue)
  | some id => exact h.bind hs hf

theorem condition (h : Copes cx depth infer) (hs : Awaits cx depth (id :: ids) types s)
    {f : Unit → Check β} (hf : ∀ s', Awaits cx depth ids types s' → Safe (f ()) s') :
    Safe (inferCondition cx infer id >>= f) s := by
  obtain ⟨node, hnode⟩ := hs.exists_node (List.mem_cons_self ..)
  unfold inferCondition requireTruth
  rw [bind_assoc]
  refine h.bind hs fun type s₁ hs₁ => ?_
  rw [bind_assoc]
  refine .step (nodeOf_ok hnode s₁) (.read (requireFit_moves _ _ _ _ _) ?_ fun _ _ => ?_)
  · exact hs₁.sane.requireFit_safe hs₁.sane.knows.builtin.truth hs₁.head _ _ _
  · exact hf s₁ (hs₁.withTypes fun other hother =>
      hs₁.known other (List.mem_cons_of_mem _ hother))

/-! ## Places -/

theorem inferMember (h : Copes cx depth infer) {base : NodeId}
    (hs : Awaits cx depth [base] types s) (field : String) (span : Span) :
    Safe (inferMember infer base field span) s := by
  refine h.bind hs fun baseType s₁ hs₁ => ?_
  obtain ⟨found, hfound, howner⟩ := hs₁.head.exists_structOf
  refine .step (inspect_eq_ok.mpr ⟨hfound, rfl⟩) ?_
  rcases found with _ | ⟨owner, fields⟩
  · exact hs₁.sane.reportText_safe hs₁.head _ _
  · dsimp only
    split
    · exact .pure _
    · exact hs₁.sane.reportText_safe (howner owner fields rfl) _ _

theorem inferIndex (h : Copes cx depth infer) {base position : NodeId}
    (hs : Awaits cx depth [base, position] types s) :
    Safe (inferIndex cx infer base position) s := by
  obtain ⟨baseNode, hbaseNode⟩ := hs.exists_node (List.mem_cons_self ..)
  obtain ⟨positionNode, hpositionNode⟩ :=
    hs.exists_node (List.mem_cons_of_mem _ (List.mem_cons_self ..))
  refine h.bind hs fun baseType s₁ hs₁ => ?_
  obtain ⟨form, hform⟩ := exists_form?_of_lt hs₁.head.issued
  refine .step (formOf_ok hform) ?_
  split
  · exact .read (textOf_moves _) (hs₁.sane.textOf_safe hs₁.head) fun _ _ =>
      .step (nodeOf_ok hbaseNode s₁) (.throw _)
  · refine h.bind hs₁ fun found s₂ hs₂ => .step (nodeOf_ok hpositionNode s₂) ?_
    exact .bind (hs₂.sane.requireFit_safe hs₂.sane.knows.builtin.number hs₂.head _ _ _)
      fun _ _ _ => .pure _

theorem inferAssign (h : Copes cx depth infer) {target value : NodeId}
    (hs : Awaits cx depth [target, value] types s) (span : Span) :
    Safe (inferAssign cx infer target value span) s := by
  obtain ⟨targetNode, htargetNode⟩ := hs.exists_node (List.mem_cons_self ..)
  refine .step (nodeOf_ok htargetNode s) ?_
  refine .read (isAssignable_moves _) (isAssignable_safe _) fun assignable _ => ?_
  refine .read (require_moves _ (.pure _) _) (require_safe _ _ _) fun _ _ => ?_
  refine h.bind hs fun targetType s₁ hs₁ => h.bind hs₁ fun valueType s₂ hs₂ => ?_
  have htarget := hs₂.known targetType (List.mem_cons_of_mem _ (List.mem_cons_self ..))
  exact .bind (hs₂.sane.requireFit_safe htarget hs₂.head _ _ _) fun _ _ _ => .pure _

/-! ## Calls and operators -/

theorem inferBinary (h : Copes cx depth infer) {left right : NodeId}
    (hs : Awaits cx depth [left, right] [] s) (symbol : String) (span : Span) :
    Safe (inferBinary cx infer symbol left right span) s := by
  refine h.bind hs fun leftType s₁ hs₁ => h.bind hs₁ fun rightType s₂ hs₂ => ?_
  have hargs : ∀ arg ∈ [leftType, rightType], s₂.table.Known arg := fun arg harg =>
    hs₂.known arg (by simpa [or_comm] using harg)
  refine .read (selectOperator_moves _ _ _) (hs₂.sane.selectOperator_safe hargs symbol span) ?_
  exact fun signature hselect => resultOf_safe (selectOperator_eq_ok hselect).1

theorem inferUnary (h : Copes cx depth infer) {operand : NodeId}
    (hs : Awaits cx depth [operand] [] s) (symbol : String) (span : Span) :
    Safe (inferUnary cx infer symbol operand span) s := by
  refine h.bind hs fun type s₁ hs₁ => ?_
  split
  · refine .read (require_moves _ (.bind (textOf_moves _) fun _ => .pure _) _)
      (hs₁.sane.requireText_safe hs₁.head _ _ _) fun _ _ => ?_
    exact onTable_safe (internPointer_safe hs₁.head.issued) (internPointer_refuses _)
  · split
    · obtain ⟨form, hform⟩ := exists_form?_of_lt hs₁.head.issued
      refine .step (formOf_ok hform) ?_
      split
      · exact .pure _
      · exact hs₁.sane.reportText_safe hs₁.head _ _
    · refine .read (selectOperator_moves _ _ _)
        (hs₁.sane.selectOperator_safe hs₁.known symbol span) ?_
      exact fun signature hselect => resultOf_safe (selectOperator_eq_ok hselect).1

theorem selectMember (h : Copes cx depth infer) {base : NodeId} {args : List TypeId}
    (hs : Awaits cx depth [base] args s) (name : String) (span : Span) :
    Safe (selectMember infer base name args span) s := by
  refine h.bind hs fun receiver s₁ hs₁ => ?_
  obtain ⟨found, hfound, howner⟩ := hs₁.head.exists_structOf
  refine .step (inspect_eq_ok.mpr ⟨hfound, rfl⟩) ?_
  have hselect : Safe (do
      let candidates := ((← get).members.get? name).getD []
      select name candidates (receiver :: args) span) s₁ :=
    .step rfl (hs₁.sane.select_safe (hs₁.sane.knows.members name) hs₁.known name span)
  rcases found with _ | ⟨owner, fields⟩
  · exact hselect
  · exact .read (require_moves _ (.bind (textOf_moves _) fun _ => .pure _) _)
      (hs₁.sane.requireText_safe (howner owner fields rfl) _ (fun text => .redefinition
        (text ++ "." ++ name)) _) fun _ _ => hselect

end Copes

/-- An argument that does not fit is one of the arguments. -/
theorem argumentFlaw?_eq_some {i j : Nat} {params args : List TypeId} {expected found : TypeId}
    (h : argumentFlaw? i params args = some (j, expected, found)) :
    j < i + args.length ∧ expected ∈ params ∧ found ∈ args := by
  induction params generalizing i args with
  | nil => cases h
  | cons param params ih =>
    cases args with
    | nil => cases h
    | cons arg args =>
      unfold argumentFlaw? at h
      split at h
      · obtain ⟨hj, hexpected, hfound⟩ := ih h
        refine ⟨?_, List.mem_cons_of_mem _ hexpected, List.mem_cons_of_mem _ hfound⟩
        rw [List.length_cons]
        omega
      · cases h
        exact ⟨by simp, List.mem_cons_self .., List.mem_cons_self ..⟩

theorem Sane.applyValue_safe (hs : Sane cx s) {calleeType : TypeId} {callee : NodeId}
    {args : List NodeId} {argTypes : List TypeId} (hcalleeType : s.table.Known calleeType)
    (hargTypes : ∀ type ∈ argTypes, s.table.Known type)
    (hcallee : cx.arena.node? callee = some node)
    (hargs : ∀ arg ∈ args, ∃ node, cx.arena.node? arg = some node)
    (hlength : argTypes.length = args.length) :
    Safe (applyValue cx calleeType callee args argTypes) s := by
  obtain ⟨form, hform⟩ := exists_form?_of_lt hcalleeType.issued
  refine .step (nodeOf_ok hcallee s) (.step (formOf_ok hform) ?_)
  split
  · exact hs.reportText_safe hcalleeType _ _
  · rename_i params result hsignature
    obtain rfl : form = .function params result := by cases form <;> cases hsignature; rfl
    refine .read (require_moves _ ?_ _) (require_safe_of ?_ _ _) fun _ _ => ?_
    · split
      · exact .bind (.pure _) fun _ => .pure _
      · exact .bind (textOf_moves _) fun _ => .pure _
    · split
      · exact .pure _
      · exact .read (textOf_moves _) (hs.textOf_safe hcalleeType) fun _ _ => .pure _
    · split
      · exact .pure _
      · rename_i i expected found hflaw
        obtain ⟨hi, hexpected, hfound⟩ := argumentFlaw?_eq_some hflaw
        have hparam := hcalleeType.component hform (List.mem_append_left _ hexpected)
        refine .read (textOf_moves _) (hs.textOf_safe hparam) fun _ _ => ?_
        refine .read (textOf_moves _) (hs.textOf_safe (hargTypes found hfound)) fun _ _ => ?_
        obtain ⟨arg, harg⟩ : ∃ arg, args[i]? = some arg :=
          ⟨_, List.getElem?_eq_getElem (by omega)⟩
        obtain ⟨argNode, hargNode⟩ := hargs arg (List.mem_of_getElem? harg)
        rw [harg]
        exact .step (nodeOf_ok hargNode s) (.throw _)

/-- A callee that is no value gets the signature that was selected. -/
theorem Sane.signCallee_safe (hs : Sane cx s) {callee : NodeId} {candidates args : List TypeId}
    {signature : TypeId} (hcallee : cx.arena.node? callee = some node)
    (hnone : s.annotations.get? callee = none)
    (hselects : s.table.Selects candidates args signature) :
    Safe (do annotate callee signature; resultOf signature) s := by
  refine .bind (hs.annotate_safe hcallee (.inl hnone) signature) fun _ s₁ hannotate => ?_
  obtain ⟨annotations, -, rfl⟩ := annotate_eq_ok.mp hannotate
  exact resultOf_safe hselects

theorem Copes.inferCall (h : Copes cx depth infer) (hforest : cx.arena.IsForest) {callee : NodeId}
    {args : List NodeId} (hs : Awaits cx depth (callee :: args) [] s) :
    Safe (inferCall cx infer callee args) s := by
  obtain ⟨calleeNode, hcalleeNode⟩ := hs.exists_node (List.mem_cons_self ..)
  -- the arguments come first
  refine h.all (hs.perm (List.perm_append_singleton callee args).symm) ?_
  intro argTypes s₁ hlength hs₁
  rw [List.append_nil] at hs₁
  have hnone : s₁.annotations.get? callee = none :=
    hs₁.fresh callee (List.mem_cons_self ..) callee (.refl callee)
  refine .step (nodeOf_ok hcalleeNode s₁) ?_
  refine .read (calleeOf_moves _) (calleeOf_safe _) fun way hway => ?_
  cases way with
  | operator symbol =>
    refine .read (selectOperator_moves _ _ _)
      (hs₁.sane.selectOperator_safe hs₁.known symbol _) fun signature hselect => ?_
    exact hs₁.sane.signCallee_safe hcalleeNode hnone (selectOperator_eq_ok hselect).1
  | member base name =>
    obtain ⟨hkind, -, -⟩ := calleeOf_eq_member hway
    have hbase : cx.arena.IsChild callee base :=
      ⟨calleeNode, hcalleeNode, by rw [hkind]; exact .head _⟩
    have hs₁' : Awaits cx depth [base] argTypes s₁ :=
      { hs₁ with
        fits := List.forall_mem_singleton.mpr
          ((hs₁.fits callee (List.mem_cons_self ..)).of_isChild hbase)
        fresh := List.forall_mem_singleton.mpr
          ((hs₁.fresh callee (List.mem_cons_self ..)).part hbase)
        apart := List.pairwise_singleton .. }
    refine .bind (h.selectMember hs₁' name _) fun signature s₂ hselect => ?_
    obtain ⟨receiver, hreceiver, hselects⟩ := selectMember_eq_ok hselect
    refine (h.next hs₁' hreceiver).sane.signCallee_safe hcalleeNode ?_ hselects
    rw [((h.later base).ok hreceiver).get?_eq (hforest.not_below_of_isChild hbase), hnone]
  | value =>
    refine h.bind hs₁ fun calleeType s₂ hs₂ => ?_
    exact hs₂.sane.applyValue_safe hs₂.head
      (fun type htype => hs₂.known type (List.mem_cons_of_mem _ htype)) hcalleeNode
      (fun arg harg => hs.exists_node (List.mem_cons_of_mem _ harg)) hlength

/-! ## Structs and slices written out -/

/-- The flaw is at the place of a member, from `position` on, and names only types of fields and
members. -/
structure FlawOf (types : List TypeId) (position : Nat) (members : List (Option String × TypeId))
    (place : Nat) (flaw : MemberFlaw) : Prop where
  place_lt : place < position + members.length
  types : ∀ field expected found, flaw = .mismatch field expected found →
    expected ∈ types ∧ found ∈ members.map (·.2)

theorem FlawOf.cons {position place : Nat} {member : Option String × TypeId}
    {members : List (Option String × TypeId)} {flaw : MemberFlaw}
    (h : FlawOf types (position + 1) members place flaw) :
    FlawOf types position (member :: members) place flaw where
  place_lt := by
    have := h.place_lt
    rw [List.length_cons]
    omega
  types field expected found hflaw :=
    (h.types field expected found hflaw).imp_right (List.mem_cons_of_mem _)

theorem flawOf_structFlaw? {fields : List (String × TypeId)} {position place : Nat}
    {given : List Nat} {members : List (Option String × TypeId)} {flaw : MemberFlaw}
    (h : structFlaw? fields position given members = some (place, flaw)) :
    FlawOf (fields.map (·.2)) position members place flaw := by
  induction members generalizing position given with
  | nil => cases h
  | cons member members ih =>
    obtain ⟨name, found⟩ := member
    have hplace : position < position + ((name, found) :: members).length := by simp
    unfold structFlaw? at h
    cases hindex : fieldIndex? fields position name with
    | none => cases name <;> rw [hindex] at h <;> cases h <;> exact ⟨hplace, by simp⟩
    | some k =>
      cases hfield : fields[k]? with
      | none =>
        simp only [hindex, hfield] at h
        cases h
        exact ⟨hplace, by simp⟩
      | some field =>
        obtain ⟨field, expected⟩ := field
        simp only [hindex, hfield] at h
        split at h
        · cases h
          exact ⟨hplace, by simp⟩
        · split at h
          · cases h
            refine ⟨hplace, fun field expected found hflaw => ?_⟩
            cases hflaw
            exact ⟨List.mem_map.mpr ⟨_, List.mem_of_getElem? hfield, rfl⟩, List.mem_cons_self ..⟩
          · exact (ih h).cons

theorem flawOf_sliceFlaw? {element : TypeId} {position place : Nat}
    {members : List (Option String × TypeId)} {flaw : MemberFlaw}
    (h : sliceFlaw? element position members = some (place, flaw)) :
    FlawOf [element] position members place flaw := by
  induction members generalizing position with
  | nil => cases h
  | cons member members ih =>
    obtain ⟨name, found⟩ := member
    have hplace : position < position + ((name, found) :: members).length := by simp
    cases name with
    | some name =>
      cases h
      exact ⟨hplace, by simp⟩
    | none =>
      unfold sliceFlaw? at h
      split at h
      · cases h
        refine ⟨hplace, fun field expected found hflaw => ?_⟩
        cases hflaw
        exact ⟨List.mem_singleton.mpr rfl, List.mem_cons_self ..⟩
      · exact (ih h).cons

/-- The flaw of a member can be reported. -/
theorem Sane.reportFlaw_safe (hs : Sane cx s) {owner : TypeId} {members : Members}
    {memberTypes : List TypeId} {place : Nat} {flaw : MemberFlaw}
    (howner : s.table.Known owner) (htypes : ∀ type ∈ types, s.table.Known type)
    (hmemberTypes : ∀ type ∈ memberTypes, s.table.Known type)
    (hmembers : ∀ value ∈ members.map (·.2), ∃ node, cx.arena.node? value = some node)
    (hflaw : FlawOf types 0 ((members.map (·.1)).zip memberTypes) place flaw)
    (fieldCount : Nat) (span : Span) :
    Safe (reportFlaw (α := β) cx owner fieldCount members place flaw span) s := by
  have hplace : place < members.length := by
    have := hflaw.place_lt
    rw [List.length_zip, List.length_map] at this
    omega
  obtain ⟨member, hmember⟩ : ∃ member, members[place]? = some member :=
    ⟨_, List.getElem?_eq_getElem hplace⟩
  obtain ⟨node, hnode⟩ := hmembers member.2
    (List.mem_map.mpr ⟨member, List.mem_of_getElem? hmember, rfl⟩)
  unfold reportFlaw
  rw [hmember]
  refine .step (nodeOf_ok hnode s) ?_
  cases flaw with
  | unknownField | tooMany | repeated => exact hs.reportText_safe howner _ _
  | mismatch field expected found =>
    obtain ⟨hexpected, hfound⟩ := hflaw.types field expected found rfl
    obtain ⟨⟨name, type⟩, hzip, rfl⟩ := List.mem_map.mp hfound
    refine .read (textOf_moves _) (hs.textOf_safe (htypes expected hexpected)) fun _ _ => ?_
    exact hs.reportText_safe (hmemberTypes type (List.of_mem_zip hzip).2) _ _

theorem Awaits.inferTyped_safe {members : Members} (hs : Awaits cx depth ids types s)
    (hmembers : ∀ value ∈ members.map (·.2), ∃ node, cx.arena.node? value = some node)
    (written : TypeExpr) (span : Span) : Safe (inferTyped cx written members types span) s := by
  refine .bind (resolveConcrete_safe hs.sane.grounded written span) fun owner s₁ hresolve => ?_
  have howner := resolveConcrete_clear hs.sane.knows hresolve
  have hs₁ := hs.extended ((resolveConcrete_extended _ _).ok hresolve)
  obtain ⟨form, hform⟩ := exists_form?_of_lt howner.issued
  refine .step (formOf_ok hform) ?_
  dsimp only
  split
  · rename_i fields hfields
    split
    · exact .pure _
    · rename_i place flaw hflaw
      have hknown : ∀ type ∈ fields.map (·.2), s₁.table.Known type := fun type htype =>
        howner.component hform (by cases form <;> cases hfields <;> exact htype)
      exact hs₁.sane.reportFlaw_safe howner hknown hs₁.known hmembers (flawOf_structFlaw? hflaw) _ _
  · rename_i element _ helement
    split
    · exact .pure _
    · rename_i place flaw hflaw
      have hknown := List.forall_mem_singleton.mpr (howner.element hform helement)
      exact hs₁.sane.reportFlaw_safe howner hknown hs₁.known hmembers (flawOf_sliceFlaw? hflaw) _ _
  · exact hs₁.sane.reportText_safe howner _ _

theorem recordFields_safe {members : Members}
    (hmembers : ∀ value ∈ members.map (·.2), ∃ node, cx.arena.node? value = some node)
    (position : Nat) (types : List TypeId) : Safe (recordFields cx position members types) s := by
  induction members generalizing position types with
  | nil => exact .pure _
  | cons member members ih =>
    obtain ⟨name, value⟩ := member
    obtain ⟨⟨node, hnode⟩, hmembers⟩ := List.forall_mem_cons.mp hmembers
    cases types with
    | nil => exact .pure _
    | cons type types =>
      simp only [recordFields]
      split
      · exact .step (nodeOf_ok hnode s) (.throw _)
      · exact .read (recordFields_moves _ _ _) (ih hmembers _ _) fun _ _ => .pure _

theorem Copes.inferLiteral (h : Copes cx depth infer) {members : Members}
    (hs : Awaits cx depth (members.map (·.2)) [] s) (written : Option TypeExpr) (span : Span) :
    Safe (inferLiteral cx infer written members span) s := by
  have hmembers : ∀ value ∈ members.map (·.2), ∃ node, cx.arena.node? value = some node :=
    fun value hvalue => hs.exists_node hvalue
  rw [← List.append_nil (members.map (·.2))] at hs
  refine h.all hs fun memberTypes s₁ _ hs₁ => ?_
  rw [List.append_nil] at hs₁
  cases written with
  | some written => exact hs₁.inferTyped_safe hmembers written span
  | none =>
    refine .read (recordFields_moves _ _ _) (recordFields_safe hmembers _ _) ?_
    intro fields hfields
    obtain ⟨rfl, -⟩ := recordFields_eq_ok hfields
    refine onTable_safe (internRecord_safe fun field hfield => ?_)
      ((internRecord_refuses _).mono fun _ hrefused => hrefused.1)
    exact (hs₁.known field.2 (List.of_mem_zip hfield).2).issued

/-! ## Blocks, branches, loops and jumps -/

namespace Copes

theorem inferStatements (h : Copes cx depth infer) (hs : Awaits cx depth ids types s)
    (last : TypeId) : Safe (inferStatements cx infer last ids) s := by
  induction ids generalizing s types last with
  | nil => exact .pure _
  | cons id ids ih =>
    obtain ⟨node, hnode⟩ := hs.exists_node (List.mem_cons_self ..)
    exact h.bind hs fun type s₁ hs₁ => .step (nodeOf_ok hnode s₁) (ih hs₁ _)

theorem inferBlock (h : Copes cx depth infer) (hs : Awaits cx depth ids types s) :
    Safe (inferBlock cx infer ids) s :=
  enclosed_safe (by simp) (fun type => type) (inferStatements_goes fun id _ => h.binds id)
    (h.inferStatements (hs.opened (by simp) (by simp)) _)

theorem inferBranch (h : Copes cx depth infer) {condition thenArm : NodeId}
    {elseArm : Option NodeId} (hs : Awaits cx depth (condition :: thenArm :: elseArm.toList) [] s)
    (span : Span) : Safe (inferBranch cx infer condition thenArm elseArm span) s := by
  refine h.condition hs fun s₁ hs₁ => h.bind hs₁ fun thenType s₂ hs₂ => ?_
  cases elseArm with
  | none => exact .pure _
  | some elseArm =>
    refine h.bind hs₂ fun elseType s₃ hs₃ => ?_
    have hthen := hs₃.known thenType (List.mem_cons_of_mem _ (List.mem_cons_self ..))
    exact .bind (hs₃.sane.requireFit_safe hthen hs₃.head _ _ _) fun _ _ _ => .pure _

theorem inferLoop (h : Copes cx depth infer) {start : Option NodeId} {condition body : NodeId}
    (hs : Awaits cx depth (start.toList ++ [condition, body]) [] s) :
    Safe (inferLoop cx infer start condition body) s := by
  rw [inferLoop_eq]
  refine enclosed_safe (by simp) (fun _ => .noValue) (.bind (inferOptional_goes fun id _ =>
    h.binds id) fun _ => .bind (inferCondition_goes (h.binds condition)) fun _ => h.binds body) ?_
  refine h.optional (hs.opened (by simp) (by simp)) fun _ s₁ hs₁ => h.condition hs₁ fun s₂ hs₂ => ?_
  exact h.first hs₂

theorem inferJump (h : Copes cx depth infer) {value : Option NodeId}
    (hs : Awaits cx depth value.toList [] s) (kind : Jump) (span : Span) :
    Safe (inferJump infer kind value span) s := by
  rw [← List.append_nil value.toList] at hs
  cases kind with
  | toCaller =>
    refine .step rfl ?_
    split
    · exact .throw _
    · rename_i expected hexpected
      obtain ⟨frame, hframe, hkind⟩ := Scope.exists_frame_of_enclosingResult? hexpected
      have hresult := hs.sane.knows.results frame hframe expected hkind
      refine h.optional (hs.cons hresult) fun found s₁ hs₁ => ?_
      have hresult₁ := hs₁.known expected (List.mem_cons_of_mem _ (List.mem_cons_self ..))
      exact .bind (hs₁.sane.requireFit_safe hresult₁ hs₁.head _ _ _) fun _ _ _ => .pure _
  | afterLoop | nextRound =>
    refine .step rfl (.read (require_moves _ (.pure _) _) (require_safe _ _ _) fun _ _ => ?_)
    exact h.optional hs fun _ _ _ => .pure _

/-! ## Nodes -/

/-- A variable is marked before its initializer is looked at, if it has no type of its own. -/
theorem inferVariable (h : Copes cx depth infer) (hforest : cx.arena.IsForest) {start : NodeId}
    (hs : Awaits cx depth [start] [] s) (hnode : cx.arena.node? id = some node)
    (hvar : node.kind.isVar = true) (hstart : cx.arena.IsChild id start)
    (hnone : s.annotations.get? id = none) (name : String) (written : TypeExpr) (span : Span) :
    Safe (inferVariable infer id name written start span) s := by
  rw [inferVariable_eq]
  refine .bind (hs.sane.resolve_safe written span) fun declared s₁ hresolve => ?_
  have hs₁ := hs.extended ((resolve_extended _ _).ok hresolve)
  have hrest : ∀ {types : List TypeId} {s₂ : State}, Awaits cx depth [start] types s₂ →
      (declared = .auto ∨ declared ∈ types) →
      Safe (infer start >>= settleVariable name declared span) s₂ := by
    intro types s₂ hs₂ hdeclared
    refine h.bind hs₂ fun found s₃ hs₃ => ?_
    refine .read (require_moves _ (.pure _) _) (require_safe _ _ _) fun _ _ => ?_
    refine .bind ?_ fun _ _ _ => .bind bindName_safe fun _ _ _ => .pure _
    obtain rfl | hdeclared := hdeclared
    · exact .pure _
    · exact hs₃.sane.requireFit_safe (hs₃.known declared (List.mem_cons_of_mem _ hdeclared))
        hs₃.head _ _ _
  unfold markVariable
  split
  · rename_i hauto
    refine .bind (hs₁.sane.annotateProvisional_safe hnode ?_) fun _ s₂ hmark => ?_
    · obtain ⟨table, -, rfl⟩ := resolve_eq_ok.mp hresolve
      exact hnone
    refine hrest (hs₁.later (N := (· = id)) ?_ ?_ ?_) (.inl hauto)
    · exact (annotateProvisional_carries hnode hvar).ok hmark hs₁.sane.knows
    · exact (annotateProvisional_later (N := (· = id)) rfl).ok hmark
    · refine List.forall_mem_singleton.mpr fun x hx hxid => ?_
      exact hforest.not_below_of_isChild hstart (hxid ▸ hx)
  · rename_i hauto
    have hdeclared : s₁.table.Known declared := by
      unfold resolve TypeExpr.resolve at hresolve
      split at hresolve
      · obtain ⟨_, hpure, -⟩ := onTable_eq_ok.mp hresolve
        exact absurd (pure_eq_ok.mp hpure).1.symm hauto
      · exact resolveConcrete_clear hs.sane.knows hresolve
    exact hrest (hs₁.cons hdeclared) (.inr (List.mem_cons_self ..))

/-- **A rule meets no fault.** -/
theorem inferNode (h : Copes cx depth infer) (hforest : cx.arena.IsForest) (hs : Sane cx s)
    (hfits : cx.arena.Fits (depth + 1) id) (hfresh : Fresh cx s id)
    (hnode : cx.arena.node? id = some node) : Safe (inferNode cx infer id node) s := by
  have hparts := Awaits.parts hforest hs hfits hfresh hnode
  unfold Check.inferNode
  generalize hkind : node.kind = kind at hparts ⊢
  cases kind with
  | identifier name =>
    refine .read (lookup_moves _) (lookup_safe _) fun binding _ => ?_
    cases binding with
    | none => exact .throw _
    | some binding => exact .pure _
  | number | string => exact .pure _
  | member base field => exact h.inferMember hparts field _
  | index base position => exact h.inferIndex hparts
  | call callee args => exact h.inferCall hforest hparts
  | binary symbol left right => exact h.inferBinary hparts symbol _
  | unary symbol operand => exact h.inferUnary hparts symbol _
  | assign target value => exact h.inferAssign hparts _
  | literal written members => exact h.inferLiteral hparts written _
  | branch condition thenArm elseArm => exact h.inferBranch hparts _
  | loop start condition body => exact h.inferLoop hparts
  | block statements => exact h.inferBlock hparts
  | jump kind value => exact h.inferJump hparts kind _
  | var name written start =>
    have hstart : cx.arena.IsChild id start := ⟨node, hnode, by rw [hkind]; exact .head _⟩
    exact h.inferVariable hforest hparts hnode (by rw [hkind]; rfl) hstart
      (hfresh id (.refl id)) name written _
  | function | foreign | struct => exact .throw _

end Copes

/-! ## Inference -/

/-- The node can still be given its type afterwards. -/
def StaysOpen (id : NodeId) (s s' : State) : Prop := Open s id → Open s' id

instance : IsPreorder State (StaysOpen id) where
  refl _ hopen := hopen
  trans _ _ _ h h' := h' ∘ h

instance : Extensible (StaysOpen id) (fun _ => StaysOpen id) where
  table _ _ _ := fun hopen => hopen

theorem Later.staysOpen {N : NodeId → Prop} (h : Later N s s') (hid : ¬ N id) :
    StaysOpen id s s' := fun hopen => by
  unfold Open
  rwa [h.get?_eq hid]

/-- A rule leaves the slot of its node to the node, up to the mark of a variable. -/
theorem Copes.inferNode_staysOpen (h : Copes cx depth infer) (hforest : cx.arena.IsForest)
    (hnode : cx.arena.node? id = some node) :
    Moves (StaysOpen id) (Check.inferNode cx infer id node) := by
  have hpart : ∀ child, ¬ cx.arena.Below child id →
      Goes (StaysOpen id) (fun _ => StaysOpen id) (infer child) := fun child hchild =>
    ((h.later child).mono fun _ _ hlater => hlater.staysOpen hchild).goes
  have hchild : ∀ child ∈ node.kind.children, ¬ cx.arena.Below child id := fun child hchild =>
    hforest.not_below_of_isChild ⟨node, hnode, hchild⟩
  have hscope : ∀ {x : Check Unit}, Moves (Later fun _ => False) x →
      Goes (StaysOpen id) (fun _ => StaysOpen id) x := fun hx =>
    (hx.mono fun _ _ hlater => hlater.staysOpen not_false).goes
  refine (inferNode_goes (fun _ child hmem => hpart child (hchild child hmem)) ?_ ?_ ?_ ?_ ?_).moves
  · intro callee _ hmem _ _ _ type
    have hne : id ≠ callee := fun heq => hchild callee hmem (heq ▸ .refl id)
    exact ((annotate_later (N := (· = callee)) rfl type).mono fun _ _ hlater =>
      hlater.staysOpen hne).goes
  · intro callee calleeNode base field hmem _ hcalleeNode hmember
    have hbase : cx.arena.IsChild callee base :=
      ⟨calleeNode, hcalleeNode, by rw [hmember]; exact .head _⟩
    exact hpart base fun hbelow => hchild callee hmem (hbase.below.trans hbelow)
  · intro statements hkind
    rw [hkind] at hchild
    exact inferBlock_goes (hscope (openFrame_later _)) (hscope closeFrame_later)
      fun child hmem => hpart child (hchild child hmem)
  · intro start condition body hkind
    rw [hkind] at hchild
    exact inferLoop_goes (hscope (openFrame_later _)) (hscope closeFrame_later)
      (fun child hmem => hpart child (hchild child (List.mem_append_left _ hmem)))
      (hpart condition (hchild condition (by simp [NodeKind.children])))
      (hpart body (hchild body (by simp [NodeKind.children])))
  · intro name written start hkind
    refine inferVariable_goes (Moves.goes (update_moves fun s s' h _ => ?_))
      (hpart start (hchild start (by simp [hkind, NodeKind.children])))
      (fun _ => hscope (bindName_later _ _ _ _)) written
    obtain ⟨annotations, hset, rfl⟩ :=
      annotateProvisional_eq_ok.mp (update_eq_ok (u := ()).mpr h)
    exact .inr ((Annotations.get?_of_setProvisional hset id).trans (if_pos rfl))

/-- **Inference meets no fault** when it may go as deep as the ways down from the node. -/
theorem inferAt_copes (hforest : cx.arena.IsForest) (depth : Nat) :
    Copes cx depth (inferAt cx depth) := by
  have hbase : ∀ depth, (∀ {id s}, cx.arena.Fits depth id → Sane cx s → Fresh cx s id →
      Safe (inferAt cx depth id) s) → Copes cx depth (inferAt cx depth) := fun depth hsafe =>
    { reveals := inferAt_reveals depth
      later := fun id => inferAt_later (closed_below cx id) depth id (.refl id)
      binds := fun id => binds_mono (fun _ _ _ => trivial) (inferAt_scope depth id)
      safe := hsafe }
  induction depth with
  | zero => exact hbase 0 fun hfits => by cases hfits
  | succ depth ih =>
    refine hbase (depth + 1) fun {id s} hfits hs hfresh => ?_
    obtain ⟨node, hnode⟩ := hfits.exists_node
    refine .step (nodeOf_ok hnode s) ?_
    refine .bind (ih.inferNode hforest hs hfits hfresh hnode) fun type s₁ hok => ?_
    have hlater : Later (cx.arena.Below id) s s₁ :=
      (inferNode_later (closed_below cx id) (.refl id) hnode fun child hchild =>
        (ih.later child).mono fun _ _ hlater => hlater.mono fun _ => hchild.trans).ok hok
    have hs₁ := hs.later ((ih.reveals.inferNode_carries hnode).ok hok hs.knows) hlater
    have hopen := (ih.inferNode_staysOpen hforest hnode).ok hok (.inl (hfresh id (.refl id)))
    exact .bind (hs₁.annotate_safe hnode hopen type) fun _ _ _ => .pure _

end RuleTypes.Check
