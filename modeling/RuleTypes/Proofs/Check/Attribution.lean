import RuleTypes.Proofs.Check.Blame

/-!
# What findings are about

A finding of an item is about one of its nodes: it stands where the node stands, and if it says that
a jump is misplaced, the node is that jump, and nothing that the jump could leave is around it
(`Concerns`). This holds of inference by induction on the way down (`inferAt_blames`), of the checks
of items, of registration and so of whole runs (`attributed_of_run`). What registration finds stands
where the item itself stands (`span_of_registered`).
-/

namespace RuleTypes

open Relation

/-! ## Ways down that avoid nodes of a kind -/

namespace Arena

variable {arena : Arena} {avoided : NodeKind → Bool} {a b c : NodeId}

/-- There is a way from the first node down to the second, and no node of the kind has a part on
it. -/
def Avoids (arena : Arena) (avoided : NodeKind → Bool) : NodeId → NodeId → Prop :=
  ReflTransGen fun parent child => ∃ node, arena.node? parent = some node ∧
    avoided node.kind = false ∧ child ∈ node.kind.children

/-- Around the second node, from the first one on, there is a node of the kind. -/
def Surrounded (arena : Arena) (kinds : NodeKind → Bool) (a c : NodeId) : Prop :=
  ∃ b node, arena.node? b = some node ∧ kinds node.kind = true ∧ arena.Below a b ∧
    arena.Below b c ∧ b ≠ c

theorem Surrounded.above (hab : arena.Below a b) (h : arena.Surrounded avoided b c) :
    arena.Surrounded avoided a c := by
  obtain ⟨outer, node, hnode, hkind, hbelow, hrest⟩ := h
  exact ⟨outer, node, hnode, hkind, hab.trans hbelow, hrest⟩

/-- In a forest there is only one way, so a way that avoids the nodes of a kind shows that there are
none around. -/
theorem IsForest.not_surrounded (hforest : arena.IsForest) (h : arena.Avoids avoided a c) :
    ¬ arena.Surrounded avoided a c := by
  rintro ⟨b, node, hnode, hkind, hab, hbc, hne⟩
  induction h with
  | refl =>
    obtain rfl | ⟨child, hchild, hbelow⟩ := ReflTransGen.cases_head hab
    · exact absurd rfl hne
    · exact absurd (hbelow.trans hbc) (hforest.not_below_of_isChild hchild)
  | @tail u c _ huc ih =>
    obtain ⟨parent, hparent, havoided, hchild⟩ := huc
    obtain rfl | ⟨q, hq, hqc⟩ := ReflTransGen.cases_tail hbc
    · exact absurd rfl hne
    · -- the last step of the way is the only one that leads to its end
      obtain rfl := hforest.eq_of_isChild q u c hqc ⟨parent, hparent, hchild⟩
      obtain rfl | hbu := eq_or_ne b q
      · obtain rfl := Option.some.inj (hparent.symm.trans hnode)
        rw [havoided] at hkind
        cases hkind
      · exact ih hq hbu

end Arena

/-- The nodes that a jump leaves. -/
def Jump.leaves : Jump → NodeKind → Bool
  | toCaller => NodeKind.isFunction
  | afterLoop | nextRound => NodeKind.isLoop

namespace Check

variable {α : Type} {cx : Setting} {result : Option TypeId} {loop : Bool} {P : Finding → Prop}
  {s : State} {span : Span} {id : NodeId} {node : Node}

/-! ## Nodes -/

variable {stray stray' : Jump → Prop} {finding : Finding} {child n : NodeId}

/-- The finding is about a node below: it stands where the node stands, and if it says that a jump
is misplaced, the node is a jump that may be, and nothing that it could leave is around it. -/
def Concerns (cx : Setting) (stray : Jump → Prop) (id : NodeId) (finding : Finding) : Prop :=
  ∃ n node, cx.arena.Below id n ∧ cx.arena.node? n = some node ∧ finding.span = node.span ∧
    ∀ keyword, finding.problem = .misplacedJump keyword →
      ∃ kind value, node.kind = .jump kind value ∧ kind.keyword = keyword ∧ stray kind ∧
        cx.arena.Avoids kind.leaves id n

theorem admits_concerns (hn : cx.arena.Below id n) (hnode : cx.arena.node? n = some node) :
    Admits (Concerns cx stray id) node.span := fun _ hproblem =>
  ⟨n, node, hn, hnode, rfl, fun keyword h => absurd h (hproblem keyword)⟩

/-- What a finding in a part is about lies below the whole. -/
theorem Concerns.of_part (hnode : cx.arena.node? id = some node)
    (hchild : child ∈ node.kind.children)
    (hstray : ∀ kind, stray kind → stray' kind ∧ kind.leaves node.kind = false)
    (h : Concerns cx stray child finding) : Concerns cx stray' id finding := by
  obtain ⟨n, other, hn, hother, hspan, hjump⟩ := h
  refine ⟨n, other, .head ⟨node, hnode, hchild⟩ hn, hother, hspan, fun keyword hproblem => ?_⟩
  obtain ⟨kind, value, hkind, hkeyword, hkindStray, havoids⟩ := hjump keyword hproblem
  obtain ⟨hstray', hleaves⟩ := hstray kind hkindStray
  exact ⟨kind, value, hkind, hkeyword, hstray', .head ⟨node, hnode, hleaves, hchild⟩ havoids⟩

theorem Stray.of_part (hfunction : node.kind.isFunction = false) (kind : Jump)
    (h : Stray result (loop || node.kind.isLoop) kind) :
    Stray result loop kind ∧ kind.leaves node.kind = false := by
  cases kind with
  | toCaller => exact ⟨h, hfunction⟩
  | afterLoop | nextRound => exact Bool.or_eq_false_iff.mp h

/-- **The findings of inference are about nodes below**, and only jumps that are misplaced are said
to be. -/
theorem inferAt_blames (depth : Nat) : ∀ id result loop,
    Blames result loop (Concerns cx (Stray result loop) id) (inferAt cx depth id) := by
  induction depth with
  | zero => exact fun _ _ _ => .fault _
  | succ depth ih =>
    intro id result loop
    refine nodeOf_bind_blames fun node hnode => .bind ?_ fun _ => .bind (annotate_blames _ _)
      fun _ => .pure _
    have hlift : ∀ child ∈ node.kind.children, node.kind.isFunction = false →
        Blames result (loop || node.kind.isLoop) (Concerns cx (Stray result loop) id)
          (inferAt cx depth child) := fun child hchild hfunction =>
      (ih child result _).mono fun _ => .of_part hnode hchild (Stray.of_part hfunction)
    refine inferNode_blames (fun hfunction => ⟨fun child hchild => hlift child hchild hfunction,
      fun child hchild childNode hchildNode => ?_⟩) (admits_concerns (.refl id) hnode) ?_ ?_
      fun child => binds_mono (fun _ _ _ => trivial) (inferAt_scope depth child)
    · exact admits_concerns (Arena.IsChild.below ⟨node, hnode, hchild⟩) hchildNode
    · intro callee calleeNode base field hcallee hfunction hloop hcalleeNode hmember
      have hbase : base ∈ calleeNode.kind.children := by simp [hmember, NodeKind.children]
      refine (ih base result loop).mono fun _ h => ?_
      have hcalleeConcerns : Concerns cx (Stray result loop) callee _ :=
        .of_part hcalleeNode hbase (fun kind hkind => Stray.of_part (by simp [hmember,
          NodeKind.isFunction]) kind (by simpa [hmember, NodeKind.isLoop] using hkind)) h
      exact .of_part hnode hcallee (fun kind hkind => Stray.of_part hfunction kind
        (by simpa [hloop] using hkind)) hcalleeConcerns
    · intro kind value hkind hstray
      refine ⟨id, node, .refl id, hnode, rfl, fun keyword hproblem => ?_⟩
      exact ⟨kind, value, hkind, Problem.misplacedJump.inj hproblem, hstray, .refl⟩

/-! ## Items -/

theorem bindParams_blames (hspan : Admits P span) (params : List (String × TypeExpr))
    (types : List TypeId) : Blames result loop P (bindParams span params types) := by
  induction params generalizing types with
  | nil => exact .pure _
  | cons param params ih =>
    cases types with
    | nil => exact .pure _
    | cons type types => exact .bind (bindName_blames hspan _ _ _) fun _ => ih types

/-- In the body of a function no `return` is misplaced. -/
theorem checkFunction_refuses (hnode : cx.arena.node? id = some node) {name : String}
    {kind : FunctionKind} {params : List (String × TypeExpr)} {written : Option TypeExpr}
    {body : NodeId} (hkind : node.kind = .function name kind params written body) :
    Refuses (Concerns cx (fun _ => True) id)
      (checkFunction cx id node.span name kind params body) s := by
  have hbody : body ∈ node.kind.children := by simp [hkind, NodeKind.children]
  have hinfer : ∀ type, Blames (some type) false (Concerns cx (fun _ => True) id)
      (Check.infer cx body) := fun type =>
    (inferAt_blames _ body (some type) false).mono fun _ => .of_part hnode hbody
      fun jump hjump => by
      cases jump with
      | toCaller => cases hjump
      | afterLoop | nextRound => exact ⟨trivial, by rw [hkind]; rfl⟩
  refine .bind (Blames.refuses fun _ _ => inspect_blames _) fun signature s₁ _ =>
    .bind (Blames.refuses fun _ _ => inspect_blames _) fun form s₂ _ => ?_
  cases form.signature? with
  | none => exact Blames.refuses fun _ _ => .fault _
  | some types =>
    refine .bind (update_refuses _) fun _ s₃ hopen => ?_
    have hwithin : Within (some types.2) false s₃ := by
      obtain ⟨scope, hpush, rfl⟩ := openFrame_eq_ok.mp hopen
      obtain ⟨-, rfl⟩ := Scope.push_eq_ok.mp hpush
      exact ⟨rfl, rfl⟩
    obtain ⟨hparams, hwithin⟩ :=
      bindParams_blames (admits_concerns (.refl id) hnode) params types.1 s₃ hwithin
    refine .bind hparams fun _ s₄ h₄ => .bind (hinfer types.2 s₄ (hwithin _ s₄ h₄)).1
      fun found s₅ _ => .bind (Blames.refuses fun _ _ => inspect_blames _) fun returns s₆ _ =>
      .bind (Blames.refuses fun _ _ => inspect_blames _) fun bodyNode s₇ hread => ?_
    have hspan : Admits (Concerns cx (fun _ => True) id) bodyNode.span :=
      admits_concerns (Arena.IsChild.below ⟨node, hnode, hbody⟩) (nodeOf_eq_ok.mp hread).1
    exact .bind (Blames.refuses fun _ _ => requireFit_blames (fun _ _ => hspan _ (by simp)) _)
      fun _ _ _ => .bind (update_refuses _) fun _ _ _ =>
      .bind (Blames.refuses fun _ _ => inspect_blames _) fun _ _ _ => .pure _

/-- At top level no function and no loop is around. -/
theorem within_of_global (h : s.scope.frames = []) : Within none false s := by
  obtain ⟨table, ⟨frames, globals⟩, names, operators, members, annotations⟩ := s
  obtain rfl : frames = [] := h
  exact ⟨rfl, rfl⟩

theorem checkItem_refuses {item : Item} (hnode : cx.arena.node? item.id = some item.node)
    (hframes : s.scope.frames = []) :
    Refuses (Concerns cx (fun _ => True) item.id) (checkItem cx item) s := by
  have hinfer : Refuses (Concerns cx (fun _ => True) item.id) (do
      let _ ← Check.infer cx item.id
      return (none : Option CheckedFunction)) s := by
    refine .bind ((inferAt_blames _ item.id none false s
      (within_of_global hframes)).1.mono ?_) fun _ _ _ => .pure _
    rintro finding ⟨n, node, hn, hnode, hspan, hjump⟩
    refine ⟨n, node, hn, hnode, hspan, fun keyword hproblem => ?_⟩
    obtain ⟨kind, value, hkind, hkeyword, -, havoids⟩ := hjump keyword hproblem
    exact ⟨kind, value, hkind, hkeyword, trivial, havoids⟩
  have hoff : Concerns cx (fun _ => True) item.id ⟨.topLevelExpression, item.node.span⟩ :=
    admits_concerns (.refl item.id) hnode _ (by simp)
  unfold checkItem
  cases hkind : item.node.kind with
  | struct | foreign => exact .pure _
  | function name kind params written body =>
    exact .bind (checkFunction_refuses hnode hkind) fun _ _ _ => .pure _
  | var => exact hinfer
  | _ =>
    refine .bind (Blames.refuses fun _ _ => require_blames hoff _) fun _ s' hrequire => ?_
    obtain ⟨-, rfl⟩ := require_eq_ok.mp hrequire
    exact hinfer

/-! ## Registration -/

theorem modify_blames {f : State → State} (h : ∀ s, (f s).scope = s.scope) :
    Blames result loop P (modify f) := fun s hs => ⟨.of_ok rfl, fun _ s' hok => by
  obtain rfl := modify_eq_ok.mp hok
  exact ⟨(h s).symm ▸ hs.result, (h s).symm ▸ hs.inLoop⟩⟩

theorem orForget_blames {x : Check Unit} (h : Blames result loop P x) (name : String)
    (type : TypeId) : Blames result loop P (orForget name type x) := by
  refine fun s hs => ⟨fun finding s' he => ?_, fun _ s' hok => ?_⟩
  · unfold orForget at he
    cases hx : x s with
    | ok u s₁ => simp [hx] at he
    | error failure s₁ =>
      cases failure with
      | fault cause => simp [hx] at he
      | error found =>
        simp only [hx, EStateM.Result.error.injEq, Failure.error.injEq] at he
        exact he.1 ▸ (h s hs).1 found s₁ hx
  · unfold orForget at hok
    cases hx : x s with
    | ok u s₁ =>
      simp only [hx, EStateM.Result.ok.injEq] at hok
      exact hok.2 ▸ (h s hs).2 u s₁ hx
    | error failure s₁ => cases failure <;> simp [hx] at hok

section Definitions

variable {d : StructDef} {f : FunctionDef}

theorem declareStruct_blames (hspan : Admits P d.span) :
    Blames result loop P (declareStruct d) :=
  .bind (require_blames (hspan _ (by simp)) _) fun _ => .get_bind fun _ _ =>
    .bind (require_blames (hspan _ (by simp)) _) fun _ =>
    .bind (onTable_blames fun _ _ h => hspan _ (ofTable_ne_misplacedJump h)) fun _ =>
    .bind (modify_blames fun _ => rfl) fun _ => annotate_blames _ _

theorem resolveFields_blames (hspan : Admits P span) (fields : List (String × TypeExpr)) :
    Blames result loop P (resolveFields span fields) := by
  induction fields with
  | nil => exact .pure _
  | cons field fields ih =>
    exact .bind (resolveConcrete_blames hspan _) fun _ => .bind ih fun _ => .pure _

theorem fillStruct_blames (hspan : Admits P d.span) : Blames result loop P (fillStruct d) :=
  .bind (inspect_blames _) fun _ => orForget_blames (.bind (resolveFields_blames hspan _) fun _ =>
    onTable_blames fun _ _ h => hspan _ (ofTable_ne_misplacedJump h)) _ _

theorem checkLayout_blames (hspan : Admits P d.span) : Blames result loop P (checkLayout d) := by
  refine .bind (inspect_blames _) fun _ => orForget_blames (.bind (inspect_blames _) fun _ =>
    .bind (require_blames (hspan _ (by simp)) _) fun _ => .bind (inspect_blames _) fun broken => ?_)
    _ _
  cases broken with
  | none => exact .pure _
  | some name => exact report_blames (hspan _ (by simp))

theorem resolveParams_blames (hspan : Admits P span) (params : List (String × TypeExpr)) :
    Blames result loop P (resolveParams span params) := by
  induction params with
  | nil => exact .pure _
  | cons param params ih =>
    exact .bind (resolveConcrete_blames hspan _) fun _ => .bind ih fun _ => .pure _

theorem signatureOf_blames (hspan : Admits P f.span) : Blames result loop P (signatureOf f) := by
  refine .bind (resolveParams_blames hspan _) fun _ => ?_
  have hintern : ∀ params result', Blames result loop P
      (onTable Problem.ofTable f.span (TypeTable.internFunction params result')) :=
    fun _ _ => onTable_blames fun _ _ h => hspan _ (ofTable_ne_misplacedJump h)
  cases f.result with
  | none => exact .bind (.pure _) fun _ => hintern _ _
  | some written => exact .bind (resolveConcrete_blames hspan _) fun _ => hintern _ _

theorem registerFunction_blames (hspan : Admits P f.span) :
    Blames result loop P (registerFunction cx f) := by
  refine .bind (signatureOf_blames hspan) fun signature => ?_
  have hsign : Blames result loop P (annotate f.node signature) := annotate_blames _ _
  cases f.kind with
  | none => exact .bind (bindName_blames hspan _ _ _) fun _ => hsign
  | some kind =>
    cases kind with
    | normal => exact .bind (bindName_blames hspan _ _ _) fun _ => hsign
    | symbolic =>
      exact .bind (.bind (require_blames (hspan _ (by simp)) _) fun _ =>
        .bind (require_blames (hspan _ (by simp)) _) fun _ => .get_bind fun _ _ =>
        .bind (require_blames (hspan _ (by simp)) _) fun _ => modify_blames fun _ => rfl)
        fun _ => hsign
    | member =>
      exact .bind (.bind (require_blames (hspan _ (by simp)) _) fun _ => .get_bind fun _ _ =>
        .bind (inspect_blames _) fun _ => .bind (inspect_blames _) fun _ =>
        .bind (require_blames (hspan _ (by simp)) _) fun _ => modify_blames fun _ => rfl)
        fun _ => hsign

end Definitions

/-! ## Runs -/

variable {items : List Item} {item : Item} {p p' : Progress} {R : Item → Finding → Prop}

/-- Every finding is related to the item at its place. -/
def FindingsOf (R : Item → Finding → Prop) (items : List Item) (p : Progress) : Prop :=
  ∀ position finding, (position, finding) ∈ p.findings →
    ∃ item ∈ items, item.position = position ∧ R item finding

/-- Every finding is about a node of the item at its place. -/
def Attributed (cx : Setting) (items : List Item) (p : Progress) : Prop :=
  FindingsOf (fun item => Concerns cx (fun _ => True) item.id) items p

theorem FindingsOf.add (h : FindingsOf R items p) (hitem : item ∈ items) (hfinding : R item finding)
    (hfindings : p'.findings = p.findings ++ [(item.position, finding)]) :
    FindingsOf R items p' := by
  intro position other hother
  rw [hfindings] at hother
  obtain hother | hother := List.mem_append.mp hother
  · exact h position other hother
  · obtain ⟨rfl, rfl⟩ := Prod.mk.inj (List.mem_singleton.mp hother)
    exact ⟨item, hitem, rfl, hfinding⟩

/-- A registration adds no finding, or one where the definition stands. -/
theorem findings_of_register {position : Nat} {x : Check Unit}
    (hx : ∀ {P : Finding → Prop}, Admits P span → ∀ result loop, Blames result loop P x)
    (hok : p.register position id x = .ok p') :
    p'.findings = p.findings ∨ ∃ finding, p'.findings = p.findings ++ [(position, finding)] ∧
      ∀ P : Finding → Prop, Admits P span → P finding := by
  obtain ⟨r, state, hattempt, ⟨-, rfl⟩ | ⟨finding, rfl, rfl⟩⟩ := register_eq_ok hok
  · exact .inl rfl
  · obtain ⟨_, hr, -⟩ | ⟨found, s₁, _, hr, herror, -⟩ := attempt_eq_ok hattempt
    · cases hr
    · obtain rfl := Except.error.inj hr
      exact .inr ⟨finding, rfl, fun P hP => Blames.refuses (hx hP) finding s₁ herror⟩

theorem span_of_structDefs {position : Nat} {d : StructDef}
    (h : (position, d) ∈ items.filterMap Item.structDef?) :
    ∃ item ∈ items, item.position = position ∧ item.node.span = d.span := by
  obtain ⟨item, hitem, hdef⟩ := List.mem_filterMap.mp h
  refine ⟨item, hitem, ?_⟩
  unfold Item.structDef? at hdef
  cases hkind : item.node.kind <;> simp only [hkind, reduceCtorEq, Option.some.injEq,
    Prod.mk.injEq] at hdef
  obtain ⟨rfl, rfl⟩ := hdef
  exact ⟨rfl, rfl⟩

theorem span_of_functionDefs {position : Nat} {d : FunctionDef}
    (h : (position, d) ∈ items.filterMap Item.functionDef?) :
    ∃ item ∈ items, item.position = position ∧ item.node.span = d.span := by
  obtain ⟨item, hitem, hdef⟩ := List.mem_filterMap.mp h
  refine ⟨item, hitem, ?_⟩
  unfold Item.functionDef? at hdef
  cases hkind : item.node.kind <;> simp only [hkind, reduceCtorEq, Option.some.injEq,
    Prod.mk.injEq] at hdef
  all_goals
    obtain ⟨rfl, rfl⟩ := hdef
    exact ⟨rfl, rfl⟩

/-- Whatever the pass, what registration finds in an item is found where the item stands. -/
theorem RegisterStep.findings (hstep : RegisterStep cx items p p') :
    p'.findings = p.findings ∨ ∃ item ∈ items, ∃ finding,
      p'.findings = p.findings ++ [(item.position, finding)] ∧
      ∀ P : Finding → Prop, Admits P item.node.span → P finding := by
  cases hstep with
  | declare hd h =>
    obtain ⟨item, hitem, rfl, hspan⟩ := span_of_structDefs hd
    exact (findings_of_register (fun hP _ _ => declareStruct_blames (hspan ▸ hP)) h).imp_right
      fun h => ⟨item, hitem, h⟩
  | fill hd _ h =>
    obtain ⟨item, hitem, rfl, hspan⟩ := span_of_structDefs hd
    exact (findings_of_register (fun hP _ _ => fillStruct_blames (hspan ▸ hP)) h).imp_right
      fun h => ⟨item, hitem, h⟩
  | layout hd _ h =>
    obtain ⟨item, hitem, rfl, hspan⟩ := span_of_structDefs hd
    exact (findings_of_register (fun hP _ _ => checkLayout_blames (hspan ▸ hP)) h).imp_right
      fun h => ⟨item, hitem, h⟩
  | function hd h =>
    obtain ⟨item, hitem, rfl, hspan⟩ := span_of_functionDefs hd
    exact (findings_of_register (fun hP _ _ => registerFunction_blames (hspan ▸ hP)) h).imp_right
      fun h => ⟨item, hitem, h⟩

theorem findingsOf_of_steps (hR : ∀ item ∈ items, Admits (R item) item.node.span)
    {table : TypeTable} (h : ReflTransGen (RegisterStep cx items)
      ⟨State.start table cx.arena.size, [], [], []⟩ p) : FindingsOf R items p := by
  induction h with
  | refl => exact fun _ _ hfinding => absurd hfinding List.not_mem_nil
  | tail _ hstep ih =>
    obtain hsame | ⟨item, hitem, finding, hfindings, hfinding⟩ := hstep.findings
    · exact fun position finding hmem => ih position finding (hsame ▸ hmem)
    · exact ih.add hitem (hfinding _ (hR item hitem)) hfindings

/-- **Findings of registration stand where the items at their places stand.** -/
theorem span_of_registered {table : TypeTable} (h : registered cx items table = .ok p) :
    FindingsOf (fun item finding => finding.span = item.node.span) items p :=
  findingsOf_of_steps (fun _ _ _ _ => rfl) (registered_steps h)

/-- The pass over the items keeps the findings that were made before it. -/
theorem findings_of_checkItems {q : Progress} (h : q.checkItems cx items = .ok p) :
    ∃ later, p.findings = q.findings ++ later := by
  refine checkItems_invariant (P := fun _ p => ∃ later, p.findings = q.findings ++ later)
    (fun seen item rest p p' _ hp hstep => ?_) ⟨[], (List.append_nil _).symm⟩ h
  obtain ⟨later, hlater⟩ := hp
  cases hstep with
  | skip | done => exact ⟨later, hlater⟩
  | @found finding =>
    refine ⟨later ++ [(item.position, finding)], ?_⟩
    rw [← List.append_assoc, ← hlater]

/-- **Findings of a run are about nodes of the items at their places.** -/
theorem attributed_of_run {ids : List NodeId} {table : TypeTable}
    (hitems : itemsFrom cx.arena 0 ids = .ok items) (hrun : run cx ids table = .ok p) :
    Attributed cx items p := by
  obtain ⟨items', q, hitems', hregistered, hcheck⟩ := run_eq_ok.mp hrun
  obtain rfl := Except.ok.inj (hitems'.symm.trans hitems)
  have hnodes : ∀ item ∈ items', cx.arena.node? item.id = some item.node := fun _ =>
    node?_of_itemsFrom hitems
  have hsteps := registered_steps hregistered
  have hboth : p.state.scope.frames = [] ∧ Attributed cx items' p := by
    refine checkItems_invariant
      (P := fun _ p => p.state.scope.frames = [] ∧ Attributed cx items' p)
      (fun seen item rest p p' hsplit hp hstep => ?_)
      ⟨frames_of_steps hsteps, findingsOf_of_steps
        (fun item hitem => admits_concerns (.refl item.id) (hnodes item hitem)) hsteps⟩ hcheck
    obtain ⟨hframes, hp⟩ := hp
    have hitem : item ∈ items' := by simp [hsplit]
    cases hstep with
    | skip => exact ⟨hframes, hp⟩
    | done _ hok => exact ⟨checkItem_frames hframes hok, hp⟩
    | found _ hfound =>
      obtain ⟨s₁, _, herror, -, rfl⟩ := attempt_eq_error hfound
      exact ⟨rfl, hp.add hitem (checkItem_refuses (hnodes item hitem) hframes _ s₁ herror) rfl⟩
  exact hboth.2

end Check

end RuleTypes
