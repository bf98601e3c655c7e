import RuleTypes.Check.Report
import RuleTypes.Proofs.Check.Later

/-!
# Registering definitions

What a registration step can do: it lets the table grow, and it gives a type to the node of its
definition only (`Enters`). A registration is a sequence of such steps, each run on one item
(`RegisterStep`); whatever one step keeps holds when registration is over (`registered_steps`).
-/

namespace RuleTypes.Check

open Relation

variable {cx : Setting} {s s' s'' : State} {N : NodeId → Prop}

/-! ## Steps on structs -/

/-- A preorder that growing tables and changing names of structs respect. The tables keep their
primitive types and generics. -/
class Tolerant (R : State → State → Prop) : Prop extends IsPreorder State R where
  table : ∀ s table, s.table.Grows table → s.table.SameBasis table → R s { s with table }
  names : ∀ s names, R s { s with names }

section Structs

variable {R : State → State → Prop} [Tolerant R]

theorem onTable_moves {α ε : Type} {problemOf : ε → Except Fault Problem} {span : Span}
    {x : TableM ε α} (hgrows : Moves TypeTable.Grows x) (hbasis : Moves TypeTable.SameBasis x) :
    Moves R (onTable problemOf span x) := by
  intro s
  have hgrows := hgrows s.table
  have hbasis := hbasis s.table
  unfold onTable
  revert hgrows hbasis
  cases x s.table with
  | ok a table => exact Tolerant.table s table
  | error e table =>
    cases e with
    | fault cause => exact Tolerant.table s table
    | error cause =>
      dsimp only
      cases problemOf cause <;> exact Tolerant.table s table

theorem moves_of_extended {α : Type} {x : Check α} (h : Moves Extended x) : Moves R x :=
  h.mono fun s _ ⟨table, hextends, heq⟩ =>
    heq ▸ Tolerant.table s table hextends.grows hextends.sameBasis

theorem orForget_moves {x : Check Unit} (h : Moves R x) (name : String) (id : TypeId) :
    Moves R (orForget name id x) := fun s => by
  have hx := h s
  unfold orForget
  revert hx
  cases x s with
  | ok u s' => exact fun hx => hx
  | error e s' =>
    cases e with
    | fault cause => exact fun hx => hx
    | error finding =>
      intro hx
      change R s (forget name id s')
      unfold forget
      split
      · exact trans_of R hx (Tolerant.names s' _)
      · exact hx

theorem declareStruct_moves (d : StructDef) (h : ∀ type, Moves R (annotate d.node type)) :
    Moves R (declareStruct d) :=
  .bind (require_moves _ (.pure _) _) fun _ => .bind .get fun _ =>
    .bind (require_moves _ (.pure _) _) fun _ =>
    .bind (onTable_moves (TypeTable.reserve_grows _) (TypeTable.reserve_sameBasis _)) fun _ =>
    .bind (fun s => Tolerant.names s _) fun _ => h _

theorem resolveFields_extended (span : Span) (fields : List (String × TypeExpr)) :
    Moves Extended (resolveFields span fields) := by
  induction fields with
  | nil => exact .pure _
  | cons field fields ih =>
    exact .bind (resolveConcrete_extended _ _) fun _ => .bind ih fun _ => .pure _

theorem fillStruct_moves (d : StructDef) : Moves R (fillStruct d) := by
  refine .bind (inspect_moves _) fun id => orForget_moves ?_ _ _
  exact .bind (moves_of_extended (resolveFields_extended _ _)) fun _ =>
    onTable_moves (TypeTable.fill_grows _ _) (TypeTable.fill_sameBasis _ _)

theorem checkLayout_moves (d : StructDef) : Moves R (checkLayout d) := by
  refine .bind (inspect_moves _) fun id => orForget_moves ?_ _ _
  refine .bind (inspect_moves _) fun _ => .bind (require_moves _ (.pure _) _) fun _ =>
    .bind (inspect_moves _) fun broken => ?_
  cases broken with
  | none => exact .pure _
  | some name => exact report_moves _ _

end Structs

/-! ## Steps on functions -/

theorem resolveParams_extended (span : Span) (params : List (String × TypeExpr)) :
    Moves Extended (resolveParams span params) := by
  induction params with
  | nil => exact .pure _
  | cons param params ih =>
    exact .bind (resolveConcrete_extended _ _) fun _ => .bind ih fun _ => .pure _

theorem signatureOf_extended (d : FunctionDef) : Moves Extended (signatureOf d) := by
  refine .bind (resolveParams_extended _ _) fun _ => ?_
  have hintern : ∀ params result, Moves Extended
      (onTable Problem.ofTable d.span (TypeTable.internFunction params result)) :=
    fun _ _ => onTable_extended (TypeTable.internFunction_moves _ _)
  cases d.result with
  | none => exact .bind (.pure _) fun _ => hintern _ _
  | some result => exact .bind (resolveConcrete_extended _ _) fun _ => hintern _ _

theorem form?_of_signatureOf {d : FunctionDef} {signature : TypeId}
    (h : signatureOf d s = .ok signature s') :
    ∃ params result, s'.table.form? signature = some (.function params result) := by
  obtain ⟨params, s₁, -, h⟩ := bind_eq_ok.mp h
  have hform : ∀ {result s₂}, onTable Problem.ofTable d.span
      (TypeTable.internFunction params result) s₂ = .ok signature s' →
      ∃ params result, s'.table.form? signature = some (.function params result) := by
    intro result s₂ h
    obtain ⟨table, hintern, rfl⟩ := onTable_eq_ok.mp h
    exact ⟨params, result, TypeTable.form?_of_internFunction hintern⟩
  cases hresult : d.result <;> simp only [hresult] at h <;>
    exact have ⟨_, _, _, h⟩ := bind_eq_ok.mp h; hform h

/-- The state with one more signature of an operator. -/
def State.withOperator (s : State) (symbol : String) (signature : TypeId) : State :=
  { s with
    operators := s.operators.insert symbol ((s.operators.get? symbol).getD [] ++ [signature]) }

/-- The state with one more signature of a member function. -/
def State.withMember (s : State) (name : String) (signature : TypeId) : State :=
  { s with members := s.members.insert name ((s.members.get? name).getD [] ++ [signature]) }

theorem mem_getD_insert {m : NameMap (List TypeId)} {name other : String} {old new : TypeId}
    (h : old ∈ ((m.insert name ((m.get? name).getD [] ++ [new])).get? other).getD []) :
    old = new ∨ old ∈ (m.get? other).getD [] := by
  rw [NameMap.get?_insert] at h
  split at h
  · obtain h | h := List.mem_append.mp h
    · exact .inr (‹other = name› ▸ h)
    · exact .inl (List.mem_singleton.mp h)
  · exact .inr h

section Functions

variable {R : State → State → Prop} [IsPreorder State R] {signature : TypeId}

theorem registerOperator_at {symbol : String} (h : R s (s.withOperator symbol signature))
    (arity : Nat) (span : Span) :
    R s (endState (registerOperator cx symbol arity signature span s)) := by
  refine Moves.bind_at (require_moves _ (.pure _) _ s) fun _ s₁ hrequire => ?_
  obtain ⟨-, rfl⟩ := require_eq_ok.mp hrequire
  refine Moves.bind_at (require_moves _ (.pure _) _ s) fun _ s₁ hrequire => ?_
  obtain ⟨-, rfl⟩ := require_eq_ok.mp hrequire
  rw [get_bind]
  refine Moves.bind_at (require_moves _ (.pure _) _ s) fun _ s₁ hrequire => ?_
  obtain ⟨-, rfl⟩ := require_eq_ok.mp hrequire
  exact h

theorem registerMember_at {name : String} (h : R s (s.withMember name signature)) (arity : Nat)
    (span : Span) : R s (endState (registerMember name arity signature span s)) := by
  refine Moves.bind_at (require_moves _ (.pure _) _ s) fun _ s₁ hrequire => ?_
  obtain ⟨-, rfl⟩ := require_eq_ok.mp hrequire
  rw [get_bind]
  refine Moves.bind_at (formOf_moves _ s) fun form s₁ hform => ?_
  obtain ⟨-, rfl⟩ := formOf_eq_ok.mp hform
  refine Moves.bind_at (inspect_moves _ s) fun others s₁ hothers => ?_
  obtain ⟨-, rfl⟩ := inspect_eq_ok.mp hothers
  refine Moves.bind_at (require_moves _ (.pure _) _ s) fun _ s₁ hrequire => ?_
  obtain ⟨-, rfl⟩ := require_eq_ok.mp hrequire
  exact h

end Functions

theorem registerOperator_eq_ok {symbol : String} {arity : Nat} {signature : TypeId} {span : Span}
    {u : Unit} (h : registerOperator cx symbol arity signature span s = .ok u s') :
    signature ∉ (s.operators.get? symbol).getD [] ∧ s' = s.withOperator symbol signature := by
  simp only [registerOperator, bind_eq_ok, require_eq_ok, get_eq_ok, modify_eq_ok] at h
  obtain ⟨_, _, ⟨-, rfl⟩, _, _, ⟨-, rfl⟩, _, _, ⟨rfl, rfl⟩, _, _, ⟨hnew, rfl⟩, rfl⟩ := h
  simp only [Bool.and_eq_true, Bool.not_eq_true', List.contains_eq_mem, decide_eq_false_iff_not]
    at hnew
  exact ⟨hnew.2, rfl⟩

/-- A member function is registered only if no other of its name takes the same parameters. -/
theorem registerMember_eq_ok {name : String} {arity : Nat} {signature : TypeId} {span : Span}
    {u : Unit} (h : registerMember name arity signature span s = .ok u s') :
    signature ∉ (s.members.get? name).getD [] ∧ s' = s.withMember name signature := by
  simp only [registerMember, bind_eq_ok, require_eq_ok, get_eq_ok, formOf_eq_ok, inspect_eq_ok,
    modify_eq_ok] at h
  obtain ⟨_, _, ⟨-, rfl⟩, _, _, ⟨rfl, rfl⟩, form, _, ⟨hform, rfl⟩, others, _, ⟨hothers, rfl⟩,
    _, _, ⟨hnew, rfl⟩, rfl⟩ := h
  refine ⟨fun hold => ?_, rfl⟩
  obtain ⟨other, hother, hread⟩ := except_mapM_mem hothers hold
  obtain rfl : other = form :=
    Option.some.inj ((TypeTable.form_eq_ok.mp hread).symm.trans hform)
  have hdiffers := List.all_eq_true.mp hnew other hother
  simp at hdiffers

/-- What entering the signature of a function under its name and giving it to the node have to
respect, `s` being the state in which the signature is found. -/
structure Registers (R : State → State → Prop) (d : FunctionDef) (signature : TypeId) (s : State) :
    Prop where
  bind : ∀ kind, R s (endState (bindName d.name signature kind d.span s))
  operator : R s (s.withOperator d.name signature)
  member : R s (s.withMember d.name signature)
  annotate : ∀ s', s'.table = s.table → R s' (endState (annotate d.node signature s'))

theorem registerFunction_at {R : State → State → Prop} [IsPreorder State R] {d : FunctionDef}
    (hsignature : R s (endState (signatureOf d s)))
    (h : ∀ signature s', signatureOf d s = .ok signature s' → Registers R d signature s') :
    R s (endState (registerFunction cx d s)) := by
  refine Moves.bind_at hsignature fun signature s₁ hok => ?_
  have hregisters := h signature s₁ hok
  have hbind : ∀ kind, R s₁ (endState ((do
      bindName d.name signature kind d.span
      annotate d.node signature) s₁)) := fun kind =>
    Moves.bind_at (hregisters.bind kind) fun _ s₂ hbound => hregisters.annotate s₂ <| by
      obtain ⟨scope, -, rfl⟩ := bindName_eq_ok.mp hbound
      rfl
  cases d.kind with
  | none => exact hbind .foreign
  | some kind =>
    cases kind with
    | normal => exact hbind .function
    | symbolic =>
      exact Moves.bind_at (registerOperator_at hregisters.operator _ _) fun _ s₂ hregistered =>
        hregisters.annotate s₂ (by rw [(registerOperator_eq_ok hregistered).2]; rfl)
    | member =>
      exact Moves.bind_at (registerMember_at hregisters.member _ _) fun _ s₂ hregistered =>
        hregisters.annotate s₂ (by rw [(registerMember_eq_ok hregistered).2]; rfl)

/-! ## Types that registration gives -/

/-- The table grew, but has no other primitive types, and only nodes in `N` got types. -/
structure Enters (N : NodeId → Prop) (s s' : State) : Prop where
  table : s.table.Grows s'.table
  basis : s.table.SameBasis s'.table
  annotations : s.annotations.Grows N s'.annotations

instance : Tolerant (Enters N) where
  refl _ := ⟨.refl, refl_of TypeTable.SameBasis _, .refl N _⟩
  trans _ _ _ h h' := ⟨h.table.trans h'.table, trans_of TypeTable.SameBasis h.basis h'.basis,
    h.annotations.trans h'.annotations⟩
  table _ _ h hbasis := ⟨h, hbasis, .refl N _⟩
  names _ _ := ⟨.refl, refl_of TypeTable.SameBasis _, .refl N _⟩

theorem Later.enters (h : Later N s s') : Enters N s s' :=
  ⟨h.table.grows, h.table.sameBasis, h.annotations⟩

theorem enters_of_later {α : Type} {x : Check α} (h : Moves (Later N) x) : Moves (Enters N) x :=
  h.mono fun _ _ => Later.enters

theorem declareStruct_enters (d : StructDef) : Moves (Enters (· = d.node)) (declareStruct d) :=
  declareStruct_moves d fun type => enters_of_later (annotate_later (N := (· = d.node)) rfl type)

theorem registerFunction_enters (d : FunctionDef) :
    Moves (Enters (· = d.node)) (registerFunction cx d) := fun s =>
  registerFunction_at (moves_of_extended (signatureOf_extended d) s) fun _ s₁ _ =>
    { bind := fun _ => enters_of_later (bindName_later _ _ _ _) s₁
      operator := ⟨.refl, refl_of TypeTable.SameBasis _, .refl _ _⟩
      member := ⟨.refl, refl_of TypeTable.SameBasis _, .refl _ _⟩
      annotate := fun s₂ _ => enters_of_later (annotate_later (N := (· = d.node)) rfl _) s₂ }

/-! ## Frames that registration opens -/

/-- No frame is open afterwards if none was before. -/
def StaysGlobal (s s' : State) : Prop := s.scope.frames = [] → s'.scope.frames = []

instance : Tolerant StaysGlobal where
  refl _ := id
  trans _ _ _ h h' := h' ∘ h
  table _ _ _ _ := id
  names _ _ := id

theorem annotate_staysGlobal (node : NodeId) (type : TypeId) :
    Moves StaysGlobal (annotate node type) := update_moves fun s s' h => by
  obtain ⟨annotations, -, rfl⟩ := annotate_eq_ok.mp (update_eq_ok (u := ()).mpr h)
  exact id

/-! ## Steps on items -/

/-- A step on an item went through, or it was undone and left a finding. -/
theorem attempt_eq_ok {α : Type} {x : Check α} {r : Except Finding α}
    (h : attempt x s = .ok (r, s')) : (∃ a, r = .ok a ∧ x s = .ok a s') ∨
      ∃ finding s₁ annotations, r = .error finding ∧ x s = .error (.error finding) s₁ ∧
        s₁.annotations.rollback s.annotations.mark = .ok annotations ∧
        s' = { s₁ with annotations, scope := s₁.scope.unwind } := by
  unfold attempt at h
  cases hx : x s with
  | ok a s₁ =>
    simp only [hx, Except.ok.injEq, Prod.mk.injEq] at h
    obtain ⟨rfl, rfl⟩ := h
    exact .inl ⟨a, rfl, rfl⟩
  | error e s₁ =>
    cases e with
    | fault cause => simp [hx] at h
    | error finding =>
      cases hback : s₁.annotations.rollback s.annotations.mark with
      | error cause => simp [hx, hback, bind, Except.bind] at h
      | ok annotations =>
        simp only [hx, hback, bind, Except.bind, pure, Except.pure, Except.ok.injEq,
          Prod.mk.injEq] at h
        obtain ⟨rfl, rfl⟩ := h
        exact .inr ⟨finding, s₁, annotations, rfl, rfl, hback, rfl⟩

/-- A step that left a finding was undone. -/
theorem attempt_eq_error {α : Type} {x : Check α} {finding : Finding}
    (h : attempt x s = .ok (.error finding, s')) : ∃ s₁ annotations,
      x s = .error (.error finding) s₁ ∧
        s₁.annotations.rollback s.annotations.mark = .ok annotations ∧
        s' = { s₁ with annotations, scope := s₁.scope.unwind } := by
  obtain ⟨_, heq, -⟩ | ⟨_, s₁, annotations, heq, herror, hback, hs'⟩ := attempt_eq_ok h
  · cases heq
  · cases heq
    exact ⟨s₁, annotations, herror, hback, hs'⟩

theorem attempt_of_ok {α : Type} {x : Check α} {a : α} (h : x s = .ok a s') :
    attempt x s = .ok (.ok a, s') := by
  unfold attempt
  rw [h]

theorem attempt_of_undone {α : Type} {x : Check α} {finding : Finding} {annotations : Annotations}
    (h : x s = .error (.error finding) s')
    (hback : s'.annotations.rollback s.annotations.mark = .ok annotations) :
    attempt x s = .ok (.error finding, { s' with annotations, scope := s'.scope.unwind }) := by
  unfold attempt
  simp [h, hback, bind, Except.bind, pure, Except.pure]

/-- A step that ends in a finding can always be undone. -/
theorem attempt_of_finding {α : Type} {x : Check α} {finding : Finding} (hx : Moves (Later N) x)
    (h : x s = .error (.error finding) s') : ∃ annotations,
      attempt x s = .ok (.error finding, { s' with annotations, scope := s'.scope.unwind }) := by
  obtain ⟨annotations, hback, -⟩ := (hx.error h).annotations.rollback
  exact ⟨annotations, attempt_of_undone h hback⟩

/-- However a step ends, the table grows, and a node that has a type afterwards had one before or
is in the set. -/
theorem attempt_enters {α : Type} {x : Check α} {r : Except Finding α}
    (hx : Moves (Enters N) x) (h : attempt x s = .ok (r, s')) :
    s.table.Grows s'.table ∧ ∀ id, s'.annotations.get? id ≠ none →
      s.annotations.get? id ≠ none ∨ N id := by
  obtain ⟨a, rfl, hok⟩ | ⟨finding, s₁, annotations, rfl, herror, hback, rfl⟩ := attempt_eq_ok h
  · have henters := hx.ok hok
    refine ⟨henters.table, fun id hid => ?_⟩
    by_cases hN : N id
    · exact .inr hN
    · exact .inl (henters.annotations.outside id hN ▸ hid)
  · have henters := hx.error herror
    obtain ⟨a, ha, -, -, hkept, -, -⟩ := henters.annotations.rollback
    obtain rfl : annotations = a := Except.ok.inj (hback.symm.trans ha)
    refine ⟨henters.table, fun id hid => .inl ?_⟩
    by_cases hauto : s.annotations.get? id = some .auto
    · simp [hauto]
    · exact hkept id hauto ▸ hid

/-- However a step ends, no primitive type is added. -/
theorem attempt_sameBasis {α : Type} {x : Check α} {r : Except Finding α}
    (hx : Moves (Enters N) x) (h : attempt x s = .ok (r, s')) : s.table.SameBasis s'.table := by
  obtain ⟨a, -, hok⟩ | ⟨finding, s₁, annotations, -, herror, -, rfl⟩ := attempt_eq_ok h
  · exact (hx.ok hok).basis
  · exact (hx.error herror).basis

/-- However a step ends, the nodes outside the set keep their types. -/
theorem attempt_outside {α : Type} {x : Check α} {r : Except Finding α}
    (hx : Moves (Enters N) x) (h : attempt x s = .ok (r, s')) :
    s'.annotations.size = s.annotations.size ∧
      ∀ id, ¬ N id → s'.annotations.get? id = s.annotations.get? id := by
  obtain ⟨a, rfl, hok⟩ | ⟨finding, s₁, annotations, rfl, herror, hback, rfl⟩ := attempt_eq_ok h
  · have henters := hx.ok hok
    exact ⟨henters.annotations.size_eq, henters.annotations.outside⟩
  · have henters := hx.error herror
    obtain ⟨a, ha, -, hsize, -, houtside, -⟩ := henters.annotations.rollback
    obtain rfl : annotations = a := Except.ok.inj (hback.symm.trans ha)
    exact ⟨hsize, houtside⟩

theorem register_eq_ok {p p' : Progress} {position : Nat} {id : NodeId} {step : Check Unit}
    (h : p.register position id step = .ok p') :
    ∃ r state, attempt step p.state = .ok (r, state) ∧
      (r = .ok () ∧ p' = { p with state } ∨ ∃ finding, r = .error finding ∧
        p' = { p with
          state
          failed := id :: p.failed
          findings := p.findings ++ [(position, finding)] }) := by
  unfold Progress.register at h
  cases hattempt : attempt step p.state with
  | error cause => simp [hattempt, bind, Except.bind] at h
  | ok outcome =>
    obtain ⟨r, state⟩ := outcome
    refine ⟨r, state, rfl, ?_⟩
    cases r with
    | ok u =>
      simp only [hattempt, bind, Except.bind, pure, Except.pure, Except.ok.injEq] at h
      exact .inl ⟨rfl, h.symm⟩
    | error finding =>
      simp only [hattempt, bind, Except.bind, pure, Except.pure, Except.ok.injEq] at h
      exact .inr ⟨finding, rfl, h.symm⟩

/-- The first three passes, which are over the structs. -/
def structsRegistered (cx : Setting) (items : List Item) (table : TypeTable) :
    Except Fault Progress := do
  let structs := items.filterMap Item.structDef?
  let p : Progress := ⟨State.start table cx.arena.size, [], [], []⟩
  let p ← p.declareStructs structs
  let p ← p.registerStructs fillStruct structs
  p.checkLayouts structs (structs.length + 1)

/-- The first four passes: everything that comes before the items are looked at. -/
def registered (cx : Setting) (items : List Item) (table : TypeTable) : Except Fault Progress := do
  let p ← structsRegistered cx items table
  p.registerFunctions cx (items.filterMap Item.functionDef?)

theorem run_eq (cx : Setting) (ids : List NodeId) (table : TypeTable) :
    run cx ids table = (itemsFrom cx.arena 0 ids >>= fun items =>
      registered cx items table >>= fun p => p.checkItems cx items) := by
  simp only [run, registered, structsRegistered, bind_assoc]

theorem run_eq_ok {ids : List NodeId} {table : TypeTable} {p : Progress} :
    run cx ids table = .ok p ↔ ∃ items q, itemsFrom cx.arena 0 ids = .ok items ∧
      registered cx items table = .ok q ∧ q.checkItems cx items = .ok p := by
  simp only [run_eq, except_bind_eq_ok]
  exact ⟨fun ⟨items, hitems, q, hq, h⟩ => ⟨items, q, hitems, hq, h⟩,
    fun ⟨items, q, hitems, hq, h⟩ => ⟨items, hitems, q, hq, h⟩⟩

/-- The steps that registration runs on items. -/
inductive RegisterStep (cx : Setting) (items : List Item) (p p' : Progress) : Prop
  | declare {position : Nat} {d : StructDef}
      (hd : (position, d) ∈ items.filterMap Item.structDef?)
      (h : p.register position d.node (declareStruct d) = .ok p')
  | fill {position : Nat} {d : StructDef}
      (hd : (position, d) ∈ items.filterMap Item.structDef?) (hnew : d.node ∉ p.failed)
      (h : p.register position d.node (fillStruct d) = .ok p')
  | layout {position : Nat} {d : StructDef}
      (hd : (position, d) ∈ items.filterMap Item.structDef?) (hnew : d.node ∉ p.failed)
      (h : p.register position d.node (checkLayout d) = .ok p')
  | function {position : Nat} {d : FunctionDef}
      (hd : (position, d) ∈ items.filterMap Item.functionDef?)
      (h : p.register position d.node (registerFunction cx d) = .ok p')

theorem declareStructs_steps {items : List Item} {defs : List (Nat × StructDef)} {p p' : Progress}
    (hdefs : ∀ d ∈ defs, d ∈ items.filterMap Item.structDef?)
    (h : p.declareStructs defs = .ok p') : ReflTransGen (RegisterStep cx items) p p' := by
  induction defs generalizing p with
  | nil =>
    cases h
    exact .refl
  | cons d defs ih =>
    obtain ⟨p₁, hfirst, hrest⟩ := except_bind_eq_ok.mp h
    exact .head (.declare (hdefs d (List.mem_cons_self ..)) hfirst)
      (ih (fun d hd => hdefs d (List.mem_cons_of_mem _ hd)) hrest)

theorem registerStructs_steps {items : List Item} {step : StructDef → Check Unit}
    {defs : List (Nat × StructDef)} {p p' : Progress}
    (hstep : ∀ {p p' position d}, (position, d) ∈ defs → d.node ∉ p.failed →
      p.register position d.node (step d) = .ok p' → RegisterStep cx items p p')
    (h : p.registerStructs step defs = .ok p') : ReflTransGen (RegisterStep cx items) p p' := by
  induction defs generalizing p with
  | nil =>
    cases h
    exact .refl
  | cons d defs ih =>
    obtain ⟨position, d⟩ := d
    have hrest := fun {p₁ : Progress} => ih (p := p₁) fun hd => hstep (List.mem_cons_of_mem _ hd)
    unfold Progress.registerStructs at h
    split at h
    · exact hrest h
    · rename_i hnew
      obtain ⟨p₁, hfirst, h⟩ := except_bind_eq_ok.mp h
      exact .head (hstep (List.mem_cons_self ..) (by simpa using hnew) hfirst) (hrest h)

theorem checkLayouts_steps {items : List Item} {rounds : Nat} {p p' : Progress}
    (h : p.checkLayouts (items.filterMap Item.structDef?) rounds = .ok p') :
    ReflTransGen (RegisterStep cx items) p p' := by
  induction rounds generalizing p with
  | zero =>
    cases h
    exact .refl
  | succ rounds ih =>
    obtain ⟨p₁, hfirst, hrest⟩ := except_bind_eq_ok.mp h
    have hsteps : ReflTransGen (RegisterStep cx items) p p₁ :=
      registerStructs_steps (fun hd hnew h => .layout hd hnew h) hfirst
    split at hrest
    · cases hrest
      exact hsteps
    · exact hsteps.trans (ih hrest)

theorem registerFunctions_steps {items : List Item} {defs : List (Nat × FunctionDef)}
    {p p' : Progress} (hdefs : ∀ d ∈ defs, d ∈ items.filterMap Item.functionDef?)
    (h : p.registerFunctions cx defs = .ok p') : ReflTransGen (RegisterStep cx items) p p' := by
  induction defs generalizing p with
  | nil =>
    cases h
    exact .refl
  | cons d defs ih =>
    obtain ⟨p₁, hfirst, hrest⟩ := except_bind_eq_ok.mp h
    exact .head (.function (hdefs d (List.mem_cons_self ..)) hfirst)
      (ih (fun d hd => hdefs d (List.mem_cons_of_mem _ hd)) hrest)

theorem structsRegistered_steps {items : List Item} {table : TypeTable} {p : Progress}
    (h : structsRegistered cx items table = .ok p) :
    ReflTransGen (RegisterStep cx items) ⟨State.start table cx.arena.size, [], [], []⟩ p := by
  obtain ⟨p₁, h₁, h⟩ := except_bind_eq_ok.mp h
  obtain ⟨p₂, h₂, h⟩ := except_bind_eq_ok.mp h
  exact ((declareStructs_steps (fun _ hd => hd) h₁).trans
    (registerStructs_steps (fun hd hnew h => .fill hd hnew h) h₂)).trans (checkLayouts_steps h)

/-- Registration is a sequence of registration steps. -/
theorem registered_steps {items : List Item} {table : TypeTable} {p : Progress}
    (h : registered cx items table = .ok p) :
    ReflTransGen (RegisterStep cx items) ⟨State.start table cx.arena.size, [], [], []⟩ p := by
  obtain ⟨p₁, hstructs, h⟩ := except_bind_eq_ok.mp h
  exact (structsRegistered_steps hstructs).trans (registerFunctions_steps (fun _ hd => hd) h)

end RuleTypes.Check
