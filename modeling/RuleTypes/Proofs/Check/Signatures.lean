import RuleTypes.Proofs.Check.Registration
import RuleTypes.Proofs.Scope

/-!
# Functions that are registered

The registration of a function finds its signature, enters it under its name and writes it down for
the node, or leaves nothing behind but types in the table (`received_of_register`). Functions are
followed one by one: when registration is over, a function has failed or has the signature that is
written in its head, what can be looked up by name stands for exactly those that have not failed,
and functions of one name that are used alike have different signatures (`enlisted_of_registered`).
-/

namespace RuleTypes

namespace TypeTable

variable {t t' : TypeTable} {id : TypeId}

/-- The type is that of a function. -/
def IsSignature (t : TypeTable) (id : TypeId) : Prop :=
  ∃ params result, t.form? id = some (.function params result)

theorem IsSignature.grows (h : t.IsSignature id) (hgrows : t.Grows t') : t'.IsSignature id := by
  obtain ⟨params, result, hform⟩ := h
  exact ⟨params, result, hgrows.form? hform rfl⟩

theorem IsSignature.ne_auto (h : t.IsSignature id) (hcanonical : t.Canonical) : id ≠ .auto := by
  rintro rfl
  obtain ⟨params, result, hform⟩ := h
  cases hform.symm.trans hcanonical.auto

end TypeTable

namespace Check

open Relation

variable {α : Type} {cx : Setting} {s s' : State} {p p' q : Progress} {items : List Item}
  {ids : List NodeId} {table : TypeTable} {d : FunctionDef} {defs : List FunctionDef}
  {name : String} {kind : FunctionKind} {signature other : TypeId} {position : Nat}

/-! ## Frames that registration leaves -/

theorem bindName_staysGlobal (name : String) (type : TypeId) (kind : BindingKind) (span : Span) :
    Moves StaysGlobal (bindName name type kind span) := fun s => by
  unfold bindName
  cases hbind : s.scope.bind name ⟨type, kind, span⟩ with
  | error existing => exact id
  | ok scope =>
    obtain ⟨hnew, rfl⟩ := Scope.bind_eq_ok.mp hbind
    exact (Scope.Gains.withBinding (W := fun _ _ => True) hnew trivial).frames_eq_nil

theorem registerFunction_staysGlobal (d : FunctionDef) :
    Moves StaysGlobal (registerFunction cx d) := fun s =>
  registerFunction_at (moves_of_extended (signatureOf_extended d) s) fun _ s₁ _ =>
    { bind := fun _ => bindName_staysGlobal _ _ _ _ s₁
      operator := id
      member := id
      annotate := fun s₂ _ => annotate_staysGlobal _ _ s₂ }

/-- However a step on an item ends, no frame is open afterwards. -/
theorem frames_of_register {id : NodeId} {x : Check Unit}
    (hx : Moves StaysGlobal x) (hframes : p.state.scope.frames = [])
    (h : p.register position id x = .ok p') : p'.state.scope.frames = [] := by
  obtain ⟨r, state, hattempt, hresult⟩ := register_eq_ok h
  have hstate : state.scope.frames = [] := by
    obtain ⟨_, -, hok⟩ | ⟨_, _, _, -, -, -, rfl⟩ := attempt_eq_ok hattempt
    · exact hx.ok hok hframes
    · rfl
  obtain ⟨-, rfl⟩ | ⟨_, -, rfl⟩ := hresult <;> exact hstate

theorem frames_of_steps
    (h : ReflTransGen (RegisterStep cx items) ⟨State.start table cx.arena.size, [], [], []⟩ p) :
    p.state.scope.frames = [] := by
  induction h with
  | refl => rfl
  | tail _ hstep ih =>
    cases hstep with
    | declare _ h =>
      exact frames_of_register (declareStruct_moves _ fun _ => annotate_staysGlobal _ _) ih h
    | fill _ _ h => exact frames_of_register (fillStruct_moves _) ih h
    | layout _ _ h => exact frames_of_register (checkLayout_moves _) ih h
    | function _ h => exact frames_of_register (registerFunction_staysGlobal _) ih h

/-! ## One function -/

/-- What is wrong with the head of a function, whatever else is defined. -/
def FunctionDef.flaw? (config : Config) (d : FunctionDef) : Option Problem :=
  match d.kind with
  | some .symbolic =>
    if !config.userOperators then some (.userOperator d.name)
    else if 1 ≤ d.params.length ∧ d.params.length ≤ 2 then none
    else some (.operatorArity d.name d.params.length)
  | some .member => if d.params.length ≠ 0 then none else some (.missingReceiver d.name)
  | some .normal | none => none

/-- Whether the function is bound under its name, like a variable. -/
def FunctionDef.isGlobal (d : FunctionDef) : Bool :=
  match d.kind with
  | some .symbolic | some .member => false
  | some .normal | none => true

/-- What the name of the function is bound to. -/
def FunctionDef.binding (d : FunctionDef) (signature : TypeId) : Binding :=
  ⟨signature, if d.kind.isNone then .foreign else .function, d.span⟩

/-- The state with one more function. -/
def State.enrolled (s : State) (d : FunctionDef) (signature : TypeId) : State :=
  match d.kind with
  | some .symbolic => s.withOperator d.name signature
  | some .member => s.withMember d.name signature
  | some .normal | none =>
    { s with scope := s.scope.withBinding d.name (d.binding signature) }

/-- The step of a registration that enters a signature, by the kind of the function. -/
def enrol (cx : Setting) (d : FunctionDef) (signature : TypeId) : Check Unit :=
  match d.kind with
  | some .symbolic => registerOperator cx d.name d.params.length signature d.span
  | some .normal => bindName d.name signature .function d.span
  | some .member => registerMember d.name d.params.length signature d.span
  | none => bindName d.name signature .foreign d.span

theorem registerFunction_eq (cx : Setting) (d : FunctionDef) :
    registerFunction cx d = (do
      let signature ← signatureOf d
      enrol cx d signature
      annotate d.node signature) := by
  obtain ⟨node, span, name, kind, params, result⟩ := d
  rcases kind with _ | _ | _ | _ <;> rfl

/-- How a function is entered: it is new, its head is wrong, or it is defined already. -/
inductive Enrols (cx : Setting) (d : FunctionDef) (signature : TypeId) (s : State) :
    EStateM.Result (Failure Finding) State Unit → Prop
  | new (hflaw : d.flaw? cx.config = none)
      (hfree : d.isGlobal = true → s.scope.current.get? d.name = none) :
      Enrols cx d signature s (.ok () (s.enrolled d signature))
  | flawed {problem : Problem} (hflaw : d.flaw? cx.config = some problem) :
      Enrols cx d signature s (.error (.error ⟨problem, d.span⟩) s)
  | clash : Enrols cx d signature s (.error (.error ⟨.redefinition d.name, d.span⟩) s)
  | fault (cause : Fault) : Enrols cx d signature s (.error (.fault cause) s)

theorem require_bind (holds : Bool) (problem : Problem) (span : Span) (f : Unit → Check α)
    (s : State) : (require holds (pure problem) span >>= f) s =
      if holds then f () s else .error (.error ⟨problem, span⟩) s := by
  cases holds <;> rfl

theorem inspect_bind {β : Type} (g : State → Except Fault β) (f : β → Check α) (s : State) :
    (inspect g >>= f) s = match g s with
      | .ok x => f x s
      | .error cause => .error (.fault cause) s := by
  cases h : g s with
  | ok x => exact bind_of_ok (inspect_eq_ok.mpr ⟨h, rfl⟩)
  | error cause => exact bind_of_error (by simp only [inspect, h])

section Kinds

variable (cx) (s) (signature)

theorem bindName_enrols {kind : BindingKind} (hglobal : d.flaw? cx.config = none)
    (henrolled : s.enrolled d signature =
      { s with scope := s.scope.withBinding d.name ⟨signature, kind, d.span⟩ }) :
    Enrols cx d signature s (bindName d.name signature kind d.span s) := by
  unfold bindName
  cases hbind : s.scope.bind d.name ⟨signature, kind, d.span⟩ with
  | ok scope =>
    obtain ⟨hfree, rfl⟩ := Scope.bind_eq_ok.mp hbind
    dsimp only
    rw [← henrolled]
    exact .new hglobal fun _ => hfree
  | error => exact .clash

theorem registerOperator_enrols (hkind : d.kind = some .symbolic) :
    Enrols cx d signature s
      (registerOperator cx d.name d.params.length signature d.span s) := by
  rw [registerOperator, require_bind]
  split
  case isFalse hconfig => exact .flawed (by simp [FunctionDef.flaw?, hkind, hconfig])
  case isTrue hconfig =>
    rw [require_bind]
    split
    case isFalse harity =>
      rw [decide_eq_true_iff] at harity
      exact .flawed (by simp only [FunctionDef.flaw?, hkind, hconfig, if_neg harity]; rfl)
    case isTrue harity =>
      rw [decide_eq_true_iff] at harity
      have hflaw : d.flaw? cx.config = none := by simp [FunctionDef.flaw?, hkind, hconfig, harity]
      have henrolled : s.enrolled d signature = s.withOperator d.name signature := by
        rw [State.enrolled, hkind]
      rw [get_bind, require_bind]
      split
      · change Enrols cx d signature s (.ok () (s.withOperator d.name signature))
        rw [← henrolled]
        exact .new hflaw (by simp [FunctionDef.isGlobal, hkind])
      · exact .clash

theorem registerMember_enrols (hkind : d.kind = some .member) :
    Enrols cx d signature s (registerMember d.name d.params.length signature d.span s) := by
  rw [registerMember, require_bind]
  split
  case isFalse harity =>
    rw [decide_eq_true_iff] at harity
    exact .flawed (by simp only [FunctionDef.flaw?, hkind, if_neg harity])
  case isTrue harity =>
    rw [decide_eq_true_iff] at harity
    have hflaw : d.flaw? cx.config = none := by simp [FunctionDef.flaw?, hkind, harity]
    have henrolled : s.enrolled d signature = s.withMember d.name signature := by
      rw [State.enrolled, hkind]
    rw [get_bind, formOf, inspect_bind]
    cases s.table.form signature with
    | error cause => exact .fault cause
    | ok form =>
      dsimp only
      rw [inspect_bind]
      cases ((s.members.get? d.name).getD []).mapM s.table.form with
      | error cause => exact .fault cause
      | ok others =>
        dsimp only
        rw [require_bind]
        split
        · change Enrols cx d signature s (.ok () (s.withMember d.name signature))
          rw [← henrolled]
          exact .new hflaw (by simp [FunctionDef.isGlobal, hkind])
        · exact .clash

theorem enrol_enrols (d : FunctionDef) :
    Enrols cx d signature s (enrol cx d signature s) := by
  unfold enrol
  cases hkind : d.kind with
  | none =>
    exact bindName_enrols cx s signature (by rw [FunctionDef.flaw?, hkind])
      (by simp [State.enrolled, FunctionDef.binding, hkind])
  | some kind =>
    cases kind with
    | normal =>
      exact bindName_enrols cx s signature (by rw [FunctionDef.flaw?, hkind])
        (by simp [State.enrolled, FunctionDef.binding, hkind])
    | symbolic => exact registerOperator_enrols cx s signature hkind
    | member => exact registerMember_enrols cx s signature hkind

end Kinds

/-- How the function is used. One that is defined elsewhere is used like one of no special kind. -/
def FunctionDef.use (d : FunctionDef) : FunctionKind := d.kind.getD .normal

/-- The type that is written in the head of the function. -/
def FunctionDef.written (d : FunctionDef) : TypeExpr := .function (d.params.map (·.2)) d.result

/-- The signatures that can be looked up under a name, by the use of the functions. -/
def State.signatures (s : State) (name : String) : FunctionKind → List TypeId
  | .normal => (s.scope.globals.get? name).toList.map (·.type)
  | .symbolic => (s.operators.get? name).getD []
  | .member => (s.members.get? name).getD []

/-- A function that is entered was not there before. -/
theorem notMem_signatures_of_enrol (hframes : s.scope.frames = []) {u : Unit}
    (h : enrol cx d signature s = .ok u s') : signature ∉ s.signatures d.name d.use := by
  have hunbound : ∀ {kind : BindingKind}, bindName d.name signature kind d.span s = .ok u s' →
      signature ∉ s.signatures d.name .normal := by
    intro kind h
    obtain ⟨scope, hbind, -⟩ := bindName_eq_ok.mp h
    obtain ⟨hfree, -⟩ := Scope.bind_eq_ok.mp hbind
    rw [Scope.current_of_global hframes] at hfree
    simp [State.signatures, hfree]
  unfold enrol at h
  unfold FunctionDef.use
  cases hkind : d.kind with
  | none =>
    rw [hkind] at h
    exact hunbound h
  | some kind =>
    rw [hkind] at h
    cases kind with
    | normal => exact hunbound h
    | symbolic => exact (registerOperator_eq_ok h).1
    | member => exact (registerMember_eq_ok h).1

/-! ## The registration of a function -/

/-- What the registration of a function that is not defined already comes to: the signature, or the
finding that it ends in, and the table that it leaves behind. -/
inductive Receives (cx : Setting) (d : FunctionDef) (s : State) :
    Except Finding TypeId → TypeTable → Prop
  | accepted {signature : TypeId} {table : TypeTable}
      (hsignature : signatureOf d s = .ok signature { s with table })
      (hflaw : d.flaw? cx.config = none)
      (hfree : d.isGlobal = true → s.scope.current.get? d.name = none)
      (hnew : signature ∉ s.signatures d.name d.use) : Receives cx d s (.ok signature) table
  | unclear {finding : Finding} {table : TypeTable}
      (hsignature : signatureOf d s = .error (.error finding) { s with table }) :
      Receives cx d s (.error finding) table
  | flawed {signature : TypeId} {table : TypeTable} {problem : Problem}
      (hsignature : signatureOf d s = .ok signature { s with table })
      (hflaw : d.flaw? cx.config = some problem) :
      Receives cx d s (.error ⟨problem, d.span⟩) table

/-- What is left of the registration of a function. -/
inductive Received (position : Nat) (d : FunctionDef) (table : TypeTable) (p : Progress) :
    Except Finding TypeId → Progress → Prop
  | accepted {signature : TypeId} {annotations : Annotations}
      (hset : p.state.annotations.set d.node signature = .ok annotations) :
      Received position d table p (.ok signature)
        { p with state := { p.state.enrolled d signature with table, annotations } }
  | refused (finding : Finding) :
      Received position d table p (.error finding)
        { p with
          state := { p.state with table }
          failed := d.node :: p.failed
          findings := p.findings ++ [(position, finding)] }

theorem annotations_enrolled (s : State) (d : FunctionDef) (signature : TypeId) :
    (s.enrolled d signature).annotations = s.annotations := by
  unfold State.enrolled
  cases d.kind with
  | none => rfl
  | some kind => cases kind <;> rfl

theorem enrolled_with (s : State) (d : FunctionDef) (signature : TypeId) (table : TypeTable)
    (annotations : Annotations) : ({ s with table, annotations } : State).enrolled d signature =
      { s.enrolled d signature with table, annotations } := by
  unfold State.enrolled
  cases d.kind with
  | none => rfl
  | some kind => cases kind <;> rfl

/-- What the registration of a function comes to, whether it is defined already or not. -/
theorem received_of_register (hframes : p.state.scope.frames = [])
    (h : p.register position d.node (registerFunction cx d) = .ok p') :
    ∃ r table, p.state.table.Extends table ∧ Received position d table p r p' ∧
      (r = .error ⟨.redefinition d.name, d.span⟩ ∨ Receives cx d p.state r table) := by
  obtain ⟨r, state, hattempt, hresult⟩ := register_eq_ok h
  have hunwind : ∀ {s : State}, s.scope.frames = [] → s.scope.unwind = s.scope := by
    rintro ⟨_, ⟨frames, globals⟩, _, _, _, _⟩ (rfl : frames = [])
    rfl
  -- a step that ends before the node is annotated leaves the table behind
  have hundone : ∀ {finding table}, registerFunction cx d p.state =
      .error (.error finding) { p.state with table } →
      p' = { p with
        state := { p.state with table }
        failed := d.node :: p.failed
        findings := p.findings ++ [(position, finding)] } := by
    intro finding table hstep
    have hback := attempt_of_undone hstep (Annotations.rollback_mark p.state.annotations)
    obtain ⟨rfl, rfl⟩ := Prod.mk.inj (Except.ok.inj (hattempt.symm.trans hback))
    obtain ⟨hok, -⟩ | ⟨_, heq, rfl⟩ := hresult
    · cases hok
    · cases heq
      rw [hunwind hframes]
  rw [registerFunction_eq] at hundone hattempt
  cases hsignature : signatureOf d p.state with
  | error e s₁ =>
    obtain ⟨table, hextends, rfl⟩ := (signatureOf_extended d).error hsignature
    rw [bind_of_error hsignature] at hundone
    cases e with
    | fault cause => simp [attempt, bind_of_error hsignature] at hattempt
    | error finding =>
      obtain rfl := hundone rfl
      exact ⟨_, table, hextends, .refused finding, .inr (.unclear hsignature)⟩
  | ok signature s₁ =>
    obtain ⟨table, hextends, rfl⟩ := (signatureOf_extended d).ok hsignature
    rw [bind_of_ok hsignature] at hundone
    have henrols := enrol_enrols cx { p.state with table } signature d
    revert henrols
    generalize henrol : enrol cx d signature { p.state with table } = result
    intro henrols
    cases henrols with
    | clash =>
      rw [bind_of_error henrol] at hundone
      obtain rfl := hundone rfl
      exact ⟨_, table, hextends, .refused _, .inl rfl⟩
    | flawed hflaw =>
      rw [bind_of_error henrol] at hundone
      obtain rfl := hundone rfl
      exact ⟨_, table, hextends, .refused _, .inr (.flawed hsignature hflaw)⟩
    | fault cause => simp [attempt, bind_of_ok hsignature, bind_of_error henrol] at hattempt
    | new hflaw hfree =>
      obtain ⟨u, rfl, hok⟩ | ⟨finding, _, _, -, herror, -⟩ := attempt_eq_ok hattempt
      · rw [bind_of_ok hsignature, bind_of_ok henrol] at hok
        obtain ⟨annotations, hset, rfl⟩ := annotate_eq_ok.mp hok
        obtain ⟨-, rfl⟩ | ⟨_, heq, -⟩ := hresult
        · refine ⟨_, table, hextends, ?_, .inr (.accepted hsignature hflaw hfree
            (notMem_signatures_of_enrol (s := { p.state with table }) hframes henrol))⟩
          rw [annotations_enrolled] at hset
          rw [enrolled_with p.state d signature table p.state.annotations]
          exact .accepted hset
        · cases heq
      · -- writing down a type ends in no finding
        rw [bind_of_ok hsignature, bind_of_ok henrol] at herror
        exact absurd herror (by simp [annotate, update]; split <;> simp)

/-! ## Signatures that can be looked up -/

/-- The signature of a function is what is written in its head. -/
theorem denotes_of_signatureOf (h : signatureOf d s = .ok signature s') :
    d.written.Denotes s.names s'.table signature := by
  obtain ⟨params, s₁, hparams, h⟩ := bind_eq_ok.mp h
  rw [resolveParams_eq] at hparams
  obtain ⟨table, hresolve, rfl⟩ := onTable_eq_ok.mp hparams
  have hparams := (TypeExpr.resolveAll_means _ hresolve).1
  unfold FunctionDef.written
  cases hwritten : d.result with
  | none =>
    simp only [hwritten] at h
    obtain ⟨result, s₂, hresult, h⟩ := bind_eq_ok.mp h
    obtain ⟨rfl, rfl⟩ := pure_eq_ok.mp hresult
    obtain ⟨table', hintern, rfl⟩ := onTable_eq_ok.mp h
    have hextends : table.Extends table' := (TypeTable.internFunction_moves _ _).ok hintern
    exact .function (hparams.grows hextends.grows) (.inl ⟨rfl, rfl⟩)
      (TypeTable.form?_of_internFunction hintern)
  | some written =>
    simp only [hwritten] at h
    obtain ⟨result, s₂, hresult, h⟩ := bind_eq_ok.mp h
    obtain ⟨table₂, hresolve', rfl⟩ := resolveConcrete_eq_ok.mp hresult
    obtain ⟨table', hintern, rfl⟩ := onTable_eq_ok.mp h
    have hextends₂ : table.Extends table₂ := (TypeExpr.resolveConcrete_moves _ _).ok hresolve'
    have hextends : table₂.Extends table' := (TypeTable.internFunction_moves _ _).ok hintern
    have hresult := (TypeExpr.resolveConcrete_means written hresolve').1
    exact .function (hparams.grows (hextends₂.trans hextends).grows)
      (.inr ⟨written, rfl, hresult.grows hextends.grows⟩)
      (TypeTable.form?_of_internFunction hintern)

theorem mem_signatures_withBinding {own : String} {binding : Binding}
    (hframes : s.scope.frames = []) (hnew : s.scope.current.get? own = none) :
    other ∈ ({ s with scope := s.scope.withBinding own binding } : State).signatures name kind ↔
      other ∈ s.signatures name kind ∨ own = name ∧ .normal = kind ∧ binding.type = other := by
  rw [Scope.current_of_global hframes] at hnew
  rw [Scope.withBinding_of_global hframes]
  cases kind with
  | symbolic | member => simp [State.signatures]
  | normal =>
    by_cases hname : own = name
    · subst hname
      simp [State.signatures, hnew, eq_comm]
    · simp [State.signatures, NameMap.get?_insert, hname, Ne.symm hname]

theorem mem_signatures_withOperator {symbol : String} :
    other ∈ (s.withOperator symbol signature).signatures name kind ↔
      other ∈ s.signatures name kind ∨ symbol = name ∧ .symbolic = kind ∧ signature = other := by
  cases kind with
  | normal | member => simp [State.signatures, State.withOperator]
  | symbolic =>
    by_cases hname : symbol = name
    · subst hname
      simp [State.signatures, State.withOperator, eq_comm]
    · simp [State.signatures, State.withOperator, NameMap.get?_insert, hname, Ne.symm hname]

theorem mem_signatures_withMember {own : String} :
    other ∈ (s.withMember own signature).signatures name kind ↔
      other ∈ s.signatures name kind ∨ own = name ∧ .member = kind ∧ signature = other := by
  cases kind with
  | normal | symbolic => simp [State.signatures, State.withMember]
  | member =>
    by_cases hname : own = name
    · subst hname
      simp [State.signatures, State.withMember, eq_comm]
    · simp [State.signatures, State.withMember, NameMap.get?_insert, hname, Ne.symm hname]

/-- A function that is entered can be looked up under its name, and nothing else changes. -/
theorem mem_signatures_enrolled (hframes : s.scope.frames = [])
    (hfree : d.isGlobal = true → s.scope.current.get? d.name = none) :
    other ∈ (s.enrolled d signature).signatures name kind ↔
      other ∈ s.signatures name kind ∨ d.name = name ∧ d.use = kind ∧ signature = other := by
  unfold State.enrolled FunctionDef.use
  unfold FunctionDef.isGlobal at hfree
  cases hkind : d.kind with
  | none =>
    rw [hkind] at hfree
    exact mem_signatures_withBinding hframes (hfree rfl)
  | some use =>
    rw [hkind] at hfree
    cases use with
    | normal => exact mem_signatures_withBinding hframes (hfree rfl)
    | symbolic => exact mem_signatures_withOperator
    | member => exact mem_signatures_withMember

theorem names_enrolled (s : State) (d : FunctionDef) (signature : TypeId) :
    (s.enrolled d signature).names = s.names := by
  unfold State.enrolled
  cases d.kind with
  | none => rfl
  | some kind => cases kind <;> rfl

/-! ## The pass over the functions -/

/-- A registration changes nothing about what failed, or the item fails with one finding. -/
theorem failed_of_register {position : Nat} {node : NodeId} {x : Check Unit}
    (h : p.register position node x = .ok p') :
    p'.failed = p.failed ∧ p'.findings = p.findings ∨
      ∃ finding, p'.failed = node :: p.failed ∧
        p'.findings = p.findings ++ [(position, finding)] := by
  obtain ⟨r, state, -, ⟨-, rfl⟩ | ⟨finding, -, rfl⟩⟩ := register_eq_ok h
  · exact .inl ⟨rfl, rfl⟩
  · exact .inr ⟨finding, rfl, rfl⟩

theorem failed_iff_of_registerFunctions {defs : List (Nat × FunctionDef)} {node : NodeId}
    (hnode : ∀ d ∈ defs, d.2.node ≠ node) (h : p.registerFunctions cx defs = .ok p') :
    node ∈ p'.failed ↔ node ∈ p.failed := by
  induction defs generalizing p with
  | nil =>
    cases h
    exact Iff.rfl
  | cons first defs ih =>
    obtain ⟨hfirst, hdefs⟩ := List.forall_mem_cons.mp hnode
    obtain ⟨p₁, hregister, h⟩ := except_bind_eq_ok.mp h
    rw [ih hdefs h]
    obtain ⟨hfailed, -⟩ | ⟨_, hfailed, -⟩ := failed_of_register hregister
    · rw [hfailed]
    · simp [hfailed, hfirst.symm]

/-- What holds while functions are registered; `defs` are those that were looked at. -/
structure Enlisted (defs : List FunctionDef) (p : Progress) : Prop where
  frames : p.state.scope.frames = []
  refused : ∀ d ∈ defs, d.node ∈ p.failed → p.state.annotations.get? d.node = none
  written : ∀ d ∈ defs, d.node ∉ p.failed → ∃ signature,
    p.state.annotations.get? d.node = some signature ∧ p.state.table.IsSignature signature ∧
      d.written.Denotes p.state.names p.state.table signature
  listed : ∀ name kind signature, signature ∈ p.state.signatures name kind ↔
    ∃ d ∈ defs, d.node ∉ p.failed ∧ d.name = name ∧ d.use = kind ∧
      p.state.annotations.get? d.node = some signature
  apart : ∀ d ∈ defs, ∀ e ∈ defs, d.node ≠ e.node → d.node ∉ p.failed → e.node ∉ p.failed →
    d.name = e.name → d.use = e.use →
      p.state.annotations.get? d.node ≠ p.state.annotations.get? e.node

section Step

variable (h : Enlisted defs p) (hdistinct : ∀ e ∈ defs, e.node ≠ d.node)
  (hextends : p.state.table.Extends table)

include h hdistinct hextends

/-- A function that is entered joins the others. -/
theorem Enlisted.accept {annotations : Annotations} (hnew : d.node ∉ p.failed)
    (hframes : (p.state.enrolled d signature).scope.frames = [])
    (hset : p.state.annotations.set d.node signature = .ok annotations)
    (hreceives : Receives cx d p.state (.ok signature) table) : Enlisted (defs ++ [d])
      { p with state := { p.state.enrolled d signature with table, annotations } } := by
  obtain @⟨_, _, hsignature, -, hfree, hunlisted⟩ := hreceives
  have hsplit : ∀ {e}, e ∈ defs ++ [d] → e ∈ defs ∨ e = d := fun he =>
    (List.mem_append.mp he).imp_right List.mem_singleton.mp
  have hown : annotations.get? d.node = some signature :=
    (Annotations.get?_of_set hset d.node).trans (if_pos rfl)
  have hothers : ∀ e ∈ defs, annotations.get? e.node = p.state.annotations.get? e.node :=
    fun e he => (Annotations.get?_of_set hset e.node).trans (if_neg (hdistinct e he))
  -- the signature is not that of a function that was there before
  have hclash : ∀ e ∈ defs, e.node ∉ p.failed → e.name = d.name → e.use = d.use →
      annotations.get? e.node ≠ annotations.get? d.node := by
    intro e he hfailed hname huse heq
    rw [hothers e he, hown] at heq
    exact hunlisted ((h.listed _ _ _).mpr ⟨e, he, hfailed, hname, huse, heq⟩)
  refine ⟨hframes, fun e he hfailed => ?_, fun e he hfailed => ?_, fun name kind other => ?_,
    fun e he e' he' hne hfailed hfailed' hname huse => ?_⟩
  · obtain he | rfl := hsplit he
    · exact (hothers e he).trans (h.refused e he hfailed)
    · exact absurd hfailed hnew
  · dsimp only
    rw [names_enrolled]
    obtain he | rfl := hsplit he
    · obtain ⟨found, hfound, hform, hdenotes⟩ := h.written e he hfailed
      exact ⟨found, (hothers e he).trans hfound, hform.grows hextends.grows,
        hdenotes.grows hextends.grows⟩
    · exact ⟨signature, hown, form?_of_signatureOf hsignature, denotes_of_signatureOf hsignature⟩
  · refine (mem_signatures_enrolled h.frames hfree).trans ?_
    rw [h.listed]
    constructor
    · rintro (⟨e, he, hfailed, hname, huse, hfound⟩ | ⟨hname, huse, rfl⟩)
      · exact ⟨e, List.mem_append_left _ he, hfailed, hname, huse, (hothers e he).trans hfound⟩
      · exact ⟨d, List.mem_append_right _ (List.mem_singleton.mpr rfl), hnew, hname, huse, hown⟩
    · rintro ⟨e, he, hfailed, hname, huse, hfound⟩
      obtain he | rfl := hsplit he
      · exact .inl ⟨e, he, hfailed, hname, huse, (hothers e he).symm.trans hfound⟩
      · exact .inr ⟨hname, huse, Option.some.inj (hown.symm.trans hfound)⟩
  · obtain hold | rfl := hsplit he
    · obtain hold' | rfl := hsplit he'
      · dsimp only
        rw [hothers e hold, hothers e' hold']
        exact h.apart e hold e' hold' hne hfailed hfailed' hname huse
      · exact hclash e hold hfailed hname huse
    · obtain hold' | rfl := hsplit he'
      · exact (hclash e' hold' hfailed' hname.symm huse.symm).symm
      · exact absurd rfl hne

/-- A function that fails leaves the others as they are. -/
theorem Enlisted.refuse {findings : List (Nat × Finding)}
    (hslot : p.state.annotations.get? d.node = none) : Enlisted (defs ++ [d])
      { p with state := { p.state with table }, failed := d.node :: p.failed, findings } := by
  have hothers : ∀ {e}, e ∈ defs ++ [d] → e.node ∉ d.node :: p.failed →
      e ∈ defs ∧ e.node ∉ p.failed := by
    intro e he hfailed
    rw [List.mem_cons, not_or] at hfailed
    refine ⟨(List.mem_append.mp he).resolve_right fun hlast => hfailed.1 ?_, hfailed.2⟩
    rw [List.mem_singleton.mp hlast]
  refine ⟨h.frames, fun e he hfailed => ?_, fun e he hfailed => ?_, fun name kind other =>
    (h.listed _ _ _).trans ⟨?_, ?_⟩, fun e he e' he' hne hfailed hfailed' => ?_⟩
  · obtain he | he := List.mem_append.mp he
    · exact h.refused e he ((List.mem_cons.mp hfailed).resolve_left (hdistinct e he))
    · exact List.mem_singleton.mp he ▸ hslot
  · obtain ⟨he, hfailed⟩ := hothers he hfailed
    obtain ⟨found, hfound, hform, hdenotes⟩ := h.written e he hfailed
    exact ⟨found, hfound, hform.grows hextends.grows, hdenotes.grows hextends.grows⟩
  · rintro ⟨e, he, hfailed, hrest⟩
    refine ⟨e, List.mem_append_left _ he, fun hmem => hfailed ?_, hrest⟩
    exact (List.mem_cons.mp hmem).resolve_left (hdistinct e he)
  · rintro ⟨e, he, hfailed, hrest⟩
    obtain ⟨he, hfailed⟩ := hothers he hfailed
    exact ⟨e, he, hfailed, hrest⟩
  · obtain ⟨he, hfailed⟩ := hothers he hfailed
    obtain ⟨he', hfailed'⟩ := hothers he' hfailed'
    exact h.apart e he e' he' hne hfailed hfailed'

end Step

/-- The step for one function. -/
theorem Enlisted.register (h : Enlisted defs p) (hdistinct : ∀ e ∈ defs, e.node ≠ d.node)
    (hslot : p.state.annotations.get? d.node = none) (hnew : d.node ∉ p.failed)
    (hregister : p.register position d.node (registerFunction cx d) = .ok p') :
    Enlisted (defs ++ [d]) p' := by
  have hframes := frames_of_register (registerFunction_staysGlobal d) h.frames hregister
  obtain ⟨r, table, hextends, hreceived, hways⟩ := received_of_register h.frames hregister
  cases hreceived with
  | accepted hset =>
    obtain heq | hreceives := hways
    · cases heq
    · exact h.accept hdistinct hextends hnew hframes hset hreceives
  | refused finding => exact h.refuse hdistinct hextends hslot

/-- The pass over the functions. -/
theorem Enlisted.registerFunctions {rest : List (Nat × FunctionDef)} (h : Enlisted defs p)
    (hapart : ∀ e ∈ defs, ∀ d ∈ rest, e.node ≠ d.2.node) (hnodup : (rest.map (·.2.node)).Nodup)
    (hnew : ∀ d ∈ rest, p.state.annotations.get? d.2.node = none ∧ d.2.node ∉ p.failed)
    (hok : p.registerFunctions cx rest = .ok p') : Enlisted (defs ++ rest.map (·.2)) p' := by
  induction rest generalizing defs p with
  | nil =>
    cases hok
    simpa using h
  | cons first rest ih =>
    obtain ⟨p₁, hfirst, hrest⟩ := except_bind_eq_ok.mp hok
    rw [List.map_cons, List.nodup_cons] at hnodup
    have hothers : ∀ d ∈ rest, first.2.node ≠ d.2.node := fun d hd heq =>
      hnodup.1 (heq ▸ List.mem_map_of_mem hd)
    obtain ⟨hslot, hfirstNew⟩ := hnew first (List.mem_cons_self ..)
    have hstep := h.register (fun e he => hapart e he first (List.mem_cons_self ..)) hslot
      hfirstNew hfirst
    rw [List.map_cons, ← List.singleton_append, ← List.append_assoc]
    refine ih hstep (fun e he d hd => ?_) hnodup.2 (fun d hd => ?_) hrest
    · obtain he | he := List.mem_append.mp he
      · exact hapart e he d (List.mem_cons_of_mem _ hd)
      · exact List.mem_singleton.mp he ▸ hothers d hd
    · obtain ⟨hslot, hnew⟩ := hnew d (List.mem_cons_of_mem _ hd)
      refine ⟨((functionsEntered_of_register hfirst).outside d.2.node ?_).trans hslot, ?_⟩
      · exact List.forall_mem_singleton.mpr (hothers d hd)
      · obtain ⟨hfailed, -⟩ | ⟨_, hfailed, -⟩ := failed_of_register hfirst
        · rwa [hfailed]
        · simp [hfailed, hnew, (hothers d hd).symm]

/-- While structs are registered, no function fails. -/
theorem notMem_failed_of_functionDef? (hcanonical : table.Canonical) (hids : ids.Nodup)
    (hitems : itemsFrom cx.arena 0 ids = .ok items) {names : Names}
    (h : Standing (Roster.ofItems hcanonical hids hitems) names p) {d : Nat × FunctionDef}
    (hd : d ∈ items.filterMap Item.functionDef?) : d.2.node ∉ p.failed := by
  intro hfailed
  obtain ⟨e, he, hnode⟩ := h.recorded.failed _ hfailed
  exact node_ne_of_defs hitems he hd hnode

/-- **When registration is over**, the functions that have not failed have the signatures that are
written in their heads, and can be looked up by name. -/
theorem enlisted_of_registered (hcanonical : table.Canonical) (hids : ids.Nodup)
    (hitems : itemsFrom cx.arena 0 ids = .ok items) (h : registered cx items table = .ok q) :
    Enlisted ((items.filterMap Item.functionDef?).map (·.2)) q := by
  obtain ⟨names, p, -, hsettled, hfunctions⟩ :=
    settled_of_registered hcanonical hids hitems h
  have hstanding := hsettled.built.standing
  have hsteady := hstanding.steady
  have hstart : Enlisted [] p := by
    refine ⟨by rw [hsteady.scope]; rfl, List.forall_mem_nil _, List.forall_mem_nil _,
      fun name kind signature => ?_, List.forall_mem_nil _⟩
    refine iff_of_false ?_ (by simp)
    cases kind with
    | normal =>
      simp only [State.signatures, hsteady.scope]
      exact List.not_mem_nil
    | symbolic =>
      simp only [State.signatures, hsteady.operators]
      exact List.not_mem_nil
    | member =>
      simp only [State.signatures, hsteady.members]
      exact List.not_mem_nil
  refine hstart.registerFunctions (List.forall_mem_nil _) ?_ (fun d hd => ?_) hfunctions
  · exact nodup_defs (fun h => (node_of_functionDef? h).2) ((itemsFrom_eq_ok hitems).1 ▸ hids)
  · exact ⟨(free_of_functionDef? hcanonical hids hitems hstanding hd).1,
      notMem_failed_of_functionDef? hcanonical hids hitems hstanding hd⟩

end Check

end RuleTypes
