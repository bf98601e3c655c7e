import RuleTypes.Proofs.Check.Globals
import RuleTypes.Proofs.Check.Upheld
import RuleTypes.Proofs.TypeTable.Solid

/-!
# Names are bound to proper types

`auto` stands for a type that is not known yet, and `noValue` for none. A check keeps both out of
the table, the names of structs and the scope (`State.Solid`). An expression may well have no value,
so inference answers with anything but `auto` (`solid_sustains`); the rules that make something out
of such an answer ask for a value first. So all states that a check passes through are solid
(`PassesThrough.solid`), those in the middle of a function included.
-/

namespace RuleTypes

/-- Literals have proper types. -/
structure Operators.IsProper (ops : Operators) : Prop where
  number : ops.number.IsProper
  string : ops.string.IsProper

namespace Check

variable {α : Type} {cx : Setting} {infer infer' : Infer} {s s' : State} {span : Span}

/-! ## Steps -/

/-- The table is solid, and what is named or bound is a proper type. -/
structure State.Solid (s : State) : Prop where
  table : s.table.Solid
  named : ∀ name id, s.names.get? name = some id → id.IsProper
  bound : ∀ binding, s.scope.Contains binding → binding.type.IsProper

section Steps

variable {I : State → Prop}

theorem onTable_upholds {ε : Type} {problemOf : ε → Except Fault Problem} {Q : α → Prop}
    {x : TableM ε α} (h : Upholds TypeTable.Solid Q x) :
    Upholds State.Solid Q (onTable problemOf span x) := by
  intro s hs
  refine ⟨rfl, ?_, fun a s' hok => ?_⟩
  · have hend := h.endState hs.table
    unfold onTable
    revert hend
    cases x s.table with
    | ok a table => exact fun hend => { hs with table := hend }
    | error e table =>
      cases e with
      | fault cause => exact fun hend => { hs with table := hend }
      | error cause =>
        intro hend
        dsimp only
        cases problemOf cause <;> exact { hs with table := hend }
  · obtain ⟨table, hx, -⟩ := onTable_eq_ok.mp hok
    exact (h.ok hs.table hx).2

theorem resolve_upholds (type : TypeExpr) (span : Span) :
    Upholds State.Solid (fun id => id = .auto ∨ id.IsProper) (resolve type span) :=
  fun s hs => onTable_upholds (TypeExpr.resolve_upholds hs.named type) s hs

theorem resolveConcrete_upholds (type : TypeExpr) (span : Span) :
    Upholds State.Solid TypeId.IsProper (resolveConcrete type span) :=
  fun s hs => onTable_upholds (TypeExpr.resolveConcrete_upholds hs.named type) s hs

theorem formOf_upholds (id : TypeId) : Upholds State.Solid Form.Solid (formOf id) :=
  .of_reads (formOf_moves id) fun _ form hs h => hs.table.forms id form (formOf_eq_ok.mp h).1

theorem resultOf_upholds (signature : TypeId) :
    Upholds State.Solid (· ≠ .auto) (resultOf signature) :=
  .of_reads (resultOf_moves signature) fun s result hs h => by
    obtain ⟨⟨params, hform⟩, -⟩ := resultOf_eq_ok.mp h
    exact (hs.table.forms signature _ hform).result_ne_auto

/-- The fields that a struct offers have proper types. -/
theorem structOf_upholds (id : TypeId) : Upholds State.Solid
    (fun found => ∀ owner fields, found = some (owner, fields) → ∀ field type,
      fields.lookup field = some type → TypeId.IsProper type)
    (inspect fun s => s.table.structOf id) := by
  refine .of_reads (inspect_moves _) fun s found hs h => ?_
  rintro owner fields rfl field type hlookup
  have hfield : ∀ {id}, s.table.HasField id field type → type.IsProper := by
    rintro id ⟨form, fields, hform, hfields, hlookup⟩
    obtain ⟨before, after, rfl, -⟩ := List.lookup_eq_some_iff.mp hlookup
    exact (hs.table.forms id form hform).isProper_field hfields (field, type) (by simp)
  obtain h | ⟨target, -, h⟩ := TypeTable.offers_of_structOf (inspect_eq_ok.mp h).1 hlookup <;>
    exact hfield h

theorem lookup_upholds (name : String) : Upholds State.Solid
    (fun found => ∀ binding, found = some binding → TypeId.IsProper binding.type) (lookup name) :=
  .of_reads (lookup_moves name) fun _ _ hs h binding heq =>
    hs.bound binding (Scope.contains_of_lookup ((lookup_eq_ok.mp h).1.trans heq))

theorem update_upholds {f : State → Except Fault State} (h : ∀ s s', I s → f s = .ok s' → I s') :
    Upholds I (fun _ => True) (update f) := by
  intro s hs
  refine ⟨rfl, ?_, fun _ _ _ => trivial⟩
  unfold update
  cases hf : f s with
  | ok s' => exact h s s' hs hf
  | error cause => exact hs

theorem annotate_upholds (id : NodeId) (type : TypeId) :
    Upholds State.Solid (fun _ => True) (annotate id type) := update_upholds fun s s' hs h => by
  obtain ⟨annotations, -, rfl⟩ := annotate_eq_ok.mp (update_eq_ok (u := ()).mpr h)
  exact { hs with }

theorem annotateProvisional_upholds (id : NodeId) :
    Upholds State.Solid (fun _ => True) (annotateProvisional id) :=
  update_upholds fun s s' hs h => by
    obtain ⟨annotations, -, rfl⟩ := annotateProvisional_eq_ok.mp (update_eq_ok (u := ()).mpr h)
    exact { hs with }

theorem openFrame_upholds (kind : FrameKind) :
    Upholds State.Solid (fun _ => True) (openFrame kind) := update_upholds fun s s' hs h => by
  obtain ⟨scope, hpush, rfl⟩ := openFrame_eq_ok.mp (update_eq_ok (u := ()).mpr h)
  exact { hs with bound := fun binding hbinding => hs.bound binding (hbinding.of_push hpush) }

theorem closeFrame_upholds : Upholds State.Solid (fun _ => True) closeFrame :=
  update_upholds fun s s' hs h => by
    obtain ⟨scope, hpop, rfl⟩ := closeFrame_eq_ok.mp (update_eq_ok (u := ()).mpr h)
    exact { hs with bound := fun binding hbinding => hs.bound binding (hbinding.of_pop hpop) }

theorem bindName_upholds (name : String) {type : TypeId} (htype : type.IsProper)
    (kind : BindingKind) (span : Span) :
    Upholds State.Solid (fun _ => True) (bindName name type kind span) := by
  intro s hs
  refine ⟨rfl, ?_, fun _ _ _ => trivial⟩
  unfold bindName
  cases hbind : s.scope.bind name ⟨type, kind, span⟩ with
  | error existing => exact hs
  | ok scope =>
    obtain ⟨-, rfl⟩ := Scope.bind_eq_ok.mp hbind
    refine { hs with bound := fun binding hbinding => ?_ }
    obtain rfl | hbinding := hbinding.of_withBinding
    · exact htype
    · exact hs.bound binding hbinding

end Steps

/-! ## Rules -/

theorem inferIdentifier_upholds (name : String) (span : Span) :
    Upholds State.Solid (· ≠ .auto) (inferIdentifier name span) := by
  refine .bind (lookup_upholds name) fun found hfound => ?_
  cases found with
  | some binding => exact .pure (hfound binding rfl).ne_auto
  | none => exact report_upholds _ _

theorem applyValue_upholds (calleeType : TypeId) (callee : NodeId) (args : List NodeId)
    (argTypes : List TypeId) :
    Upholds State.Solid (· ≠ .auto) (applyValue cx calleeType callee args argTypes) :=
  .of_reads (applyValue_moves _ _ _ _) fun _ _ hs h =>
    (hs.table.forms _ _ (applyValue_eq_ok h).1).result_ne_auto

theorem reportFlaw_upholds {Q : α → Prop} (owner : TypeId) (fieldCount : Nat) (members : Members)
    (position : Nat) (flaw : MemberFlaw) (span : Span) :
    Upholds State.Solid Q (reportFlaw cx owner fieldCount members position flaw span) := by
  unfold reportFlaw
  split
  · exact .throw _
  · refine .bind (.reads (nodeOf_moves _ _)) fun _ _ => ?_
    cases flaw with
    | unknownField | tooMany | repeated =>
      exact .bind (.reads (textOf_moves _)) fun _ _ => report_upholds _ _
    | mismatch =>
      exact .bind (.reads (textOf_moves _)) fun _ _ => .bind (.reads (textOf_moves _)) fun _ _ =>
        report_upholds _ _

theorem inferTyped_upholds (type : TypeExpr) (members : Members) (memberTypes : List TypeId)
    (span : Span) : Upholds State.Solid TypeId.IsProper
      (inferTyped cx type members memberTypes span) := by
  refine .bind (resolveConcrete_upholds type span) fun owner howner =>
    .bind (formOf_upholds owner) fun form _ => ?_
  dsimp only
  split
  · split
    · exact .pure howner
    · exact reportFlaw_upholds _ _ _ _ _ _
  · split
    · exact .pure howner
    · exact reportFlaw_upholds _ _ _ _ _ _
  · exact .bind (.reads (textOf_moves _)) fun _ _ => report_upholds _ _

/-- The members of a record have values, so their types are proper. -/
theorem recordFields_upholds (position : Nat) (members : Members) {types : List TypeId}
    (htypes : ∀ type ∈ types, type ≠ .auto) :
    Upholds State.Solid (fun fields => ∀ field ∈ fields, field.2.IsProper)
      (recordFields cx position members types) := by
  induction members generalizing position types with
  | nil => exact .pure (by simp)
  | cons member members ih =>
    cases types with
    | nil => exact .pure (by simp)
    | cons type types =>
      obtain ⟨htype, htypes⟩ := List.forall_mem_cons.mp htypes
      unfold recordFields
      dsimp only
      split
      · exact .bind (.reads (nodeOf_moves _ _)) fun _ _ => report_upholds _ _
      · rename_i hvalue
        exact .bind (ih _ htypes) fun _ hfields => .pure
          (List.forall_mem_cons.mpr ⟨TypeId.isProper_iff.mpr ⟨htype, hvalue⟩, hfields⟩)

/-- The fields that a struct offers have proper types. -/
theorem inferMember_upholds (type : TypeId) (base : NodeId) (field : String) (span : Span) :
    Upholds State.Solid (· ≠ .auto) (inferMember (fun _ => pure type) base field span) := by
  refine .bind (.pure trivial) fun baseType (_ : True) =>
    .bind (structOf_upholds baseType) fun found hfound => ?_
  rcases found with _ | ⟨owner, fields⟩
  · exact .bind (.reads (textOf_moves _)) fun _ _ => report_upholds _ _
  · dsimp only
    split
    · rename_i type hlookup
      exact .pure (hfound owner fields rfl field type hlookup).ne_auto
    · exact .bind (.reads (textOf_moves _)) fun _ _ => report_upholds _ _

/-- The address of something without a value cannot be taken. -/
theorem inferUnary_upholds {type : TypeId} (htype : type ≠ .auto) (symbol : String)
    (operand : NodeId) (span : Span) :
    Upholds State.Solid (· ≠ .auto) (inferUnary cx (fun _ => pure type) symbol operand span) := by
  refine .bind (.pure (Q := (· ≠ .auto)) htype) fun type htype => ?_
  split
  · refine .bind (require_upholds _ (.bind (textOf_moves _) fun _ => .pure _) _) fun _ hvalue => ?_
    have hproper := TypeId.isProper_iff.mpr ⟨htype, of_decide_eq_true hvalue⟩
    exact (onTable_upholds (TypeTable.internPointer_upholds hproper)).mono
      fun _ => TypeId.IsProper.ne_auto
  · split
    · refine .bind (formOf_upholds type) fun form hform => ?_
      split
      · rename_i base hbase
        exact .pure (hform.isProper_base hbase).ne_auto
      · exact .bind (.reads (textOf_moves _)) fun _ _ => report_upholds _ _
    · exact .bind (.reads (selectOperator_moves _ _ _)) fun signature _ =>
        resultOf_upholds signature

/-- The rules lead from solid states to solid states. A variable is bound to a proper type, since
its initializer has a value. -/
theorem solid_sustains (hcx : cx.builtin.IsProper) : Sustains cx State.Solid (· ≠ .auto) where
  noValue := by decide
  number := hcx.number.ne_auto
  string := hcx.string.ne_auto
  openFrame := openFrame_upholds
  closeFrame := closeFrame_upholds
  annotate := annotate_upholds
  annotateProvisional := annotateProvisional_upholds
  resolve written span := (resolve_upholds written span).mono fun _ _ => trivial
  bindName name _ htype hvalue span :=
    bindName_upholds name (TypeId.isProper_iff.mpr ⟨htype, hvalue⟩) .var span
  resultOf := resultOf_upholds
  element type := (formOf_upholds type).mono fun _ hform _ helement =>
    (hform.isProper_element helement).ne_auto
  identifier := inferIdentifier_upholds
  applyValue := applyValue_upholds
  member _ := inferMember_upholds _
  unary htype := inferUnary_upholds htype
  typed written members types span :=
    (inferTyped_upholds written members types span).mono fun _ => TypeId.IsProper.ne_auto
  record members _ htypes _ := .bind (recordFields_upholds 0 members htypes) fun _ hfields =>
    (onTable_upholds (TypeTable.internRecord_upholds hfields)).mono fun _ => TypeId.IsProper.ne_auto

/-! ## Items -/

theorem bindParams_upholds (span : Span) (params : List (String × TypeExpr)) {types : List TypeId}
    (htypes : ∀ type ∈ types, type.IsProper) :
    Upholds State.Solid (fun _ => True) (bindParams span params types) := by
  induction params generalizing types with
  | nil => exact .pure trivial
  | cons param params ih =>
    cases types with
    | nil => exact .pure trivial
    | cons type types =>
      obtain ⟨htype, htypes⟩ := List.forall_mem_cons.mp htypes
      exact .bind (bindName_upholds _ htype _ _) fun _ _ => ih htypes

theorem checkFunction_upholds (hcx : cx.builtin.IsProper) (id : NodeId) (span : Span)
    (name : String) (kind : FunctionKind) (params : List (String × TypeExpr)) (body : NodeId) :
    Upholds State.Solid (fun _ => True) (checkFunction cx id span name kind params body) := by
  refine .bind (.reads (inspect_moves _)) fun signature _ =>
    .bind (formOf_upholds signature) fun form hform => ?_
  cases hsignature : form.signature? with
  | none => exact .throw _
  | some parts =>
    obtain ⟨types, result⟩ := parts
    obtain rfl : form = .function types result := by cases form <;> cases hsignature; rfl
    exact .bind (openFrame_upholds _) fun _ _ =>
      .bind (bindParams_upholds span params hform.isProper_param) fun _ _ =>
      .bind ((solid_sustains hcx).inferAt _ body) fun _ _ =>
      .bind (.reads (inspect_moves _)) fun _ _ => .bind (.reads (nodeOf_moves _ _)) fun _ _ =>
      .bind (.reads (requireFit_moves _ _ _ _ _)) fun _ _ => .bind closeFrame_upholds fun _ _ =>
      .reads (.bind (inspect_moves _) fun _ => .pure _)

theorem checkItem_upholds (hcx : cx.builtin.IsProper) (item : Item) :
    Upholds State.Solid (fun _ => True) (checkItem cx item) := by
  have hinfer := (solid_sustains hcx).inferAt cx.depth item.id
  unfold checkItem
  cases item.node.kind with
  | struct | foreign => exact .pure trivial
  | function name kind params result body =>
    exact .bind (checkFunction_upholds hcx _ _ _ _ _ _) fun _ _ => .pure trivial
  | var => exact .bind hinfer fun _ _ => .pure trivial
  | _ =>
    exact .bind (.reads (require_moves _ (.pure _) _)) fun _ _ => .bind hinfer fun _ _ =>
      .pure trivial

/-! ## Registration -/

theorem declareStruct_upholds (d : StructDef) :
    Upholds State.Solid (fun _ => True) (declareStruct d) := by
  refine .bind (.reads (require_moves _ (.pure _) _)) fun _ _ => .get_bind fun _ _ =>
    .bind (.reads (require_moves _ (.pure _) _)) fun _ _ =>
    .bind (onTable_upholds (TypeTable.reserve_upholds d.name)) fun id hid =>
    .bind (.modify fun s hs => { hs with named := fun name other hname => ?_ }) fun _ _ =>
    annotate_upholds _ _
  rw [NameMap.get?_insert] at hname
  split at hname
  · exact Option.some.inj hname ▸ hid
  · exact hs.named name other hname

theorem orForget_upholds (name : String) (id : TypeId) {x : Check Unit}
    (h : Upholds State.Solid (fun _ => True) x) :
    Upholds State.Solid (fun _ => True) (orForget name id x) := by
  intro s hs
  refine ⟨rfl, ?_, fun _ _ _ => trivial⟩
  have hend := h.endState hs
  unfold orForget
  revert hend
  cases x s with
  | ok u s₁ => exact fun hend => hend
  | error e s₁ =>
    cases e with
    | fault cause => exact fun hend => hend
    | error finding =>
      intro hs₁
      change s₁.Solid at hs₁
      change (forget name id s₁).Solid
      unfold forget
      split
      · refine { hs₁ with named := fun other found hfound => ?_ }
        rw [NameMap.get?_erase] at hfound
        split at hfound
        · cases hfound
        · exact hs₁.named other found hfound
      · exact hs₁

theorem resolveFields_upholds (span : Span) (fields : List (String × TypeExpr)) :
    Upholds State.Solid (fun ids => ∀ field ∈ ids, field.2.IsProper)
      (resolveFields span fields) := by
  induction fields with
  | nil => exact .pure (by simp)
  | cons field fields ih =>
    exact .bind (resolveConcrete_upholds _ _) fun _ hid => .bind ih fun _ hids =>
      .pure (List.forall_mem_cons.mpr ⟨hid, hids⟩)

theorem fillStruct_upholds (d : StructDef) : Upholds State.Solid (fun _ => True) (fillStruct d) :=
  .bind (.reads (inspect_moves _)) fun id _ => orForget_upholds d.name id <|
    .bind (resolveFields_upholds d.span d.fields) fun _ hfields =>
      onTable_upholds (TypeTable.fill_upholds hfields)

theorem checkLayout_upholds (d : StructDef) :
    Upholds State.Solid (fun _ => True) (checkLayout d) := by
  refine .bind (.reads (inspect_moves _)) fun id _ => orForget_upholds d.name id ?_
  refine .bind (.reads (inspect_moves _)) fun _ _ =>
    .bind (.reads (require_moves _ (.pure _) _)) fun _ _ =>
    .bind (.reads (inspect_moves _)) fun broken _ => ?_
  cases broken with
  | none => exact .pure trivial
  | some name => exact report_upholds _ _

theorem resolveParams_upholds (span : Span) (params : List (String × TypeExpr)) :
    Upholds State.Solid (fun ids => ∀ id ∈ ids, TypeId.IsProper id)
      (resolveParams span params) := by
  induction params with
  | nil => exact .pure (by simp)
  | cons param params ih =>
    exact .bind (resolveConcrete_upholds _ _) fun _ hid => .bind ih fun _ hids =>
      .pure (List.forall_mem_cons.mpr ⟨hid, hids⟩)

theorem signatureOf_upholds (d : FunctionDef) :
    Upholds State.Solid TypeId.IsProper (signatureOf d) := by
  refine .bind (resolveParams_upholds d.span d.params) fun params hparams => ?_
  have hintern : ∀ result, result ≠ .auto → Upholds State.Solid TypeId.IsProper
      (onTable Problem.ofTable d.span (TypeTable.internFunction params result)) :=
    fun _ hresult => onTable_upholds (TypeTable.internFunction_upholds hparams hresult)
  cases d.result with
  | none => exact .bind (.pure (Q := (· = .noValue)) rfl) fun _ h => hintern _ (h ▸ by decide)
  | some result =>
    exact .bind (resolveConcrete_upholds result d.span) fun _ h => hintern _ h.ne_auto

theorem registerOperator_upholds (symbol : String) (arity : Nat) (signature : TypeId)
    (span : Span) : Upholds State.Solid (fun _ => True)
      (registerOperator cx symbol arity signature span) :=
  .bind (.reads (require_moves _ (.pure _) _)) fun _ _ =>
    .bind (.reads (require_moves _ (.pure _) _)) fun _ _ => .get_bind fun _ _ =>
    .bind (.reads (require_moves _ (.pure _) _)) fun _ _ => .modify fun _ hs => { hs with }

theorem registerMember_upholds (name : String) (arity : Nat) (signature : TypeId) (span : Span) :
    Upholds State.Solid (fun _ => True) (registerMember name arity signature span) :=
  .bind (.reads (require_moves _ (.pure _) _)) fun _ _ => .get_bind fun _ _ =>
    .bind (.reads (formOf_moves _)) fun _ _ => .bind (.reads (inspect_moves _)) fun _ _ =>
    .bind (.reads (require_moves _ (.pure _) _)) fun _ _ => .modify fun _ hs => { hs with }

theorem registerFunction_upholds (d : FunctionDef) :
    Upholds State.Solid (fun _ => True) (registerFunction cx d) := by
  refine .bind (signatureOf_upholds d) fun signature hsignature => ?_
  cases d.kind with
  | none => exact .bind (bindName_upholds _ hsignature _ _) fun _ _ => annotate_upholds _ _
  | some kind =>
    cases kind with
    | symbolic => exact .bind (registerOperator_upholds _ _ _ _) fun _ _ => annotate_upholds _ _
    | normal => exact .bind (bindName_upholds _ hsignature _ _) fun _ _ => annotate_upholds _ _
    | member => exact .bind (registerMember_upholds _ _ _ _) fun _ _ => annotate_upholds _ _

/-! ## Runs -/

namespace State.Solid

theorem start {table : TypeTable} (h : table.Solid) (n : Nat) : (State.start table n).Solid where
  table := h
  named _ _ hname := by cases hname
  bound binding hbinding := by
    obtain ⟨_, hframe, -⟩ | ⟨_, hglobal⟩ := hbinding
    · cases hframe
    · cases hglobal

/-- Undoing what an item did binds nothing. -/
theorem attempt {Q : α → Prop} (hs : s.Solid) {x : Check α} (hx : Upholds State.Solid Q x)
    {r : Except Finding α} (h : Check.attempt x s = .ok (r, s')) : s'.Solid := by
  obtain ⟨a, -, hok⟩ | ⟨finding, s₁, annotations, -, herror, -, rfl⟩ := attempt_eq_ok h
  · exact (hx.ok hs hok).1
  · have hs₁ := hx.error hs herror
    exact { hs₁ with bound := fun binding hbinding => hs₁.bound binding hbinding.of_unwind }

theorem register {p p' : Progress} (hp : p.state.Solid) {x : Check Unit}
    (hx : Upholds State.Solid (fun _ => True) x) {position : Nat} {id : NodeId}
    (h : p.register position id x = .ok p') : p'.state.Solid := by
  obtain ⟨r, state, hattempt, hresult⟩ := register_eq_ok h
  have hstate := hp.attempt hx hattempt
  obtain ⟨-, rfl⟩ | ⟨finding, -, rfl⟩ := hresult <;> exact hstate

theorem registerStep {p p' : Progress} {items : List Item} (hp : p.state.Solid)
    (h : RegisterStep cx items p p') : p'.state.Solid := by
  cases h with
  | declare _ h => exact hp.register (declareStruct_upholds _) h
  | fill _ _ h => exact hp.register (fillStruct_upholds _) h
  | layout _ _ h => exact hp.register (checkLayout_upholds _) h
  | function _ h => exact hp.register (registerFunction_upholds _) h

theorem registerSteps {p p' : Progress} {items : List Item} (hp : p.state.Solid)
    (h : Relation.ReflTransGen (RegisterStep cx items) p p') : p'.state.Solid := by
  induction h with
  | refl => exact hp
  | tail _ hstep ih => exact ih.registerStep hstep

theorem of_registered {table : TypeTable} (htable : table.Solid) {items : List Item} {p : Progress}
    (h : registered cx items table = .ok p) : p.state.Solid :=
  registerSteps (p := ⟨State.start table cx.arena.size, [], [], []⟩)
    (start htable cx.arena.size) (registered_steps h)

theorem checkItems {p p' : Progress} {items : List Item} (hp : p.state.Solid)
    (hcx : cx.builtin.IsProper) (h : p.checkItems cx items = .ok p') : p'.state.Solid := by
  refine checkItems_invariant (P := fun _ q => q.state.Solid)
    (fun seen item rest q q' _ hq hstep => ?_) hp h
  cases hstep with
  | skip => exact hq
  | done _ h => exact ((checkItem_upholds hcx item).ok hq h).1
  | found _ h => exact hq.attempt (checkItem_upholds hcx item) h

end State.Solid

/-! ## Moments of a check -/

/-- The check of a function enters it by `entry` and goes on to its body. The parameters get the
types of the signature that the node of the function has. -/
inductive Entry (item : Item) (s : State) : NodeId → Check Unit → Prop
  | intro {name : String} {kind : FunctionKind} {params : List (String × TypeExpr)}
      {written : Option TypeExpr} {body : NodeId} {signature : TypeId} {types : List TypeId}
      {result : TypeId} (hkind : item.node.kind = .function name kind params written body)
      (hsignature : s.annotations.get? item.id = some signature)
      (hform : s.table.form? signature = some (.function types result)) :
      Entry item s body (do
        openFrame (.function result)
        bindParams item.node.span params types)

/-- While an item is checked from `s` on, a node is looked at in the state `s₁`, and at most `depth`
references down from there. -/
inductive Visits (cx : Setting) (item : Item) (s : State) : Nat → NodeId → State → Prop
  | whole (hitem : ¬ item.IsRegistered)
      (hallowed : item.node.kind.isVar = true ∨ cx.config.topLevelExpressions = true) :
      Visits cx item s cx.depth item.id s
  | body {body : NodeId} {entry : Check Unit} {s₁ : State} (h : Entry item s body entry)
      (hentry : entry s = .ok () s₁) : Visits cx item s cx.depth body s₁
  | part {depth : Nat} {id child : NodeId} {node : Node} {s₁ s₂ : State}
      (h : Visits cx item s (depth + 1) id s₁) (hnode : cx.arena.node? id = some node)
      (hchild : Consults (fun infer => inferNode cx infer id node) (inferAt cx depth) s₁ child s₂) :
      Visits cx item s depth child s₂

/-- The states that a check passes through: while it registers definitions, when it comes to an item
that was registered, when the parameters of a function are bound, whenever it starts to look at a
node and whenever it has done so, with or without an answer, and at its end. A rule binds nothing
but a variable, and that last, so every binding that is ever made is bound in one of these. -/
inductive PassesThrough (cx : Setting) (ids : List NodeId) (table : TypeTable) : State → Prop
  | registering {items : List Item} {p : Progress} (hitems : itemsFrom cx.arena 0 ids = .ok items)
      (h : Relation.ReflTransGen (RegisterStep cx items)
        ⟨State.start table cx.arena.size, [], [], []⟩ p) : PassesThrough cx ids table p.state
  | coming {item : Item} {p : Progress} (h : ComesTo cx ids table item p) :
      PassesThrough cx ids table p.state
  | entering {item : Item} {p : Progress} {body : NodeId} {entry : Check Unit}
      (h : ComesTo cx ids table item p) (hnew : item.id ∉ p.failed)
      (hentry : Entry item p.state body entry) :
      PassesThrough cx ids table (endState (entry p.state))
  | before {item : Item} {p : Progress} {depth : Nat} {id : NodeId} {s : State}
      (h : ComesTo cx ids table item p) (hnew : item.id ∉ p.failed)
      (hvisits : Visits cx item p.state depth id s) : PassesThrough cx ids table s
  | after {item : Item} {p : Progress} {depth : Nat} {id : NodeId} {s : State}
      (h : ComesTo cx ids table item p) (hnew : item.id ∉ p.failed)
      (hvisits : Visits cx item p.state depth id s) :
      PassesThrough cx ids table (endState (inferAt cx depth id s))
  | ended {p : Progress} (h : run cx ids table = .ok p) : PassesThrough cx ids table p.state

theorem Entry.upholds {item : Item} {body : NodeId} {entry : Check Unit}
    (h : Entry item s body entry) (hs : s.Solid) :
    Upholds State.Solid (fun _ => True) entry := by
  cases h with
  | intro _ _ hform =>
    exact .bind (openFrame_upholds _) fun _ _ =>
      bindParams_upholds _ _ (hs.table.forms _ _ hform).isProper_param

/-- A node is looked at in solid states only. -/
theorem Visits.solid {item : Item} {depth : Nat} {id : NodeId} {s₁ : State}
    (hcx : cx.builtin.IsProper) (hs : s.Solid) (h : Visits cx item s depth id s₁) : s₁.Solid := by
  induction h with
  | whole => exact hs
  | body h hentry => exact ((h.upholds hs).ok hs hentry).1
  | part _ _ hchild ih =>
    exact (solid_sustains hcx).of_consults hchild ih

theorem ComesTo.solid {ids : List NodeId} {table : TypeTable} {item : Item} {p : Progress}
    (hcx : cx.builtin.IsProper) (htable : table.Solid) (h : ComesTo cx ids table item p) :
    p.state.Solid := by
  obtain ⟨seen, rest, q, -, hregistered, hseen⟩ := h
  exact (State.Solid.of_registered htable hregistered).checkItems hcx hseen

/-- **All states that a check passes through are solid** if its table was. -/
theorem PassesThrough.solid {ids : List NodeId} {table : TypeTable} (hcx : cx.builtin.IsProper)
    (htable : table.Solid) (h : PassesThrough cx ids table s) : s.Solid := by
  cases h with
  | registering _ h =>
    exact State.Solid.registerSteps (p := ⟨State.start table cx.arena.size, [], [], []⟩)
      (.start htable cx.arena.size) h
  | coming h => exact h.solid hcx htable
  | entering h _ hentry =>
    have hs := h.solid hcx htable
    exact (hentry.upholds hs).endState hs
  | before h _ hvisits => exact hvisits.solid hcx (h.solid hcx htable)
  | after h _ hvisits =>
    exact ((solid_sustains hcx).inferAt _ _).endState (hvisits.solid hcx (h.solid hcx htable))
  | ended h =>
    obtain ⟨items, q, -, hregistered, hitems⟩ := run_eq_ok.mp h
    exact (State.Solid.of_registered htable hregistered).checkItems hcx hitems

end Check

end RuleTypes
