import RuleTypes.Proofs.Check.Failures
import RuleTypes.Proofs.Check.Known
import RuleTypes.Proofs.Check.Scopes

/-!
# States without traps

A check meets a fault only if it asks the table for a type that was not issued, or for a node that
is not there, or if it writes to a node twice. In a sane state (`Sane`) every type that the check
can come by was issued by a canonical table in which slices have one argument. So no reading of the
state meets a fault there, the texts that go into problems included.
-/

namespace RuleTypes

namespace TypeTable

variable {t : TypeTable} {id : TypeId}

/-- The struct behind a clear type can be looked for, and it is clear. -/
theorem Clear.exists_structOf {A : Admission} (h : t.Clear A id) :
    ∃ found, t.structOf id = .ok found ∧
      ∀ owner fields, found = some (owner, fields) → t.Clear A owner := by
  obtain ⟨form, hform⟩ := exists_form?_of_lt h.issued
  have hfound : ∀ {owner : TypeId} {target : Form}, t.Clear A owner → ∀ owner' fields,
      target.fields?.map (owner, ·) = some (owner', fields) → t.Clear A owner' := by
    intro owner target howner owner' fields heq
    obtain ⟨_, -, hpair⟩ := Option.map_eq_some_iff.mp heq
    cases hpair
    exact howner
  unfold structOf
  rw [form_eq_ok.mpr hform]
  cases form with
  | pointer base =>
    have hbase := h.component hform (List.mem_singleton.mpr rfl)
    obtain ⟨target, htarget⟩ := exists_form?_of_lt hbase.issued
    exact ⟨_, except_bind_eq_ok.mpr ⟨_, rfl, except_bind_eq_ok.mpr
      ⟨target, form_eq_ok.mpr htarget, rfl⟩⟩, hfound hbase⟩
  | _ => exact ⟨_, rfl, hfound h⟩

end TypeTable

namespace Check

open TypeTable

variable {α : Type} {cx : Setting} {s s' : State} {span : Span} {id type : TypeId}
  {N : NodeId → Prop}

/-- Every type that the check can come by is in a canonical table, slices have one argument, and
there is a slot for every node. -/
structure Sane (cx : Setting) (s : State) : Prop where
  knows : Knows .known [] cx s
  canonical : s.table.Canonical
  slices : s.table.UnarySlices
  size : s.annotations.size = cx.arena.size

theorem Sane.later (h : Sane cx s) (hknows : Knows .known [] cx s') (hlater : Later N s s') :
    Sane cx s' where
  knows := hknows
  canonical := h.canonical.extends hlater.table
  slices := h.slices.extends hlater.table
  size := hlater.annotations.size_eq.trans h.size

theorem Sane.grounded (h : Sane cx s) : TypeExpr.Grounded s.names s.table where
  named name id hid := (h.knows.sources.named name id hid).issued
  noValue := h.knows.sources.noValue.issued
  slices := h.slices.arity

theorem Sane.exists_text (h : Sane cx s) (hid : id.index < s.table.size) :
    ∃ text, s.table.text id = .ok text :=
  h.canonical.exists_text (fun other hother => by simpa using h.slices.args other [] hother) hid

/-! ## Readings -/

theorem nodeOf_ok {id : NodeId} {node : Node} (h : cx.arena.node? id = some node) (s : State) :
    nodeOf cx id s = .ok node s := nodeOf_eq_ok.mpr ⟨h, rfl⟩

theorem formOf_ok {form : Form} (h : s.table.form? id = some form) : formOf id s = .ok form s :=
  formOf_eq_ok.mpr ⟨h, rfl⟩

theorem Sane.textOf_safe (h : Sane cx s) (hid : s.table.Known id) : Safe (textOf id) s := by
  obtain ⟨text, htext⟩ := h.exists_text hid.issued
  exact inspect_safe htext

/-- A problem that names a type can be reported. -/
theorem Sane.reportText_safe (h : Sane cx s) (hid : s.table.Known id) (problem : String → Problem)
    (span : Span) : Safe (textOf id >>= fun text => report (α := α) (problem text) span) s :=
  .read (textOf_moves _) (h.textOf_safe hid) fun _ _ => .throw _

theorem require_safe_of {problem : Check Problem} (h : Safe problem s) (holds : Bool)
    (span : Span) : Safe (require holds problem span) s := by
  unfold require
  cases holds with
  | true => exact .pure _
  | false => exact .bind h fun _ _ _ => .throw _

/-- A requirement on a type, which its problem names. -/
theorem Sane.requireText_safe (h : Sane cx s) (hid : s.table.Known id) (holds : Bool)
    (problem : String → Problem) (span : Span) :
    Safe (require holds (do return problem (← textOf id)) span) s :=
  require_safe_of (.read (textOf_moves _) (h.textOf_safe hid) fun _ _ => .pure _) holds span

/-- A requirement on two types, which its problem names. -/
theorem Sane.requireFit_safe {a b : TypeId} (h : Sane cx s) (ha : s.table.Known a)
    (hb : s.table.Known b) (holds : Bool) (problem : String → String → Problem) (span : Span) :
    Safe (require holds (do return problem (← textOf a) (← textOf b)) span) s :=
  require_safe_of (.read (textOf_moves _) (h.textOf_safe ha) fun _ _ =>
    .read (textOf_moves _) (h.textOf_safe hb) fun _ _ => .pure _) holds span

theorem Sane.select_safe (h : Sane cx s) {candidates args : List TypeId}
    (hcandidates : ∀ id ∈ candidates, s.table.Known id) (hargs : ∀ arg ∈ args, s.table.Known arg)
    (symbol : String) (span : Span) : Safe (select symbol candidates args span) s := by
  intro cause s₁ he
  have hfault := selectExact_ne_fault symbol (fun id hid => (hcandidates id hid).issued)
    (fun arg harg => h.exists_text (hargs arg harg).issued)
  unfold select at he
  split at he
  · cases he
  · exact hfault _ ‹_›
  · cases he

theorem Sane.selectOperator_safe (h : Sane cx s) {args : List TypeId}
    (hargs : ∀ arg ∈ args, s.table.Known arg) (symbol : String) (span : Span) :
    Safe (selectOperator cx symbol args span) s := by
  rw [selectOperator]
  exact .step rfl (h.select_safe (h.knows.overloads symbol) hargs symbol span)

/-- A signature that was selected has a result. -/
theorem resultOf_safe {candidates args : List TypeId} {signature : TypeId}
    (h : s.table.Selects candidates args signature) : Safe (resultOf signature) s := by
  obtain ⟨-, result, hform⟩ := (h.only signature).mpr rfl
  have hresult : s.table.resultOf signature = .ok result :=
    except_bind_eq_ok.mpr ⟨_, form_eq_ok.mpr hform, rfl⟩
  exact inspect_safe hresult

theorem lookup_safe (name : String) : Safe (lookup name) s := .of_ok rfl

theorem isOperator_safe (symbol : String) : Safe (isOperator cx symbol) s := .of_ok rfl

theorem calleeOf_safe (kind : NodeKind) : Safe (calleeOf cx kind) s := by
  unfold calleeOf
  split
  · refine .read (lookup_moves _) (lookup_safe _) fun _ _ => ?_
    refine .read (isOperator_moves _) (isOperator_safe _) fun _ _ => ?_
    split <;> exact .pure _
  · refine .read .get .get fun _ _ => ?_
    split <;> exact .pure _
  · exact .pure _

theorem isAssignable_safe (kind : NodeKind) : Safe (isAssignable kind) s := by
  unfold isAssignable
  split
  · refine .read (lookup_moves _) (lookup_safe _) fun binding _ => ?_
    cases binding <;> exact .pure _
  · exact .pure _

theorem Sane.resolve_safe (h : Sane cx s) (written : TypeExpr) (span : Span) :
    Safe (resolve written span) s := by
  unfold resolve TypeExpr.resolve
  split
  · exact .of_ok (onTable_eq_ok.mpr ⟨s.table, rfl, rfl⟩)
  · exact resolveConcrete_safe h.grounded written span

/-! ## Writings -/

theorem Sane.index_lt (h : Sane cx s) {id : NodeId} {node : Node}
    (hnode : cx.arena.node? id = some node) : id.index < s.annotations.size :=
  h.size ▸ Arena.index_lt_of_node? hnode

/-- The node can be given its type: it has none yet, or only the mark of a variable. -/
def Open (s : State) (id : NodeId) : Prop :=
  s.annotations.get? id = none ∨ s.annotations.get? id = some .auto

theorem Sane.annotate_safe (h : Sane cx s) {id : NodeId} {node : Node}
    (hnode : cx.arena.node? id = some node) (hopen : Open s id) (type : TypeId) :
    Safe (annotate id type) s := by
  have hrange := h.index_lt hnode
  obtain hnone | hauto := hopen
  · exact Check.annotate_safe hnone hrange
  · exact .of_ok (annotate_eq_ok (u := ()).mpr
      ⟨_, Annotations.set_eq_ok.mpr ⟨hrange, .inr ⟨hauto, rfl⟩⟩, rfl⟩)

theorem Sane.annotateProvisional_safe (h : Sane cx s) {id : NodeId} {node : Node}
    (hnode : cx.arena.node? id = some node) (hnone : s.annotations.get? id = none) :
    Safe (annotateProvisional id) s := by
  exact .of_ok (annotateProvisional_eq_ok (u := ()).mpr
    ⟨_, Annotations.setProvisional_eq_ok.mpr ⟨h.index_lt hnode, hnone, rfl⟩, rfl⟩)

/-- The state in which a frame was opened. -/
def State.opened (s : State) (kind : FrameKind) : State :=
  { s with scope := { s.scope with frames := ⟨kind, .empty⟩ :: s.scope.frames } }

theorem openFrame_ok {kind : FrameKind} (h : kind ≠ .global) (s : State) :
    openFrame kind s = .ok () (s.opened kind) := openFrame_eq_ok.mpr ⟨_, if_neg h, rfl⟩

/-- What can be done in a frame can be done between opening the frame and closing it. -/
theorem enclosed_safe {W : String → Binding → Prop} {kind : FrameKind} (hkind : kind ≠ .global)
    {x : Check α} (typeOf : α → TypeId) (hbinds : Goes (Binds W) (Abandons W) x)
    (h : Safe x (s.opened kind)) :
    Safe (do
      openFrame kind
      let a ← x
      closeFrame
      return typeOf a) s := by
  refine .step (openFrame_ok hkind s) (.bind h fun a s₁ hx => ?_)
  have hgains : ({ s.scope with frames := ⟨kind, .empty⟩ :: s.scope.frames } : Scope).Gains W
      s₁.scope := hbinds.ok hx
  exact .step (closeFrame_eq_ok (u := ()).mpr ⟨s.scope, hgains.pop_eq_ok, rfl⟩) (.pure _)

end Check

end RuleTypes
