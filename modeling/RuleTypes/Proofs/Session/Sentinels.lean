import RuleTypes.Proofs.Check.Proper
import RuleTypes.Proofs.Session

/-!
# Sentinels in a session

Whatever a session has checked and loaded, `auto` occurs in no type of its table and `noValue` only
as the result of a function, and no name in its reports has one of them for a type
(`Session.sentinels_unnested`). The same holds in every state that its next check passes through.
-/

namespace RuleTypes

variable {ε : Type} {generics : Generics} {config : Config} {session : Session}
  {reports : List Report}

/-! ## Operators -/

namespace Operators

theorem registerAll_upholds {ops : Operators} (hops : ops.IsProper)
    {signatures : List (String × List TypeId × TypeId)}
    (h : ∀ signature ∈ signatures,
      (∀ id ∈ signature.2.1, TypeId.IsProper id) ∧ TypeId.IsProper signature.2.2) :
    Upholds TypeTable.Solid IsProper (ops.registerAll signatures : TableM ε Operators) := by
  induction signatures generalizing ops with
  | nil => exact .pure hops
  | cons signature signatures ih =>
    obtain ⟨⟨hparams, hresult⟩, hrest⟩ := List.forall_mem_cons.mp h
    refine .bind (.bind (TypeTable.internFunction_upholds hparams hresult.ne_auto)
      fun _ _ => .pure (Q := IsProper) ?_) fun _ hadded => ih hadded hrest
    exact ⟨hops.number, hops.string⟩

theorem standard_upholds : Upholds TypeTable.Solid IsProper (standard : TableM ε Operators) := by
  have hprimitive : ∀ name, Upholds TypeTable.Solid TypeId.IsProper
      (TypeTable.internPrimitive name : TableM ε TypeId) := fun name =>
    TypeTable.intern_upholds (Form.solid_of_components (by simp [Form.components])) rfl
  exact .bind (hprimitive _) fun _ hnumber => .bind (hprimitive _) fun _ hstring =>
    registerAll_upholds ⟨hnumber, hstring⟩ (standard_signatures hnumber hstring)

end Operators

/-! ## Histories with their reports -/

/-- The names of a report, global or of structs, have proper types. -/
structure Report.IsProper (report : Report) : Prop where
  globals : ∀ name id, report.globals.get? name = some id → id.IsProper
  names : ∀ name id, report.names.get? name = some id → id.IsProper

namespace Session

/-- The sessions that come about by checking programs and loading types, with the reports of the
checks. A type is loaded without names of structs, or with those of an earlier report. -/
inductive Reported (generics : Generics) (config : Config) : List Report → Session → Prop
  | standard {session : Session} (h : Session.standard generics config = .ok session) :
      Reported generics config [] session
  | check {reports : List Report} {session session' : Session} {program : Program}
      {report : Report} (hsession : Reported generics config reports session)
      (h : session.check program = .ok (report, session')) :
      Reported generics config (reports ++ [report]) session'
  | load {reports : List Report} {session : Session} {names : Names} (text : String)
      (hsession : Reported generics config reports session)
      (hnames : names = .empty ∨ ∃ report ∈ reports, names = report.names) :
      Reported generics config reports (session.loadType names text).2

/-- What every step of a session keeps. -/
structure Solid (reports : List Report) (session : Session) : Prop where
  table : session.table.Solid
  builtin : session.builtin.IsProper
  reports : ∀ report ∈ reports, report.IsProper

theorem Solid.check {session' : Session} {program : Program} {report : Report}
    (hsession : session.Solid reports) (h : session.check program = .ok (report, session')) :
    session'.Solid (reports ++ [report]) := by
  obtain ⟨p, hrun, rfl, rfl⟩ := check_eq_ok.mp h
  have hp := (Check.PassesThrough.ended hrun).solid hsession.builtin hsession.table
  refine ⟨hp.table, hsession.builtin, List.forall_mem_append.mpr ⟨hsession.reports, ?_⟩⟩
  refine List.forall_mem_singleton.mpr ⟨fun name id hid => ?_, hp.named⟩
  change (p.state.scope.globals.map (·.type)).get? name = some id at hid
  rw [NameMap.get?_map, Option.map_eq_some_iff] at hid
  obtain ⟨binding, hbinding, rfl⟩ := hid
  exact hp.bound binding (.inr ⟨name, hbinding⟩)

theorem Solid.load {names : Names} (hsession : session.Solid reports) (text : String)
    (hnames : names = .empty ∨ ∃ report ∈ reports, names = report.names) :
    (session.loadType names text).2.Solid reports := by
  have hproper : ∀ name id, names.get? name = some id → id.IsProper := by
    obtain rfl | ⟨report, hreport, rfl⟩ := hnames
    · intro name id hid
      cases hid
    · exact (hsession.reports report hreport).names
  have hend := (TypeExpr.load_upholds hproper text).endState hsession.table
  refine ⟨?_, loadType_builtin session names text ▸ hsession.builtin, hsession.reports⟩
  unfold loadType
  revert hend
  cases TypeExpr.load names text session.table <;> exact id

theorem Reported.solid (h : session.Reported generics config reports) : session.Solid reports := by
  induction h with
  | standard h =>
    obtain ⟨builtin, table, hoperators, rfl⟩ := standard_eq_ok.mp h
    obtain ⟨htable, hbuiltin⟩ :=
      Operators.standard_upholds.ok (TypeTable.solid_new generics) hoperators
    exact ⟨htable, hbuiltin, by simp⟩
  | check _ h ih => exact ih.check h
  | load text _ hnames ih => exact ih.load text hnames

/-- **Sentinels never nest.** In the table of a session with any history, `auto` occurs in no type,
and `noValue` only as the result of a function. In its reports, no global name and no named struct
is one of the two. And in no state that a check of any program passes through is a name bound to one
of them, be it that of a parameter, a variable, a function or a struct. -/
theorem sentinels_unnested (h : session.Reported generics config reports) :
    (∀ id form, session.table.form? id = some form → form.Solid) ∧
    (∀ report ∈ reports, ∀ name id,
      report.globals.get? name = some id ∨ report.names.get? name = some id →
        id.isSentinel = false) ∧
    ∀ (program : Program) (s : Check.State),
      Check.PassesThrough ⟨program.arena, session.builtin, session.config⟩ program.items
        session.table s →
      (∀ id form, s.table.form? id = some form → form.Solid) ∧
        (∀ binding, s.scope.Contains binding → binding.type.isSentinel = false) ∧
        ∀ name id, s.names.get? name = some id → id.isSentinel = false := by
  have hsolid := h.solid
  refine ⟨hsolid.table.forms, fun report hreport name id hid => ?_, fun program s hs => ?_⟩
  · have hproper := hsolid.reports report hreport
    exact hid.elim (hproper.globals name id) (hproper.names name id)
  · have hs := hs.solid hsolid.builtin hsolid.table
    exact ⟨hs.table.forms, hs.bound, hs.named⟩

end Session

/-- A block that answers has looked at its first statement, in a frame of its own. -/
theorem Check.consults_first {cx : Check.Setting} {infer : Check.Infer} {s s₁ s' : Check.State}
    {id : NodeId} {ids : List NodeId} {type : TypeId}
    (hopen : Check.openFrame .block s = .ok () s₁)
    (h : Check.inferBlock cx infer (id :: ids) s = .ok type s') :
    Consults (fun infer => Check.inferBlock cx infer (id :: ids)) infer s id s₁ := by
  classical
  let infer' : Check.Infer := fun other s₂ =>
    if (other, s₂) = (id, s₁) then .error (.fault .endless) s₂ else infer other s₂
  have hfails : Check.inferStatements cx infer' .noValue (id :: ids) s₁ =
      .error (.fault .endless) s₁ := bind_of_error (if_pos rfl)
  have hblock : Check.inferBlock cx infer' (id :: ids) s = .error (.fault .endless) s₁ :=
    (bind_of_ok hopen).trans (bind_of_error hfails)
  refine ⟨infer', fun _ _ hne => if_neg hne, ?_⟩
  change Check.inferBlock cx infer' (id :: ids) s ≠ Check.inferBlock cx infer (id :: ids) s
  rw [hblock, h]
  simp

/-- `func f(x f64) { var y = x }`. -/
def Program.boundInBody : Program where
  arena := ⟨#[⟨.identifier "x", .nowhere⟩, ⟨.var "y" .auto ⟨0⟩, .nowhere⟩, ⟨.block [⟨1⟩], .nowhere⟩,
    ⟨.function "f" .normal [("x", .named "f64")] none ⟨2⟩, .nowhere⟩]⟩
  items := [⟨3⟩]

/-- The function that it defines. -/
def Check.Item.boundInBody : Check.Item :=
  ⟨0, ⟨3⟩, ⟨.function "f" .normal [("x", .named "f64")] none ⟨2⟩, .nowhere⟩⟩

theorem Session.sentinels_unnested_boundInBody :
    ∃ (session : Session) (reports : List Report) (s : Check.State) (x y : Binding),
      session.Reported Generics.standard .permissive reports ∧ reports ≠ [] ∧
      Check.PassesThrough ⟨Program.boundInBody.arena, session.builtin, session.config⟩
        Program.boundInBody.items session.table s ∧
      s.scope.lookup "x" = some x ∧ x.kind = .parameter ∧ x.type.isSentinel = false ∧
      s.scope.lookup "y" = some y ∧ y.kind = .var ∧ y.type.isSentinel = false := by
  have heval : (do
      let session ← Session.standard Generics.standard .permissive
      let checked ← session.check Program.boundInBody
      let session := (checked.2.loadType checked.1.names "[]f64").2
      let cx : Check.Setting := ⟨Program.boundInBody.arena, session.builtin, session.config⟩
      let q ← Check.registered cx [.boundInBody] session.table
      return (decide (q.failed = [] ∧ q.state.annotations.get? ⟨3⟩ = some ⟨8⟩ ∧
          q.state.table.form? ⟨8⟩ = some (.function [⟨2⟩] .noValue)),
        EStateM.run' (do
          Check.openFrame (.function .noValue)
          Check.bindParams .nowhere [("x", .named "f64")] [⟨2⟩]
          let entered ← get
          let _ ← Check.inferAt cx 10 ⟨2⟩
          modify fun _ => entered
          Check.openFrame .block
          let _ ← Check.inferAt cx 9 ⟨1⟩
          let x ← Check.lookup "x"
          let y ← Check.lookup "y"
          return (x, y)) q.state)) =
        Except.ok (true, some (some ⟨⟨2⟩, .parameter, .nowhere⟩, some ⟨⟨2⟩, .var, .nowhere⟩)) := by
    decide +kernel
  obtain ⟨fresh, hfresh, heval⟩ := except_bind_eq_ok.mp heval
  obtain ⟨⟨report, checked⟩, hcheck, heval⟩ := except_bind_eq_ok.mp heval
  obtain ⟨q, hregistered, heval⟩ := except_bind_eq_ok.mp heval
  obtain ⟨hfacts, hpath⟩ := Prod.mk.inj (Except.ok.inj heval)
  obtain ⟨hfailed, hsignature, hform⟩ := of_decide_eq_true hfacts
  obtain ⟨s', hpath⟩ := run'_eq_some.mp hpath
  simp only [bind_eq_ok, get_eq_ok, modify_eq_ok, Check.lookup_eq_ok, pure_eq_ok] at hpath
  obtain ⟨_, opened, hopened, _, entered, hparams, _, _, ⟨rfl, rfl⟩, type, _, hbody, _, _, rfl, _,
    inner, hinner, _, s, hvar, x, _, ⟨hx, rfl⟩, y, _, ⟨hy, rfl⟩, hxy, -⟩ := hpath
  obtain ⟨rfl, rfl⟩ := Prod.mk.inj hxy
  have hreported : (checked.loadType report.names "[]f64").2.Reported Generics.standard .permissive
      [report] :=
    .load "[]f64" (.check (.standard hfresh) hcheck) (.inr ⟨report, by simp, rfl⟩)
  have hcomes : Check.ComesTo ⟨Program.boundInBody.arena, _, _⟩ Program.boundInBody.items _
      .boundInBody q := ⟨[], [], q, rfl, hregistered, rfl⟩
  obtain ⟨node, s₁, _, hnode, hblock, -, -⟩ := Check.inferAt_succ_eq_ok hbody
  obtain rfl : ⟨.block [⟨1⟩], .nowhere⟩ = node := Option.some.inj hnode
  have hentry : Check.Entry .boundInBody q.state ⟨2⟩ _ := .intro rfl hsignature hform
  have hvisits : Check.Visits _ .boundInBody q.state 9 ⟨1⟩ inner :=
    .part (.body hentry (bind_eq_ok.mpr ⟨(), opened, hopened, hparams⟩)) hnode
      (Check.consults_first hinner hblock)
  have hpasses := Check.PassesThrough.after hcomes (by simp [hfailed]) hvisits
  rw [hvar] at hpasses
  obtain ⟨-, -, hstates⟩ := sentinels_unnested hreported
  obtain ⟨-, hbound, -⟩ := hstates Program.boundInBody s hpasses
  exact ⟨_, [report], s, _, _, hreported, by simp, hpasses, hx, rfl,
    hbound _ (Scope.contains_of_lookup hx), hy, rfl, hbound _ (Scope.contains_of_lookup hy)⟩

end RuleTypes
