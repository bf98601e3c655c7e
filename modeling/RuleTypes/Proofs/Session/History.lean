import RuleTypes.Proofs.Check.Abreast
import RuleTypes.Proofs.Session

/-!
# Checks do not depend on the history of the session

What a session has checked and loaded before stays in its table, among the types that later checks
use. But the types that every session begins with stay as they are (`Session.Reachable.matches`),
and a check finds all others by their forms. So in two sessions with different histories a check
goes the same way, and its reports differ in ids of types only (`Session.outcome_eq`).
-/

namespace RuleTypes

open List (Forall₂)

variable {ε : Type} {generics : Generics} {config : Config} {session session' fresh : Session}

/-! ## Tables of new sessions -/

namespace TypeTable

variable {t t' : TypeTable}

/-- No struct is declared. -/
def Undeclared (t : TypeTable) : Prop := ∀ id form, t.form? id = some form → form.isDeclared = false

theorem undeclared_new (generics : Generics) : (new generics).Undeclared := by
  rintro ⟨_ | _ | i⟩ form h
  · exact Option.some.inj h ▸ rfl
  · exact Option.some.inj h ▸ rfl
  · cases h

theorem Undeclared.push {form : Form} (h : t.Undeclared) (hform : form.isDeclared = false) :
    (t.push form).Undeclared := by
  intro id other hother
  rw [form?_push] at hother
  split at hother
  · exact Option.some.inj hother ▸ hform
  · exact h id other hother

/-- No struct is declared afterwards if none was before. -/
def StaysUndeclared (t t' : TypeTable) : Prop := t.Undeclared → t'.Undeclared

instance : Composable StaysUndeclared where
  refl _ := id
  trans _ _ _ h h' := h' ∘ h
  push _ hadmits _ h := h.push (Form.isDeclared_eq_false hadmits.isStructural)

end TypeTable

theorem Operators.standard_undeclared :
    Moves TypeTable.StaysUndeclared (standard : TableM ε Operators) := by
  have hprimitive : ∀ name, Moves TypeTable.StaysUndeclared
      (TypeTable.internPrimitive name : TableM ε TypeId) := fun _ _ =>
    TypeTable.intern_at fun _ h => h.push rfl
  exact .bind (hprimitive _) fun _ => .bind (hprimitive _) fun _ => registerAll_moves _ _

namespace Session

theorem undeclared_of_standard (h : Session.standard generics config = .ok fresh) :
    fresh.table.Undeclared := by
  obtain ⟨builtin, table, hoperators, rfl⟩ := standard_eq_ok.mp h
  exact Operators.standard_undeclared.ok hoperators (TypeTable.undeclared_new generics)

/-! ## What sessions have in common -/

/-- The second session comes from the first by checking and loading. -/
structure Continues (fresh session : Session) : Prop where
  builtin : session.builtin = fresh.builtin
  config : session.config = fresh.config
  table : fresh.table.Grows session.table
  basis : fresh.table.SameBasis session.table

theorem Reachable.continues (hfresh : Session.standard generics config = .ok fresh)
    (h : session.Reachable generics config) : fresh.Continues session := by
  induction h with
  | standard h =>
    obtain rfl := Except.ok.inj (hfresh.symm.trans h)
    exact ⟨rfl, rfl, .refl, refl_of TypeTable.SameBasis _⟩
  | check _ h ih =>
    obtain ⟨p, hrun, -, rfl⟩ := check_eq_ok.mp h
    exact ⟨ih.builtin, ih.config, ih.table.trans (Check.grows_of_run hrun),
      trans_of TypeTable.SameBasis ih.basis (Check.sameBasis_of_run hrun)⟩
  | load names text _ ih =>
    have hextends := loadType_extends ‹_› names text
    exact ⟨(loadType_builtin _ names text).trans ih.builtin,
      (loadType_config _ names text).trans ih.config, ih.table.trans hextends.grows,
      trans_of TypeTable.SameBasis ih.basis hextends.sameBasis⟩

/-- The types that a session begins with keep their ids and forms. -/
theorem Continues.form?_eq (h : fresh.Continues session) (hundeclared : fresh.table.Undeclared)
    {id : TypeId} (hid : id.index < fresh.table.size) :
    session.table.form? id = fresh.table.form? id := by
  obtain ⟨form, hform⟩ := TypeTable.exists_form?_of_lt hid
  rw [hform, h.table.form? hform (hundeclared id form hform)]

/-- **Sessions over the same generics begin with the same types.** -/
theorem Reachable.matches (h : session.Reachable generics config)
    (h' : session'.Reachable generics config) :
    ∃ R, TypeTable.Matches R session.table session'.table ∧
      session.builtin.Renames R session'.builtin ∧ session'.config = session.config := by
  obtain ⟨fresh, hfresh⟩ := standard_ends generics config
  have hcanonical := (Reachable.standard hfresh).canonical
  have hundeclared := undeclared_of_standard hfresh
  have hc := h.continues hfresh
  have hc' := h'.continues hfresh
  have hforms : ∀ id : TypeId, id.index < fresh.table.size → ∃ form,
      fresh.table.form? id = some form ∧ session.table.form? id = some form ∧
        session'.table.form? id = some form ∧ form.isDeclared = false := by
    intro id hid
    obtain ⟨form, hform⟩ := TypeTable.exists_form?_of_lt hid
    exact ⟨form, hform, (hc.form?_eq hundeclared hid).trans hform,
      (hc'.form?_eq hundeclared hid).trans hform, hundeclared id form hform⟩
  have hn : 2 ≤ fresh.table.size := TypeTable.form?_eq_some_lt hcanonical.noValue
  refine ⟨.below _ hn, .of_agreement hn h.canonical h'.canonical ?_ ?_ ?_ ?_ ?_ ?_, ?_,
    hc'.config.trans hc.config.symm⟩
  · -- the last type of the new session is still there
    obtain ⟨_, -, hlast, -⟩ := hforms ⟨fresh.table.size - 1⟩ (by change _ - 1 < _; omega)
    have := TypeTable.form?_eq_some_lt hlast
    change fresh.table.size - 1 < _ at this
    omega
  · intro id hid
    obtain ⟨form, -, hform, hform', -⟩ := hforms id hid
    rw [hform, hform']
  · intro id form hid hform part hpart
    obtain ⟨form', hfresh, hform', -⟩ := hforms id hid
    obtain rfl := Option.some.inj (hform.symm.trans hform')
    exact hcanonical.issued id form hfresh part hpart
  · intro id hid
    obtain ⟨form, -, hform, hform', hdeclared⟩ := hforms id hid
    exact iff_of_false (h.canonical.not_pending hform hdeclared)
      (h'.canonical.not_pending hform' hdeclared)
  · refine ⟨fun name => ?_, ?_⟩
    · rw [hc.basis.primitive?, hc'.basis.primitive?]
    · rw [hc.basis.generics, hc'.basis.generics]
  · intro name id hid
    rw [hc.basis.primitive?] at hid
    exact TypeTable.form?_eq_some_lt (TypeTable.form?_of_find? hid)
  · have hplain := (Reachable.standard hfresh).plain
    rw [hc.builtin, hc'.builtin]
    refine ⟨⟨rfl, hplain.number.issued⟩, ⟨rfl, hplain.string.issued⟩,
      ⟨rfl, hplain.truth.issued⟩, fun symbol => ?_⟩
    cases hsymbol : fresh.builtin.overloads.get? symbol with
    | none => exact .none
    | some ids =>
      refine .some (List.forall₂_same.mpr fun id hid => ⟨rfl, ?_⟩)
      refine (hplain.candidates symbol id ?_).issued
      simpa [Operators.candidates, hsymbol] using hid

end Session

/-! ## Reports -/

/-- A report as it appears to someone who does not see the ids of types. -/
structure Report.View where
  findings : List Finding
  /-- The name, kind, node and symbol of every function without a finding. -/
  functions : List (String × FunctionKind × NodeId × String)
  nodes : NodeId → Option (Option String × Option Fingerprint)
  globals : String → Option (Option String × Option Fingerprint)
  names : String → Option (Option String × Option Fingerprint)

/-- The report with types shown by their text and fingerprint in a table. -/
def Report.view (report : Report) (table : TypeTable) : Report.View where
  findings := report.findings
  functions := report.functions.map fun f => (f.name, f.kind, f.node, f.symbol)
  nodes node := (report.annotations.get? node).map table.appearance
  globals name := (report.globals.get? name).map table.appearance
  names name := (report.names.get? name).map table.appearance

/-- What a check of a program shows, if it answers. -/
def Session.outcome (session : Session) (program : Program) : Option Report.View :=
  (session.check program).toOption.map fun answer => answer.1.view answer.2.table

namespace Check

variable {cx cx' : Setting}

theorem sameItem_same {program : Program} (htree : program.IsTree)
    (harena : cx.arena = program.arena) (harena' : cx'.arena = cx.arena)
    (hconfig : cx'.config = cx.config) {items : List Item}
    (hfrom : itemsFrom cx.arena 0 program.items = .ok items) :
    Forall₂ (SameItem (Copy.same harena' hconfig) none) items items := by
  have hfrom' : itemsFrom cx.arena 0 (program.items.map id) = .ok items := by rwa [List.map_id]
  refine forall₂_of_itemsFrom hfrom hfrom' fun i n node node' hn hnode hnode' => ?_
  obtain rfl := Option.some.inj (hnode.symm.trans hnode')
  have hfits : cx'.arena.Fits cx'.arena.size n := by
    rw [harena', harena]
    exact htree.fits (htree.index_lt_of_item (List.mem_of_getElem? hn)) le_rfl
  have hcopied : SameItem (Copy.same harena' hconfig) none ⟨0 + i, n, node⟩
      ⟨0 + i, n, node.rename id⟩ := .copied nofun trivial hnode hfits
  rwa [Node.rename_id] at hcopied

/-- Two runs that are abreast over the same nodes show the same. -/
theorem Abreast.view_eq {harena : cx'.arena = cx.arena} {hconfig : cx'.config = cx.config}
    {R : Renaming} {p p' : Progress} (h : Abreast (Copy.same harena hconfig) none R p p') :
    p'.report.view p'.state.table = p.report.view p.state.table := by
  have hfindings : p'.findings = p.findings := by simpa using h.findings
  have hfunctions : Forall₂ (SameFunction (Copy.same harena hconfig) R) p.functions
      p'.functions := by
    simpa using h.functions
  unfold Report.view Progress.report
  simp only [NameMap.get?_map, Option.map_map, Report.View.mk.injEq]
  refine ⟨by rw [hfindings], SameFunction.map_eq hfunctions, ?_, ?_, ?_⟩
  · exact funext fun n => h.state.appearance_of_node trivial
  · exact funext h.state.appearance_of_global
  · exact funext h.state.appearance_of_name

/-- A run that ends is followed by the run in another setting, and the two show the same. -/
theorem run_same {program : Program} {t t' : TypeTable} {p : Progress}
    (hrun : run cx program.items t = .ok p) (htree : program.IsTree)
    (harena : cx.arena = program.arena) (harena' : cx'.arena = cx.arena)
    (hconfig : cx'.config = cx.config) {R : Renaming} (htable : TypeTable.Matches R t t')
    (hbuiltin : cx.builtin.Renames R cx'.builtin) :
    ∃ p', run cx' program.items t' = .ok p' ∧
      p'.report.view p'.state.table = p.report.view p.state.table := by
  obtain ⟨items, _, hfrom, -⟩ := run_eq_ok.mp hrun
  have hstart : Mirrored (Copy.same harena' hconfig) R (State.start t cx.arena.size)
      (State.start t' cx'.arena.size) := .start htable hbuiltin fun n _ hn => by rwa [harena']
  obtain ⟨R', p', hrun', hp⟩ := run_echoes hfrom (by rwa [harena'])
    (sameItem_same htree harena harena' hconfig hfrom) hstart hrun (absurd rfl)
  exact ⟨p', hrun', hp.view_eq⟩

end Check

/-- A check that answers in one session answers in every other, and shows the same. -/
theorem Session.check_echoes (h : session.Reachable generics config)
    (h' : session'.Reachable generics config) {program : Program} (htree : program.IsTree) :
    Echoes (fun answer answer' => answer'.1.view answer'.2.table = answer.1.view answer.2.table)
      (session.check program) (session'.check program) := by
  rintro ⟨report, last⟩ hcheck
  obtain ⟨p, hrun, rfl, rfl⟩ := check_eq_ok.mp hcheck
  obtain ⟨R, htable, hbuiltin, hconfig⟩ := h.matches h'
  obtain ⟨p', hrun', hview⟩ : ∃ p', Check.run ⟨program.arena, session'.builtin, session'.config⟩
      program.items session'.table = .ok p' ∧ _ :=
    Check.run_same hrun htree rfl rfl hconfig htable hbuiltin
  exact ⟨_, check_eq_ok.mpr ⟨p', hrun', rfl, rfl⟩, hview⟩

/-- **A check does not depend on the history of the session.** Whatever programs a session has
checked and whatever types it has loaded, checking a row of trees shows what it shows in a new
session over the same generics and choices: the findings, the functions with their symbols, and for
every node, global name and declared struct whether it has a type, and the text and the fingerprint
of that type. With slices of one element type, a check always shows something. -/
theorem Session.outcome_eq (hsession : session.Reachable generics config)
    (hfresh : Session.standard generics config = .ok fresh) {program : Program}
    (htree : program.IsTree) :
    session.outcome program = fresh.outcome program ∧
      (generics.get? Form.sliceName = some 1 → (session.outcome program).isSome = true) := by
  have hnew := Reachable.standard hfresh
  constructor
  · exact (check_echoes hnew hsession htree).map_toOption_eq (fun _ _ hview => hview)
      (check_echoes hsession hnew htree)
  · intro harity
    obtain ⟨report, last, hcheck⟩ := check_ends hsession harity htree
    rw [outcome, hcheck]
    rfl

/-- The structs of an earlier check of the same program and a loaded type are in the way, so that
the signature of the third item has another id than in a new session, and nothing else differs. -/
theorem Session.outcome_eq_listsAndLoop :
    ∃ fresh session : Session, Session.standard Generics.standard .permissive = .ok fresh ∧
      session.Reachable Generics.standard .permissive ∧ Program.listsAndLoop.IsTree ∧
      (∃ report last report' last', session.check Program.listsAndLoop = .ok (report, last) ∧
        fresh.check Program.listsAndLoop = .ok (report', last') ∧
        report.annotations.get? ⟨2⟩ = some ⟨18⟩ ∧ report'.annotations.get? ⟨2⟩ = some ⟨12⟩) ∧
      session.outcome Program.listsAndLoop = fresh.outcome Program.listsAndLoop := by
  have heval : (do
      let fresh ← Session.standard Generics.standard .permissive
      let earlier ← fresh.check Program.listsAndLoop
      let later ← (earlier.2.loadType .empty "*string").2.check Program.listsAndLoop
      let new ← fresh.check Program.listsAndLoop
      return (later.1.annotations.get? ⟨2⟩, new.1.annotations.get? ⟨2⟩)) =
        Except.ok (some ⟨18⟩, some ⟨12⟩) := by
    decide +kernel
  obtain ⟨fresh, hfresh, heval⟩ := except_bind_eq_ok.mp heval
  obtain ⟨⟨report₀, session⟩, hearlier, heval⟩ := except_bind_eq_ok.mp heval
  obtain ⟨⟨report, last⟩, hlater, heval⟩ := except_bind_eq_ok.mp heval
  obtain ⟨⟨report', last'⟩, hnew, heval⟩ := except_bind_eq_ok.mp heval
  obtain ⟨htype, htype'⟩ := Prod.mk.inj (Except.ok.inj heval)
  have hreachable := Reachable.load .empty "*string" (.check (.standard hfresh) hearlier)
  exact ⟨fresh, _, hfresh, hreachable, Program.listsAndLoop_isTree,
    ⟨report, last, report', last', hlater, hnew, htype, htype'⟩,
    (outcome_eq hreachable hfresh Program.listsAndLoop_isTree).1⟩

end RuleTypes
