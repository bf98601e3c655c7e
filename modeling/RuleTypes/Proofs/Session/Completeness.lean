import RuleTypes.Proofs.Check.Paths
import RuleTypes.Proofs.Session

/-!
# Checks leave nothing open

Below an item without a finding, a check in a session gives every node a final type
(`Session.annotations_complete`), and no way through the body of a function with a result ends
without a value of the result type (`Session.paths_end`).
-/

namespace RuleTypes

variable {generics : Generics} {config : Config} {session : Session}

/-! ## Annotations -/

/-- **Every node of a good item is annotated, and finally.** In a program that is a row of trees,
every node below an item without a finding has a type in the report. No type in the report is
provisional, and all of them were issued by the table of the session. -/
theorem Session.annotations_complete (hsession : session.Reachable generics config)
    {program : Program} (htree : program.IsTree) {p : Check.Progress}
    (hrun : Check.run ⟨program.arena, session.builtin, session.config⟩ program.items
      session.table = .ok p) :
    session.check program = .ok (p.report, { session with table := p.state.table }) ∧
      (∀ position item, program.items[position]? = some item →
        (∀ finding, (position, finding) ∉ p.findings) →
        ∀ id, program.arena.Below item id → p.report.annotations.get? id ≠ none) ∧
      ∀ id type, p.report.annotations.get? id = some type →
        type ≠ .auto ∧ type.index < p.state.table.size := by
  obtain ⟨items, hfrom, hcomplete⟩ := Check.complete_of_run hsession.canonical hsession.clear hrun
  have hitems := Check.itemsOf_of_itemsFrom htree hfrom
  obtain ⟨hids, hplaces⟩ := Check.itemsFrom_eq_ok hfrom
  refine ⟨check_eq_ok.mpr ⟨p, hrun, rfl, rfl⟩, fun position id hid hclean x hx => ?_,
    fun id type htype => ?_⟩
  · rw [← hids, List.getElem?_map, Option.map_eq_some_iff] at hid
    obtain ⟨item, hget, rfl⟩ := hid
    have hitem := List.mem_of_getElem? hget
    have hposition : item.position = position := by simpa using (hplaces position item hget).1
    -- an item that failed to be registered has a finding at its place
    have hnew : item.id ∉ p.failed := fun hfailed => by
      obtain ⟨other, hother, heq, finding, hfinding⟩ := hcomplete.failed item.id hfailed
      rw [hitems.eq_of_id hother hitem heq, hposition] at hfinding
      exact hclean finding hfinding
    rw [← hposition] at hclean
    obtain ⟨type, htype, -⟩ := hcomplete.finished item hitem hnew hclean x hx
    exact Option.ne_none_iff_exists'.mpr ⟨type, htype⟩
  · have hfinal : type ≠ .auto := fun heq => hcomplete.final id (heq ▸ htype)
    obtain hknown | ⟨hauto, -⟩ := hcomplete.aware.annotated id type htype nofun
    · exact ⟨hfinal, hknown.issued⟩
    · exact absurd hauto hfinal

theorem Session.annotations_complete_callOfMember :
    ∃ (session : Session) (p : Check.Progress), session.Reachable Generics.standard .permissive ∧
      Program.callOfMember.IsTree ∧
      Check.run ⟨Program.callOfMember.arena, session.builtin, session.config⟩
        Program.callOfMember.items session.table = .ok p ∧
      p.findings.map (·.1) = [2] ∧ p.report.annotations.get? ⟨5⟩ ≠ none ∧
      ∀ id type, p.report.annotations.get? id = some type →
        type ≠ .auto ∧ type.index < p.state.table.size := by
  obtain ⟨session, p, hreachable, hrun, hfindings⟩ :=
    exists_run Program.callOfMember (fun _ p => p.findings.map (·.1) = [2]) (by decide +kernel)
  obtain ⟨-, hbelow, hfinal⟩ :=
    annotations_complete hreachable Program.callOfMember_isTree hrun
  refine ⟨session, p, hreachable, Program.callOfMember_isTree, hrun, hfindings, ?_, hfinal⟩
  refine hbelow 1 ⟨7⟩ rfl (fun finding hmem => ?_) ⟨5⟩ ?_
  · have hplace := List.mem_map_of_mem (f := fun f => f.1) hmem
    rw [hfindings] at hplace
    simp at hplace
  · have hvar : Program.callOfMember.arena.IsChild ⟨7⟩ ⟨6⟩ :=
      ⟨⟨.var "x" .auto ⟨6⟩, .nowhere⟩, by decide +kernel, by decide⟩
    have hcall : Program.callOfMember.arena.IsChild ⟨6⟩ ⟨5⟩ :=
      ⟨⟨.call ⟨5⟩ [], .nowhere⟩, by decide +kernel, by decide⟩
    exact hvar.below.trans hcall.below

/-! ## Paths -/

/-- **Functions with a result never fall off the end.** A function in the report is that of a node,
and its signature has a result. If there is a value to return, every way through the body ends in a
`return` of a value that has the result type in the report, or at a final node that has it. -/
theorem Session.paths_end (hsession : session.Reachable generics config) {program : Program}
    {p : Check.Progress} (hrun : Check.run ⟨program.arena, session.builtin, session.config⟩
      program.items session.table = .ok p) :
    session.check program = .ok (p.report, { session with table := p.state.table }) ∧
      ∀ f ∈ p.report.functions, ∃ node name kind params written body paramTypes result,
        program.arena.node? f.node = some node ∧
        node.kind = .function name kind params written body ∧
        p.state.table.form? f.signature = some (.function paramTypes result) ∧
        (result ≠ .noValue → ∀ exit, program.arena.Runs (.node body) exit →
          (∃ value, exit = .left .toCaller (some value) ∧
            p.report.annotations.get? value = some result) ∨
          ∃ final, exit = .completed (some final) ∧
            p.report.annotations.get? final = some result) := by
  obtain ⟨items, -, hcomplete⟩ := Check.complete_of_run hsession.canonical hsession.clear hrun
  refine ⟨check_eq_ok.mpr ⟨p, hrun, rfl, rfl⟩, fun f hf => ?_⟩
  obtain ⟨node, name, kind, params, written, body, hnode, hkind, hflows⟩ := hcomplete.listed f hf
  obtain ⟨paramTypes, result, -, hform, -⟩ := id hflows
  exact ⟨node, name, kind, params, written, body, paramTypes, result, hnode, hkind, hform,
    fun hresult _ hruns => hflows.ends hform hresult hruns⟩

/-- `func pick(x f64) f64 { while x { break }; if x { return x }; x }`. -/
def Program.returnInBranch : Program where
  arena := ⟨#[⟨.identifier "x", ⟨2, 7, 0⟩⟩, ⟨.jump .afterLoop none, ⟨2, 11, 0⟩⟩,
    ⟨.block [⟨1⟩], ⟨2, 9, 0⟩⟩, ⟨.loop none ⟨0⟩ ⟨2⟩, ⟨2, 1, 0⟩⟩, ⟨.identifier "x", ⟨3, 4, 0⟩⟩,
    ⟨.identifier "x", ⟨3, 15, 0⟩⟩, ⟨.jump .toCaller (some ⟨5⟩), ⟨3, 8, 0⟩⟩,
    ⟨.block [⟨6⟩], ⟨3, 6, 0⟩⟩, ⟨.branch ⟨4⟩ ⟨7⟩ none, ⟨3, 1, 0⟩⟩, ⟨.identifier "x", ⟨4, 1, 0⟩⟩,
    ⟨.block [⟨3⟩, ⟨8⟩, ⟨9⟩], ⟨1, 22, 0⟩⟩,
    ⟨.function "pick" .normal [("x", .named "f64")] (some (.named "f64")) ⟨10⟩, ⟨1, 1, 0⟩⟩]⟩
  items := [⟨11⟩]

theorem Program.returnInBranch_runs_name {id : NodeId} {span : Span}
    (h : Program.returnInBranch.arena.node? id = some ⟨.identifier "x", span⟩) :
    Program.returnInBranch.arena.Runs (.node id) (.completed (some id)) :=
  .node h (.operands rfl .nothing rfl)

/-- One way through the body breaks off the loop and returns what was asked for. -/
theorem Program.returnInBranch_returns :
    Program.returnInBranch.arena.Runs (.node ⟨10⟩) (.left .toCaller (some ⟨5⟩)) := by
  have hbreak : Program.returnInBranch.arena.Runs (.node ⟨2⟩) (.left .afterLoop none) :=
    .node rfl (.block (.leave (.node rfl (.operands rfl .nothing rfl))))
  have hround : Program.returnInBranch.arena.Runs (.sequence [⟨0⟩, ⟨2⟩])
      (.left .afterLoop none) :=
    .next (List.cons_ne_nil _ _) (returnInBranch_runs_name rfl) (.leave hbreak)
  have hloop : Program.returnInBranch.arena.Runs (.node ⟨3⟩) (.completed none) :=
    .node rfl (.loop .nothing rfl (.roundLeaves hround rfl))
  have hreturn : Program.returnInBranch.arena.Runs (.node ⟨6⟩) (.left .toCaller (some ⟨5⟩)) :=
    .node rfl (.operands rfl (.last rfl (returnInBranch_runs_name rfl) rfl) rfl)
  have hbranch : Program.returnInBranch.arena.Runs (.node ⟨8⟩) (.left .toCaller (some ⟨5⟩)) :=
    .node rfl (.onlyArm (returnInBranch_runs_name rfl) (.node rfl (.block (.leave hreturn))) rfl)
  exact .node rfl (.block (.next (List.cons_ne_nil _ _) hloop (.leave hbranch)))

/-- Another way skips the loop and the branch. -/
theorem Program.returnInBranch_completes :
    Program.returnInBranch.arena.Runs (.node ⟨10⟩) (.completed (some ⟨9⟩)) := by
  have hloop : Program.returnInBranch.arena.Runs (.node ⟨3⟩) (.completed none) :=
    .node rfl (.loop .nothing rfl (.stop (returnInBranch_runs_name rfl)))
  have hbranch : Program.returnInBranch.arena.Runs (.node ⟨8⟩) (.completed none) :=
    .node rfl (.skip (returnInBranch_runs_name rfl))
  exact .node rfl (.block (.next (List.cons_ne_nil _ _) hloop (.next (List.cons_ne_nil _ _) hbranch
    (.last rfl (returnInBranch_runs_name rfl) rfl))))

theorem Session.paths_end_returnInBranch :
    ∃ (session : Session) (p : Check.Progress), session.Reachable Generics.standard .permissive ∧
      Check.run ⟨Program.returnInBranch.arena, session.builtin, session.config⟩
        Program.returnInBranch.items session.table = .ok p ∧
      p.report.functions.map (·.node) = [⟨11⟩] ∧
      p.report.annotations.get? ⟨5⟩ = some session.builtin.number ∧
      p.report.annotations.get? ⟨9⟩ = some session.builtin.number := by
  obtain ⟨session, p, hreachable, hrun, hlist, hnumber⟩ :=
    exists_run Program.returnInBranch (fun session p => p.report.functions.map
      (fun f => (f.node, p.state.table.form? f.signature)) =
        [(⟨11⟩, some (.function [⟨2⟩] ⟨2⟩))] ∧ session.builtin.number = ⟨2⟩) (by decide +kernel)
  obtain ⟨f, rest, hfunctions, hf, hrest⟩ := List.map_eq_cons_iff.mp hlist
  obtain rfl := List.map_eq_nil_iff.mp hrest
  obtain ⟨hfnode, hsignature⟩ := Prod.mk.inj hf
  obtain ⟨node, name, kind, params, written, body, paramTypes, result, hnode, hkind, hform,
    hends⟩ :=
    (paths_end hreachable hrun).2 f (by rw [hfunctions]; exact List.mem_singleton.mpr rfl)
  rw [hfnode] at hnode
  obtain rfl : (⟨.function "pick" .normal [("x", .named "f64")] (some (.named "f64")) ⟨10⟩,
    ⟨1, 1, 0⟩⟩ : Node) = node := Option.some.inj hnode
  cases hkind
  cases hsignature.symm.trans hform
  refine ⟨session, p, hreachable, hrun, by rw [hfunctions]; simp [hfnode], ?_, ?_⟩
  · rw [hnumber]
    obtain ⟨value, hvalue, htype⟩ | ⟨final, hfinal, -⟩ := hends (by decide) _
      Program.returnInBranch_returns
    · cases hvalue
      exact htype
    · cases hfinal
  · rw [hnumber]
    obtain ⟨value, hvalue, -⟩ | ⟨final, hfinal, htype⟩ := hends (by decide) _
      Program.returnInBranch_completes
    · cases hvalue
    · cases hfinal
      exact htype

end RuleTypes
