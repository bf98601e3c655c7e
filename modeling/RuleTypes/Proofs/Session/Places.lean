import RuleTypes.Proofs.Check.Attribution
import RuleTypes.Proofs.Session

/-!
# Where findings stand

In a session, a finding stands where a node of its item stands, and one of registration where the
item itself stands (`Session.findings_within_items`).
-/

namespace RuleTypes

/-- **Findings stand in their own items.** In a session with any history, the check of a program
that is a row of trees comes to an end, as long as slices take one argument. Whenever a check comes
to an end, its report has the findings of its run. Those of registration, of whatever pass, stand
where the item at their place stands; all others stand where a node of that item stands, the item
itself or one below it. -/
theorem Session.findings_within_items (session : Session) (program : Program) :
    (∀ generics config, session.Reachable generics config →
      generics.get? Form.sliceName = some 1 → program.IsTree →
      ∃ p, Check.run ⟨program.arena, session.builtin, session.config⟩ program.items
        session.table = .ok p) ∧
    ∀ p, Check.run ⟨program.arena, session.builtin, session.config⟩ program.items
        session.table = .ok p →
      session.check program = .ok (p.report, { session with table := p.state.table }) ∧
      p.report.findings.Perm (p.findings.map (·.2)) ∧
      ∃ items q later, Check.itemsFrom program.arena 0 program.items = .ok items ∧
        Check.registered ⟨program.arena, session.builtin, session.config⟩ items session.table =
          .ok q ∧ p.findings = q.findings ++ later ∧
        (∀ position finding, (position, finding) ∈ q.findings →
          ∃ item node, program.items[position]? = some item ∧
            program.arena.node? item = some node ∧ finding.span = node.span) ∧
        ∀ position finding, (position, finding) ∈ later →
          ∃ item id node, program.items[position]? = some item ∧ program.arena.Below item id ∧
            program.arena.node? id = some node ∧ finding.span = node.span := by
  refine ⟨fun generics config hsession harity htree => ?_, fun p hrun => ?_⟩
  · obtain ⟨report, session', hcheck⟩ := check_ends hsession harity htree
    obtain ⟨p, hrun, -⟩ := check_eq_ok.mp hcheck
    exact ⟨p, hrun⟩
  obtain ⟨items, q, hitems, hregistered, hcheck⟩ := Check.run_eq_ok.mp hrun
  obtain ⟨later, hlater⟩ := Check.findings_of_checkItems hcheck
  refine ⟨check_eq_ok.mpr ⟨p, hrun, rfl, rfl⟩, (List.mergeSort_perm _ _).map _, items, q, later,
    hitems, hregistered, hlater, fun position finding hfinding => ?_,
    fun position finding hfinding => ?_⟩
  · obtain ⟨item, hitem, rfl, hspan⟩ := Check.span_of_registered hregistered _ _ hfinding
    exact ⟨item.id, item.node, Check.getElem?_of_itemsFrom hitems hitem,
      Check.node?_of_itemsFrom hitems hitem, hspan⟩
  · obtain ⟨item, hitem, rfl, id, node, hbelow, hnode, hspan, -⟩ :=
      Check.attributed_of_run hitems hrun position finding
        (hlater ▸ List.mem_append_right _ hfinding)
    exact ⟨item.id, id, node, Check.getElem?_of_itemsFrom hitems hitem, hbelow, hnode, hspan⟩

/-- `func f(x Missing) x; var y = 1 + missing`. -/
def Program.missingNames : Program where
  arena := ⟨#[⟨.identifier "x", ⟨1, 19, 0⟩⟩,
    ⟨.function "f" .normal [("x", .named "Missing")] none ⟨0⟩, ⟨1, 1, 0⟩⟩,
    ⟨.number, ⟨2, 9, 0⟩⟩, ⟨.identifier "missing", ⟨2, 13, 0⟩⟩, ⟨.binary "+" ⟨2⟩ ⟨3⟩, ⟨2, 11, 0⟩⟩,
    ⟨.var "y" .auto ⟨4⟩, ⟨2, 1, 0⟩⟩]⟩
  items := [⟨1⟩, ⟨5⟩]

theorem Program.missingNames_isTree : Program.missingNames.IsTree where
  inRange := by decide
  once := by decide
  acyclic := Arena.acyclic_of_index_lt (by decide)

/-- The unknown type of a parameter is reported where the function stands, and the unknown name
where it stands in the sum. -/
theorem Session.findings_within_items_missingNames :
    ∃ (session : Session) (p : Check.Progress), session.Reachable Generics.standard .permissive ∧
      Generics.standard.get? Form.sliceName = some 1 ∧ Program.missingNames.IsTree ∧
      Check.run ⟨Program.missingNames.arena, session.builtin, session.config⟩
        Program.missingNames.items session.table = .ok p ∧
      p.findings = [(0, ⟨.unknownType "Missing", ⟨1, 1, 0⟩⟩),
        (1, ⟨.undefinedSymbol "missing", ⟨2, 13, 0⟩⟩)] ∧
      (∃ node, Program.missingNames.arena.node? ⟨1⟩ = some node ∧ node.span = ⟨1, 1, 0⟩) ∧
      ∃ id node, Program.missingNames.arena.Below ⟨5⟩ id ∧
        Program.missingNames.arena.node? id = some node ∧ node.span = ⟨2, 13, 0⟩ := by
  have heval : (do
      let session ← Session.standard Generics.standard .permissive
      let items ← Check.itemsFrom Program.missingNames.arena 0 Program.missingNames.items
      let q ← Check.registered
        ⟨Program.missingNames.arena, session.builtin, session.config⟩ items session.table
      let p ← q.checkItems ⟨Program.missingNames.arena, session.builtin, session.config⟩ items
      return (q.findings, p.findings)) =
        Except.ok ([(0, ⟨.unknownType "Missing", ⟨1, 1, 0⟩⟩)],
          [(0, ⟨.unknownType "Missing", ⟨1, 1, 0⟩⟩),
            (1, ⟨.undefinedSymbol "missing", ⟨2, 13, 0⟩⟩)]) := by
    decide +kernel
  obtain ⟨session, hsession, heval⟩ := except_bind_eq_ok.mp heval
  obtain ⟨items, hitems, heval⟩ := except_bind_eq_ok.mp heval
  obtain ⟨q, hregistered, heval⟩ := except_bind_eq_ok.mp heval
  obtain ⟨p, hcheck, heval⟩ := except_bind_eq_ok.mp heval
  obtain ⟨hfirst, hfindings⟩ := Prod.mk.inj (Except.ok.inj heval)
  have hreachable := Session.Reachable.standard hsession
  have harity : Generics.standard.get? Form.sliceName = some 1 := by decide
  have hrun := Check.run_eq_ok.mpr ⟨items, q, hitems, hregistered, hcheck⟩
  obtain ⟨-, hplaces⟩ := findings_within_items session Program.missingNames
  obtain ⟨-, -, items', q', later, hitems', hregistered', hlater, hitem, hnode⟩ := hplaces p hrun
  obtain rfl := Except.ok.inj (hitems.symm.trans hitems')
  obtain rfl := Except.ok.inj (hregistered.symm.trans hregistered')
  obtain rfl : [(1, ⟨.undefinedSymbol "missing", ⟨2, 13, 0⟩⟩)] = later := by
    rw [hfindings, hfirst] at hlater
    exact (List.cons.inj hlater).2
  refine ⟨session, p, hreachable, harity, Program.missingNames_isTree, hrun, hfindings, ?_, ?_⟩
  · obtain ⟨item, node, hplace, hnode, hspan⟩ := hitem 0 _ (hfirst ▸ List.mem_singleton_self _)
    obtain rfl : ⟨1⟩ = item := Option.some.inj hplace
    exact ⟨node, hnode, hspan.symm⟩
  · obtain ⟨item, id, node, hplace, hbelow, hnode, hspan⟩ := hnode 1 _ (List.mem_singleton_self _)
    obtain rfl : ⟨5⟩ = item := Option.some.inj hplace
    exact ⟨id, node, hbelow, hnode, hspan.symm⟩

end RuleTypes
