import RuleTypes.Proofs.Check.Placement
import RuleTypes.Proofs.Session

/-!
# Control flow in its place

In a session, the jumps of an item without a finding are where they may be, and only jumps that are
not are reported as misplaced (`Session.control_flow_in_place`).
-/

namespace RuleTypes

variable {generics : Generics} {config : Config} {session : Session}

/-- **Control flow is placed and typed correctly.** In a program that is a row of trees, every
`return` of an item without a finding lies in the body of the function that the item is, and its
value has the type of the result in the report. Around every other jump of such an item, there is a
loop of the item. Conversely, a finding that a jump is misplaced stands where a jump of the item
stands that has the keyword, and no node of the item that the jump could leave is around it. -/
theorem Session.control_flow_in_place (hsession : session.Reachable generics config)
    {program : Program} (htree : program.IsTree) {p : Check.Progress}
    (hrun : Check.run ⟨program.arena, session.builtin, session.config⟩ program.items
      session.table = .ok p) :
    session.check program = .ok (p.report, { session with table := p.state.table }) ∧
      (∀ position item, program.items[position]? = some item →
        (∀ finding, (position, finding) ∉ p.findings) →
        ∀ id node kind value, program.arena.Below item id → program.arena.node? id = some node →
          node.kind = .jump kind value →
          (kind = .toCaller → Check.ReturnsFrom ⟨program.arena, session.builtin, session.config⟩
            p.state item id value) ∧
          (kind ≠ .toCaller → program.arena.Surrounded NodeKind.isLoop item id)) ∧
      ∀ position finding keyword, (position, finding) ∈ p.findings →
        finding.problem = .misplacedJump keyword →
        ∃ item id node kind value, program.items[position]? = some item ∧
          program.arena.Below item id ∧ program.arena.node? id = some node ∧
          finding.span = node.span ∧ node.kind = .jump kind value ∧ kind.keyword = keyword ∧
          ¬ program.arena.Surrounded kind.leaves item id := by
  obtain ⟨items, -, hfrom, -, -⟩ := Check.run_eq_ok.mp hrun
  obtain ⟨hids, hplaces⟩ := Check.itemsFrom_eq_ok hfrom
  have hget : ∀ position (item : Check.Item), items[position]? = some item →
      item.position = position := fun position item h => by simpa using (hplaces position item h).1
  refine ⟨check_eq_ok.mpr ⟨p, hrun, rfl, rfl⟩, ?_, ?_⟩
  · intro position id hid hclean x node kind value hx hnode hkind
    rw [← hids, List.getElem?_map, Option.map_eq_some_iff] at hid
    obtain ⟨item, hitem, rfl⟩ := hid
    rw [← hget position item hitem] at hclean
    exact Check.jump_of_run htree rfl hsession.canonical hsession.clear hfrom hrun
      (List.mem_of_getElem? hitem) hclean hx hnode hkind
  · intro position finding keyword hfinding hproblem
    obtain ⟨item, hitem, hposition, n, node, hn, hnode, hspan, hjump⟩ :=
      Check.attributed_of_run hfrom hrun _ _ hfinding
    obtain ⟨kind, value, hkind, hkeyword, -, havoids⟩ := hjump keyword hproblem
    obtain ⟨i, hi⟩ := List.mem_iff_getElem?.mp hitem
    obtain rfl : i = position := (hget i item hi).symm.trans hposition
    refine ⟨item.id, n, node, kind, value, ?_, hn, hnode, hspan, hkind, hkeyword,
      htree.isForest.not_surrounded havoids⟩
    rw [← hids, List.getElem?_map, hi]
    rfl

/-- `func f(x f64) f64 { while x { break }; return x }`, and a block that breaks off no loop. -/
def Program.strayBreak : Program where
  arena := ⟨#[⟨.identifier "x", ⟨2, 7, 0⟩⟩, ⟨.jump .afterLoop none, ⟨2, 11, 0⟩⟩,
    ⟨.block [⟨1⟩], ⟨2, 9, 0⟩⟩, ⟨.loop none ⟨0⟩ ⟨2⟩, ⟨2, 1, 0⟩⟩, ⟨.identifier "x", ⟨3, 8, 0⟩⟩,
    ⟨.jump .toCaller (some ⟨4⟩), ⟨3, 1, 0⟩⟩, ⟨.block [⟨3⟩, ⟨5⟩], ⟨1, 19, 0⟩⟩,
    ⟨.function "f" .normal [("x", .named "f64")] (some (.named "f64")) ⟨6⟩, ⟨1, 1, 0⟩⟩,
    ⟨.jump .afterLoop none, ⟨4, 3, 0⟩⟩, ⟨.block [⟨8⟩], ⟨4, 1, 0⟩⟩]⟩
  items := [⟨7⟩, ⟨9⟩]

theorem Program.strayBreak_isTree : Program.strayBreak.IsTree where
  inRange := by decide
  once := by decide
  acyclic := Arena.acyclic_of_index_lt (by decide)

theorem Session.control_flow_in_place_strayBreak :
    ∃ (session : Session) (p : Check.Progress), session.Reachable Generics.standard .permissive ∧
      Program.strayBreak.IsTree ∧
      Check.run ⟨Program.strayBreak.arena, session.builtin, session.config⟩
        Program.strayBreak.items session.table = .ok p ∧
      p.findings = [(1, ⟨.misplacedJump "break", ⟨4, 3, 0⟩⟩)] ∧
      Check.ReturnsFrom ⟨Program.strayBreak.arena, session.builtin, session.config⟩
        p.state ⟨7⟩ ⟨5⟩ (some ⟨4⟩) ∧
      Program.strayBreak.arena.Surrounded NodeKind.isLoop ⟨7⟩ ⟨1⟩ ∧
      ∃ id kind value, Program.strayBreak.arena.Below ⟨9⟩ id ∧
        Program.strayBreak.arena.node? id = some ⟨.jump kind value, ⟨4, 3, 0⟩⟩ ∧
        kind.keyword = "break" ∧ ¬ Program.strayBreak.arena.Surrounded kind.leaves ⟨9⟩ id := by
  obtain ⟨session, p, hreachable, hrun, hfindings⟩ :=
    exists_run Program.strayBreak
      (fun _ p => p.findings = [(1, ⟨.misplacedJump "break", ⟨4, 3, 0⟩⟩)]) (by decide +kernel)
  obtain ⟨-, hplaced, hmisplaced⟩ :=
    control_flow_in_place hreachable Program.strayBreak_isTree hrun
  have hclean : ∀ finding, (0, finding) ∉ p.findings := by simp [hfindings]
  have hbody : Program.strayBreak.arena.Below ⟨7⟩ ⟨6⟩ := Arena.IsChild.below ⟨_, rfl, by decide⟩
  have hloop : Program.strayBreak.arena.Below ⟨6⟩ ⟨3⟩ := Arena.IsChild.below ⟨_, rfl, by decide⟩
  have hround : Program.strayBreak.arena.Below ⟨3⟩ ⟨2⟩ := Arena.IsChild.below ⟨_, rfl, by decide⟩
  have hbreak : Program.strayBreak.arena.Below ⟨2⟩ ⟨1⟩ := Arena.IsChild.below ⟨_, rfl, by decide⟩
  have hreturn : Program.strayBreak.arena.Below ⟨6⟩ ⟨5⟩ := Arena.IsChild.below ⟨_, rfl, by decide⟩
  refine ⟨session, p, hreachable, Program.strayBreak_isTree, hrun, hfindings, ?_, ?_, ?_⟩
  · exact (hplaced 0 ⟨7⟩ rfl hclean ⟨5⟩ _ .toCaller (some ⟨4⟩) (hbody.trans hreturn) rfl rfl).1 rfl
  · exact (hplaced 0 ⟨7⟩ rfl hclean ⟨1⟩ _ .afterLoop none
      (((hbody.trans hloop).trans hround).trans hbreak) rfl rfl).2 (by decide)
  · obtain ⟨item, id, ⟨_, _⟩, kind, value, hitem, hid, hnode, rfl, rfl, hkeyword, hstray⟩ :=
      hmisplaced 1 ⟨.misplacedJump "break", ⟨4, 3, 0⟩⟩ "break" (by simp [hfindings]) rfl
    obtain rfl : ⟨9⟩ = item := Option.some.inj hitem
    exact ⟨id, kind, value, hid, hnode, hkeyword, hstray⟩

end RuleTypes
