import RuleTypes.Proofs.Check.Discarded
import RuleTypes.Proofs.Session

/-!
# What failed items leave in the report

Below an item with a finding, a check in a session leaves no type but that of a node which an
earlier pass had given one to (`Session.annotated_iff_of_finding`). A struct that is declared and
cannot be filled still has a type in the report (`Session.unknownField_annotations`).
-/

namespace RuleTypes

variable {generics : Generics} {config : Config} {session : Session}

/-- **What a failed item leaves in the report.** In a program that is a row of trees, no node below
an item with a finding has a type, with two exceptions, both for the node of the item itself: a
function that could be registered keeps its signature, and a struct that could be declared, but not
filled or laid out, keeps the type it was declared as. -/
theorem Session.annotated_iff_of_finding (hsession : session.Reachable generics config)
    {program : Program} (htree : program.IsTree) {p : Check.Progress}
    (hrun : Check.run ⟨program.arena, session.builtin, session.config⟩ program.items
      session.table = .ok p) :
    session.check program = .ok (p.report, { session with table := p.state.table }) ∧
      ∃ items q, Check.itemsFrom program.arena 0 program.items = .ok items ∧
        Check.registered ⟨program.arena, session.builtin, session.config⟩ items session.table =
          .ok q ∧
        ∀ item ∈ items, ∀ finding, (item.position, finding) ∈ p.findings →
          ∀ id, program.arena.Below item.id id →
            (p.report.annotations.get? id ≠ none ↔
              id = item.id ∧ (item.IsSigned q ∨ item.IsDeclared session.table items)) ∧
            ∀ type, p.report.annotations.get? id = some type →
              q.state.annotations.get? id = some type ∧
              (item.IsSigned q → p.state.table.IsSignature type) ∧
              ∀ name fields, item.node.kind = .struct name fields →
                ∃ filled, p.state.table.form? type = some (.declared name filled) :=
  ⟨check_eq_ok.mpr ⟨p, hrun, rfl, rfl⟩,
    Check.annotated_iff_of_run htree rfl hsession.canonical hrun⟩

-- the variable in the branch stays bound, but its node has lost its type
example : (do
    let session ← Session.standard Generics.standard .permissive
    let (report, _) ← session.check Program.variableInBranch
    return (report.globals.get? "x", [0, 1, 2, 3, 4].filterMap fun i =>
      report.annotations.get? ⟨i⟩)) = Except.ok (some ⟨2⟩, []) := by
  decide +kernel

/-- `type T { x Missing }`. -/
def Program.unknownField : Program where
  arena := ⟨#[⟨.struct "T" [("x", .named "Missing")], ⟨1, 1, 0⟩⟩]⟩
  items := [⟨0⟩]

/-- The struct fails when it is filled, and has a type all the same. -/
theorem Session.unknownField_annotations : Program.unknownField.IsTree ∧ (do
    let session ← Session.standard Generics.standard .permissive
    let (report, _) ← session.check Program.unknownField
    return (report.findings, report.annotations.get? ⟨0⟩)) =
      Except.ok ([⟨.unknownType "Missing", ⟨1, 1, 0⟩⟩], some ⟨8⟩) :=
  ⟨⟨by decide, by decide, Arena.acyclic_of_index_lt (by decide)⟩, by decide +kernel⟩

/-- `type T { x Missing }; type T { x f64 }; func f(x f64) f64 missing`. -/
def Program.brokenItems : Program where
  arena := ⟨#[⟨.struct "T" [("x", .named "Missing")], ⟨1, 1, 0⟩⟩,
    ⟨.struct "T" [("x", .named "f64")], ⟨2, 1, 0⟩⟩, ⟨.identifier "missing", ⟨3, 20, 0⟩⟩,
    ⟨.function "f" .normal [("x", .named "f64")] (some (.named "f64")) ⟨2⟩, ⟨3, 1, 0⟩⟩]⟩
  items := [⟨0⟩, ⟨1⟩, ⟨3⟩]

theorem Program.brokenItems_isTree : Program.brokenItems.IsTree where
  inRange := by decide
  once := by decide
  acyclic := Arena.acyclic_of_index_lt (by decide)

theorem Session.annotated_iff_of_finding_brokenItems :
    ∃ (session : Session) (p : Check.Progress), session.Reachable Generics.standard .permissive ∧
      Program.brokenItems.IsTree ∧
      Check.run ⟨Program.brokenItems.arena, session.builtin, session.config⟩
        Program.brokenItems.items session.table = .ok p ∧ p.findings.map (·.1) = [1, 0, 2] ∧
      p.report.annotations.get? ⟨0⟩ ≠ none ∧ p.report.annotations.get? ⟨1⟩ = none ∧
      p.report.annotations.get? ⟨2⟩ = none := by
  obtain ⟨session, p, hreachable, hrun, hfindings, hprimitive⟩ :=
    exists_run Program.brokenItems (fun session p => p.findings.map (·.1) = [1, 0, 2] ∧
      session.table.primitive? "T" = none) (by decide +kernel)
  obtain ⟨-, items, q, hitems, -, hdiscards⟩ :=
    annotated_iff_of_finding hreachable Program.brokenItems_isTree hrun
  obtain rfl : [⟨0, ⟨0⟩, ⟨.struct "T" [("x", .named "Missing")], ⟨1, 1, 0⟩⟩⟩,
      ⟨1, ⟨1⟩, ⟨.struct "T" [("x", .named "f64")], ⟨2, 1, 0⟩⟩⟩,
      ⟨2, ⟨3⟩, ⟨.function "f" .normal [("x", .named "f64")] (some (.named "f64")) ⟨2⟩,
        ⟨3, 1, 0⟩⟩⟩] = items := Except.ok.inj hitems
  obtain ⟨hfirst, hrest⟩ := List.forall_mem_cons.mp hdiscards
  obtain ⟨hsecond, hrest⟩ := List.forall_mem_cons.mp hrest
  have hthird := List.forall_mem_singleton.mp hrest
  have hfound : ∀ position ∈ [1, 0, 2], ∃ finding, (position, finding) ∈ p.findings := by
    intro position hposition
    rw [← hfindings] at hposition
    obtain ⟨⟨_, finding⟩, hmem, rfl⟩ := List.mem_map.mp hposition
    exact ⟨finding, hmem⟩
  refine ⟨session, p, hreachable, Program.brokenItems_isTree, hrun, hfindings, ?_, ?_, ?_⟩
  · obtain ⟨finding, hfinding⟩ := hfound 0 (by simp)
    refine (hfirst finding hfinding ⟨0⟩ (.refl _)).1.mpr ⟨rfl, .inr ?_⟩
    exact ⟨_, _, rfl, by decide, hprimitive, by simp⟩
  · obtain ⟨finding, hfinding⟩ := hfound 1 (by simp)
    by_contra hne
    -- the name of the second struct is that of the first
    obtain ⟨-, ⟨⟨_, _, _, _, _, hkind⟩, -⟩ | ⟨name, fields, hkind, -, -, hnew⟩⟩ :=
      (hsecond finding hfinding ⟨1⟩ (.refl _)).1.mp hne
    · cases hkind
    · cases hkind
      exact hnew _ (List.mem_cons_self ..) Nat.zero_lt_one _ rfl
  · obtain ⟨finding, hfinding⟩ := hfound 2 (by simp)
    by_contra hne
    have hbody : Program.brokenItems.arena.IsChild ⟨3⟩ ⟨2⟩ :=
      ⟨⟨.function "f" .normal [("x", .named "f64")] (some (.named "f64")) ⟨2⟩, ⟨3, 1, 0⟩⟩,
        by decide +kernel, by decide⟩
    obtain ⟨heq, -⟩ := (hthird finding hfinding ⟨2⟩ hbody.below).1.mp hne
    cases heq

end RuleTypes
