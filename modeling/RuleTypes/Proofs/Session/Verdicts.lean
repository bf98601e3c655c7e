import RuleTypes.Proofs.Check.Verdicts
import RuleTypes.Proofs.Session

/-!
# The verdicts in a report

A check in a session judges every item once: the report has a finding for an item, or else the
function or the name that the item defines (`Session.one_verdict_per_item`).
-/

namespace RuleTypes

variable {generics : Generics} {config : Config} {session : Session}

/-- **One verdict for each item, in order.** In a session with any history, the check of a program
that is a row of trees comes to an end, as long as slices take one argument. Its report has one
finding for an item at most, in the order of the items. The functions in it are the functions
without a finding, in the order of the items and with the types of their nodes as signatures. A name
is bound to a type if and only if a struct of that name without a finding has that type. -/
theorem Session.one_verdict_per_item (hsession : session.Reachable generics config)
    {program : Program} (htree : program.IsTree) :
    (generics.get? Form.sliceName = some 1 →
      ∃ p, Check.run ⟨program.arena, session.builtin, session.config⟩ program.items
        session.table = .ok p) ∧
    ∀ p, Check.run ⟨program.arena, session.builtin, session.config⟩ program.items
        session.table = .ok p →
      session.check program = .ok (p.report, { session with table := p.state.table }) ∧
        ∃ items, Check.itemsFrom program.arena 0 program.items = .ok items ∧
          Check.Verdicts items p := by
  refine ⟨fun harity => ?_, fun p hrun => ⟨check_eq_ok.mpr ⟨p, hrun, rfl, rfl⟩, ?_⟩⟩
  · obtain ⟨report, session', hcheck⟩ := check_ends hsession harity htree
    obtain ⟨p, hrun, -⟩ := check_eq_ok.mp hcheck
    exact ⟨p, hrun⟩
  · exact Check.verdicts_of_run hsession.canonical htree.nodup_items hrun

/-- `type T { x Missing }; type T { x f64 }; func f(x f64) f64 x; func g(x f64) f64 missing`. -/
def Program.mixedItems : Program where
  arena := ⟨#[⟨.struct "T" [("x", .named "Missing")], ⟨1, 1, 0⟩⟩,
    ⟨.struct "T" [("x", .named "f64")], ⟨2, 1, 0⟩⟩, ⟨.identifier "x", ⟨3, 20, 0⟩⟩,
    ⟨.function "f" .normal [("x", .named "f64")] (some (.named "f64")) ⟨2⟩, ⟨3, 1, 0⟩⟩,
    ⟨.identifier "missing", ⟨4, 20, 0⟩⟩,
    ⟨.function "g" .normal [("x", .named "f64")] (some (.named "f64")) ⟨4⟩, ⟨4, 1, 0⟩⟩]⟩
  items := [⟨0⟩, ⟨1⟩, ⟨3⟩, ⟨5⟩]

theorem Program.mixedItems_isTree : Program.mixedItems.IsTree where
  inRange := by decide
  once := by decide
  acyclic := Arena.acyclic_of_index_lt (by decide)

theorem Session.one_verdict_per_item_mixedItems :
    ∃ (session : Session) (p : Check.Progress), session.Reachable Generics.standard .permissive ∧
      Generics.standard.get? Form.sliceName = some 1 ∧ Program.mixedItems.IsTree ∧
      Check.run ⟨Program.mixedItems.arena, session.builtin, session.config⟩
        Program.mixedItems.items session.table = .ok p ∧ p.findings.map (·.1) = [1, 0, 3] ∧
      p.report.findings = [⟨.unknownType "Missing", ⟨1, 1, 0⟩⟩, ⟨.redefinition "T", ⟨2, 1, 0⟩⟩,
        ⟨.undefinedSymbol "missing", ⟨4, 20, 0⟩⟩] ∧
      p.report.names.get? "T" = none ∧ ∃ f, p.report.functions = [f] ∧ f.name = "f" ∧
        p.report.annotations.get? ⟨3⟩ = some f.signature := by
  obtain ⟨session, p', hreachable, hrun', hplaces⟩ :=
    exists_run Program.mixedItems (fun _ p => p.findings = [(1, ⟨.redefinition "T", ⟨2, 1, 0⟩⟩),
      (0, ⟨.unknownType "Missing", ⟨1, 1, 0⟩⟩),
      (3, ⟨.undefinedSymbol "missing", ⟨4, 20, 0⟩⟩)]) (by decide +kernel)
  have harity : Generics.standard.get? Form.sliceName = some 1 := by decide
  obtain ⟨hends, hverdicts⟩ := one_verdict_per_item hreachable Program.mixedItems_isTree
  obtain ⟨p, hrun⟩ := hends harity
  obtain ⟨-, items, hitems, hfindings, hfunctions, hnames⟩ := hverdicts p hrun
  obtain rfl : p = p' := Except.ok.inj (hrun.symm.trans hrun')
  obtain rfl : [⟨0, ⟨0⟩, ⟨.struct "T" [("x", .named "Missing")], ⟨1, 1, 0⟩⟩⟩,
      ⟨1, ⟨1⟩, ⟨.struct "T" [("x", .named "f64")], ⟨2, 1, 0⟩⟩⟩,
      ⟨2, ⟨3⟩, ⟨.function "f" .normal [("x", .named "f64")] (some (.named "f64")) ⟨2⟩,
        ⟨3, 1, 0⟩⟩⟩,
      ⟨3, ⟨5⟩, ⟨.function "g" .normal [("x", .named "f64")] (some (.named "f64")) ⟨4⟩,
        ⟨4, 1, 0⟩⟩⟩] = items := Except.ok.inj hitems
  refine ⟨session, p, hreachable, harity, Program.mixedItems_isTree, hrun, by rw [hplaces]; rfl,
    ?_, ?_, ?_⟩
  · obtain ⟨found, hperm, hsorted, -, hreport⟩ := hfindings
    rw [hplaces] at hperm
    have heq := List.Perm.eq_of_pairwise
      (fun a b _ _ hab hba => absurd hba (Nat.lt_asymm hab)) hsorted (by decide)
      (hperm.trans (List.Perm.swap _ _ _))
    rw [hreport, heq]
    rfl
  · by_contra hbound
    obtain ⟨id, hid⟩ := Option.ne_none_iff_exists'.mp hbound
    obtain ⟨item, hitem, ⟨fields, hkind⟩, hpasses, -⟩ := (hnames "T" id).mp hid
    simp only [List.mem_cons, List.not_mem_nil, or_false] at hitem
    rcases hitem with rfl | rfl | rfl | rfl
    · simp [Check.Item.passes, hplaces] at hpasses
    · simp [Check.Item.passes, hplaces] at hpasses
    · cases hkind
    · cases hkind
  · simp only [Check.Item.passes, hplaces] at hfunctions
    obtain ⟨f, _, ⟨-, ⟨_, _, _, hkind⟩, hsignature⟩, hrest, hlist⟩ :=
      List.forall₂_cons_left_iff.mp hfunctions
    cases hrest
    exact ⟨f, hlist, (NodeKind.function.inj hkind).1.symm, hsignature⟩

end RuleTypes
