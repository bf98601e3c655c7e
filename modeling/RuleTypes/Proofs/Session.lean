import RuleTypes.Proofs.Check.Ends
import RuleTypes.Proofs.Check.TopLevel
import RuleTypes.Proofs.Check.Unbroken
import RuleTypes.Proofs.Session.Histories

/-!
# Checks in a session

The main results about a check in a session with any history. A check never breaks off
(`Session.checkAll_ends`). The types that it leaves behind are sound (`Session.annotations_sound`)
and have layouts (`Session.annotations_unbroken`), the functions that it lists share a symbol only
across kinds (`Session.symbol_eq_iff`), and an item that fails leaves behind exactly the global
variables that were finished before (`Session.lookup_eq_iff_of_finding`).
-/

namespace RuleTypes

variable {generics : Generics} {config : Config} {session : Session}

/-! ## Annotations -/

/-- **The types that a check leaves behind are sound.** In a program that is a row of trees, every
node below an item without a finding has the type that its rule gives it: going by the types that
the report has for its parts, by what the written types denote, and by the declarations that names
refer to. The names of structs and the symbols stand for the definitions in the program, and the
names of the top level for its functions and for the variables before the item. -/
theorem Session.annotations_sound (hsession : session.Reachable generics config)
    (harity : generics.get? Form.sliceName = some 1) {program : Program} (htree : program.IsTree)
    {p : Check.Progress} (hrun : Check.run ⟨program.arena, session.builtin, session.config⟩
      program.items session.table = .ok p) :
    session.check program = .ok (p.report, { session with table := p.state.table }) ∧
      Check.Dictionary ⟨program.arena, session.builtin, session.config⟩ program.items p ∧
      ∀ position item, program.items[position]? = some item →
        (∀ finding, (position, finding) ∉ p.findings) →
        ∃ globals, Check.GlobalNames ⟨program.arena, session.builtin, session.config⟩
            program.items p position globals ∧
          ∀ id, program.arena.Below item id → ∃ node type, program.arena.node? id = some node ∧
            p.report.annotations.get? id = some type ∧
            Check.Typed ⟨program.arena, session.builtin, session.config⟩ globals p.state id
              node.kind type := by
  have hslices : session.table.UnarySlices :=
    (TypeTable.unarySlices_new harity).grows hsession.grows
  obtain ⟨items, hfrom, hchecked⟩ :=
    Check.checked_of_run htree rfl hsession.canonical hsession.clear hslices hrun
  refine ⟨check_eq_ok.mpr ⟨p, hrun, rfl, rfl⟩, hchecked.dictionary, ?_⟩
  intro position id hid hclean
  obtain ⟨hids, hplaces⟩ := Check.itemsFrom_eq_ok hfrom
  rw [← hids, List.getElem?_map, Option.map_eq_some_iff] at hid
  obtain ⟨item, hget, rfl⟩ := hid
  obtain rfl : item.position = position := by simpa using (hplaces position item hget).1
  obtain ⟨globals, hglobals, htyped⟩ := hchecked.typed item (List.mem_of_getElem? hget) hclean
  refine ⟨globals, hglobals, fun x hx => ?_⟩
  obtain ⟨node, type, hnode, htype, hrule⟩ := htyped x hx
  exact ⟨node, type, hnode, htype.1, hrule⟩

/-- `struct Point { x f64 }`, `func at(x f64) Point { Point{x: x} }`, `var start = at(1)`, then
`start.x` and a name that is not bound. -/
def Program.startingPoint : Program where
  arena := ⟨#[.struct "Point" [("x", .named "f64")],
    .identifier "x", .literal (some (.named "Point")) [(some "x", ⟨1⟩)],
    .function "at" .normal [("x", .named "f64")] (some (.named "Point")) ⟨2⟩,
    .identifier "at", .number, .call ⟨4⟩ [⟨5⟩], .var "start" .auto ⟨6⟩,
    .identifier "start", .member ⟨8⟩ "x",
    .identifier "missing"].map fun kind => ⟨kind, .nowhere⟩⟩
  items := [⟨0⟩, ⟨3⟩, ⟨7⟩, ⟨9⟩, ⟨10⟩]

theorem Program.startingPoint_isTree : Program.startingPoint.IsTree := by
  simp only [Program.startingPoint, List.map_toArray, List.map_cons, List.map_nil]
  exact ⟨by decide, by decide, Arena.acyclic_of_index_lt (by decide)⟩

/-- The literal and the variable are points. -/
theorem Session.annotations_sound_startingPoint :
    ∃ (session : Session) (p : Check.Progress), session.Reachable Generics.standard .permissive ∧
      Generics.standard.get? Form.sliceName = some 1 ∧ Program.startingPoint.IsTree ∧
      Check.run ⟨Program.startingPoint.arena, session.builtin, session.config⟩
        Program.startingPoint.items session.table = .ok p ∧
      p.findings.map (·.1) = [4] ∧
      p.state.table.form? ⟨8⟩ = some (.declared "Point" [("x", ⟨2⟩)]) ∧
      (∃ globals, Check.Typed ⟨Program.startingPoint.arena, session.builtin, session.config⟩
        globals p.state ⟨2⟩ (.literal (some (.named "Point")) [(some "x", ⟨1⟩)]) ⟨8⟩) ∧
      ∃ globals, Check.GlobalNames ⟨Program.startingPoint.arena, session.builtin, session.config⟩
          Program.startingPoint.items p 3 globals ∧
        Check.Typed ⟨Program.startingPoint.arena, session.builtin, session.config⟩ globals p.state
          ⟨8⟩ (.identifier "start") ⟨8⟩ := by
  obtain ⟨session, p, hreachable, hrun, hfindings, hpoint, hliteral, hstart⟩ :=
    exists_run Program.startingPoint (fun _ p => p.findings.map (·.1) = [4] ∧
      p.state.table.form? ⟨8⟩ = some (.declared "Point" [("x", ⟨2⟩)]) ∧
      p.report.annotations.get? ⟨2⟩ = some ⟨8⟩ ∧ p.report.annotations.get? ⟨8⟩ = some ⟨8⟩)
      (by decide +kernel)
  have hclean : ∀ position, position ≠ 4 → ∀ finding, (position, finding) ∉ p.findings := by
    intro position hne finding hmem
    have hplace := List.mem_map_of_mem (f := fun f => f.1) hmem
    rw [hfindings] at hplace
    exact hne (List.mem_singleton.mp hplace)
  obtain ⟨-, -, hsound⟩ :=
    annotations_sound hreachable (by decide) Program.startingPoint_isTree hrun
  refine ⟨session, p, hreachable, by decide, Program.startingPoint_isTree, hrun, hfindings, hpoint,
    ?_, ?_⟩
  · obtain ⟨globals, -, htyped⟩ := hsound 1 ⟨3⟩ rfl (hclean 1 (by decide))
    obtain ⟨node, type, hnode, htype, hrule⟩ := htyped ⟨2⟩ (Arena.IsChild.below
      ⟨⟨.function "at" .normal [("x", .named "f64")] (some (.named "Point")) ⟨2⟩, .nowhere⟩,
        by decide +kernel, by decide⟩)
    cases htype.symm.trans hliteral
    have hnode' : Program.startingPoint.arena.node? ⟨2⟩ =
        some ⟨.literal (some (.named "Point")) [(some "x", ⟨1⟩)], .nowhere⟩ := by decide +kernel
    cases hnode.symm.trans hnode'
    exact ⟨globals, hrule⟩
  · obtain ⟨globals, hglobals, htyped⟩ := hsound 3 ⟨9⟩ rfl (hclean 3 (by decide))
    obtain ⟨node, type, hnode, htype, hrule⟩ := htyped ⟨8⟩ (Arena.IsChild.below
      ⟨⟨.member ⟨8⟩ "x", .nowhere⟩, by decide +kernel, by decide⟩)
    cases htype.symm.trans hstart
    have hnode' : Program.startingPoint.arena.node? ⟨8⟩ =
        some ⟨.identifier "start", .nowhere⟩ := by decide +kernel
    cases hnode.symm.trans hnode'
    exact ⟨globals, hglobals, hrule⟩

/-! ## Layouts -/

/-- **No type that a check leaves behind is broken.** In a program without repeated items, as every
row of trees is, take any node with a type in the report, other than the node of a struct with a
finding. Every declared struct that the type is made of, through fields, pointers, signatures and
generic arguments, is filled and is the one that the report has under its name. None of the types it
is made of holds itself by value, so each of them has a finite layout. -/
theorem Session.annotations_unbroken (hsession : session.Reachable generics config)
    {program : Program} (hdistinct : program.items.Nodup) {p : Check.Progress}
    (hrun : Check.run ⟨program.arena, session.builtin, session.config⟩ program.items
      session.table = .ok p) :
    session.check program = .ok (p.report, { session with table := p.state.table }) ∧
      ∀ id type, p.report.annotations.get? id = some type →
        ¬ Check.IsFailedStruct program.arena program.items p id →
        p.state.table.Unbroken p.report.names type := by
  refine ⟨check_eq_ok.mpr ⟨p, hrun, rfl, rfl⟩, fun id type htype hid => ?_⟩
  exact Check.unbroken_of_run hdistinct hsession.canonical hsession.plain hrun htype hid

/-- `struct Loop { again Loop }`, `struct List { head f64, tail *List }`, and a function defined
elsewhere that takes a slice of lists. -/
def Program.listsAndLoop : Program where
  arena := ⟨#[.struct "Loop" [("again", .named "Loop")],
    .struct "List" [("head", .named "f64"), ("tail", .pointer (.named "List"))],
    .foreign "longest" [("lists", .slice (.named "List"))] (some (.named "List"))].map
      fun kind => ⟨kind, .nowhere⟩⟩
  items := [⟨0⟩, ⟨1⟩, ⟨2⟩]

/-- The signature of the function is made of lists, which are sound, though `Loop` is not. -/
theorem Session.annotations_unbroken_listsAndLoop :
    ∃ (session : Session) (p : Check.Progress),
      session.Reachable Generics.standard .permissive ∧ Program.listsAndLoop.items.Nodup ∧
      Check.run ⟨Program.listsAndLoop.arena, session.builtin, session.config⟩
        Program.listsAndLoop.items session.table = .ok p ∧ p.findings.map (·.1) = [0] ∧
      p.report.annotations.get? ⟨2⟩ = some ⟨12⟩ ∧
      p.state.table.form? ⟨12⟩ = some (.function [⟨11⟩] ⟨9⟩) ∧
      p.state.table.form? ⟨9⟩ = some (.declared "List" [("head", ⟨2⟩), ("tail", ⟨10⟩)]) ∧
      p.state.table.Unbroken p.report.names ⟨12⟩ := by
  obtain ⟨session, p, hreachable, hrun, hfindings, htype, hslice, hlist⟩ :=
    exists_run Program.listsAndLoop (fun _ p => p.findings.map (·.1) = [0] ∧
      p.report.annotations.get? ⟨2⟩ = some ⟨12⟩ ∧
      p.state.table.form? ⟨12⟩ = some (.function [⟨11⟩] ⟨9⟩) ∧
      p.state.table.form? ⟨9⟩ = some (.declared "List" [("head", ⟨2⟩), ("tail", ⟨10⟩)]))
      (by decide +kernel)
  refine ⟨session, p, hreachable, by decide, hrun, hfindings, htype, hslice, hlist, ?_⟩
  refine (annotations_unbroken hreachable (by decide) hrun).2 ⟨2⟩ ⟨12⟩ htype ?_
  rintro ⟨position, finding, node, name, fields, -, hnode, hkind, -⟩
  have hforeign : Program.listsAndLoop.arena.node? ⟨2⟩ = some ⟨.foreign "longest"
      [("lists", .slice (.named "List"))] (some (.named "List")), .nowhere⟩ := by decide +kernel
  rw [hforeign] at hnode
  cases hnode
  cases hkind

/-! ## Symbols -/

/-- **Symbols are unique among the functions of one kind, and not across kinds.** In a program
without repeated items whose signatures have different fingerprints, two entries in the list of
checked functions share a symbol if and only if they have one name and one signature and are of
different kinds. -/
theorem Session.symbol_eq_iff (hsession : session.Reachable generics config) {program : Program}
    (hdistinct : program.items.Nodup) {report : Report} {session' : Session}
    (hcheck : session.check program = .ok (report, session'))
    (hfingerprint : ∀ f ∈ report.functions, ∀ g ∈ report.functions,
      session'.table.fingerprint f.signature = session'.table.fingerprint g.signature →
        f.signature = g.signature)
    {i j : Nat} {f g : CheckedFunction} (hij : i ≠ j) (hf : report.functions[i]? = some f)
    (hg : report.functions[j]? = some g) :
    f.symbol = g.symbol ↔ f.kind ≠ g.kind ∧ f.name = g.name ∧ f.signature = g.signature := by
  obtain ⟨p, hrun, rfl, rfl⟩ := check_eq_ok.mp hcheck
  exact Check.symbol_eq_iff_of_run hdistinct hsession.canonical hrun hfingerprint hij hf hg

/-- `func f(x f64) {}` and then `func (x f64) f() {}`. -/
def Program.functionAndMember : Program where
  arena := ⟨#[⟨.block [], ⟨1, 20, 0⟩⟩,
    ⟨.function "f" .normal [("x", .named "f64")] none ⟨0⟩, ⟨1, 1, 0⟩⟩,
    ⟨.block [], ⟨2, 20, 0⟩⟩,
    ⟨.function "f" .member [("x", .named "f64")] none ⟨2⟩, ⟨2, 1, 0⟩⟩]⟩
  items := [⟨1⟩, ⟨3⟩]

/-- A function and a member function are linked under one symbol. -/
theorem Session.functionAndMember_symbols : (do
    let session ← Session.standard Generics.standard .permissive
    let (report, _) ← session.check Program.functionAndMember
    return report.functions.map fun f => (f.name, f.kind, f.symbol)) =
      Except.ok [("f", .normal, "f@a0e6da350587c2ee"), ("f", .member, "f@a0e6da350587c2ee")] := by
  decide +kernel

theorem Session.symbol_eq_iff_functionAndMember :
    ∃ (session session' : Session) (report : Report) (f g : CheckedFunction),
      session.Reachable Generics.standard .permissive ∧ Program.functionAndMember.items.Nodup ∧
      session.check Program.functionAndMember = .ok (report, session') ∧
      report.functions = [f, g] ∧ f.symbol = g.symbol := by
  have heval : (do
      let session ← Session.standard Generics.standard .permissive
      let (report, session') ← session.check Program.functionAndMember
      return (report.functions.map fun f => (f.name, f.kind, f.signature))) =
        Except.ok [("f", .normal, ⟨8⟩), ("f", .member, ⟨8⟩)] := by
    decide +kernel
  obtain ⟨session, hsession, heval⟩ := except_bind_eq_ok.mp heval
  obtain ⟨⟨report, session'⟩, hcheck, heval⟩ := except_bind_eq_ok.mp heval
  have hreachable := Session.Reachable.standard hsession
  have hlist : report.functions.map (fun f => (f.name, f.kind, f.signature)) =
      [("f", .normal, ⟨8⟩), ("f", .member, ⟨8⟩)] := Except.ok.inj heval
  obtain ⟨f, rest, hfunctions, hf, hrest⟩ := List.map_eq_cons_iff.mp hlist
  obtain ⟨g, rest, rfl, hg, hrest⟩ := List.map_eq_cons_iff.mp hrest
  obtain rfl := List.map_eq_nil_iff.mp hrest
  simp only [Prod.mk.injEq] at hf hg
  refine ⟨session, session', report, f, g, hreachable, by decide, hcheck, hfunctions, ?_⟩
  refine (symbol_eq_iff hreachable (by decide) hcheck ?_ (by decide : (0 : Nat) ≠ 1)
    (by rw [hfunctions]; rfl) (by rw [hfunctions]; rfl)).mpr ?_
  · simp [hfunctions, hf, hg]
  · simp [hf, hg]

/-! ## Global names -/

/-- **What a failing item leaves behind.** When an item of a program that is a row of trees ends in
a finding, and the item is no struct and no function, the global names afterwards are those from
before and the variables, outside blocks and loops, that had got their type. So names mean what
they meant before the item if and only if there is no such variable. -/
theorem Session.lookup_eq_iff_of_finding (hsession : session.Reachable generics config)
    {program : Program} (htree : program.IsTree) {item : Check.Item} {p : Check.Progress}
    (hcomes : Check.ComesTo ⟨program.arena, session.builtin, session.config⟩ program.items
      session.table item p) (hitem : ¬ item.IsRegistered) {finding : Finding} {failed : Check.State}
    (hfound : Check.checkItem ⟨program.arena, session.builtin, session.config⟩ item p.state =
      .error (.error finding) failed) :
    ∃ state, Check.attempt (Check.checkItem ⟨program.arena, session.builtin, session.config⟩ item)
        p.state = .ok (.error finding, state) ∧
      (∀ name binding, state.scope.globals.get? name = some binding ↔
        p.state.scope.globals.get? name = some binding ∨
          ∃ v, Check.Finished ⟨program.arena, session.builtin, session.config⟩ item.id
            failed.annotations v name binding) ∧
      ((∀ name, state.scope.lookup name = p.state.scope.lookup name) ↔
        ∀ v name binding, ¬ Check.Finished ⟨program.arena, session.builtin, session.config⟩ item.id
          failed.annotations v name binding) := by
  obtain ⟨hglobals, hnew⟩ := Check.globals_of_finding htree rfl hsession.canonical hsession.clear
    hitem hcomes hfound
  obtain ⟨hframes, -⟩ := hcomes.before htree rfl hsession.canonical hsession.clear hitem
  obtain ⟨annotations, hattempt⟩ := Check.attempt_of_finding
    (Check.checkItem_moves (fun _ _ _ => trivial) fun _ _ _ _ => trivial) hfound
  have hunwound : ∀ name, failed.scope.unwind.lookup name = failed.scope.globals.get? name :=
    Scope.lookup_of_global rfl
  refine ⟨_, hattempt, hglobals, ?_⟩
  simp only [Scope.lookup_of_global hframes, hunwound]
  constructor
  · intro hsame v name binding hv
    have hafter : failed.scope.globals.get? name = some binding :=
      (hglobals name binding).mpr (.inr ⟨v, hv⟩)
    exact absurd ((hnew v name binding hv).symm.trans ((hsame name).symm.trans hafter)) (by simp)
  · intro hnone name
    refine Option.ext fun binding => (hglobals name binding).trans (or_iff_left ?_)
    exact fun ⟨v, hv⟩ => hnone v name binding hv

/-- `if 1 then var x = 2 else missing`, and then `x`. -/
def Program.variableInBranch : Program where
  arena := ⟨#[⟨.number, ⟨1, 5, 0⟩⟩, ⟨.number, ⟨1, 20, 0⟩⟩, ⟨.var "x" .auto ⟨1⟩, ⟨1, 10, 0⟩⟩,
    ⟨.identifier "missing", ⟨1, 30, 0⟩⟩, ⟨.branch ⟨0⟩ ⟨2⟩ (some ⟨3⟩), ⟨1, 1, 0⟩⟩,
    ⟨.identifier "x", ⟨2, 1, 0⟩⟩]⟩
  items := [⟨4⟩, ⟨5⟩]

theorem Program.variableInBranch_isTree : Program.variableInBranch.IsTree where
  inRange := by decide
  once := by decide
  acyclic := Arena.acyclic_of_index_lt (by decide)

/-- The first item fails, but the name that it bound stays and has a meaning in the second. -/
theorem Session.variableInBranch_globals : (do
    let session ← Session.standard Generics.standard .permissive
    let (report, _) ← session.check Program.variableInBranch
    return (report.findings, report.globals.get? "x", report.annotations.get? ⟨5⟩)) =
      Except.ok ([⟨.undefinedSymbol "missing", ⟨1, 30, 0⟩⟩], some ⟨2⟩, some ⟨2⟩) := by
  decide +kernel

theorem Session.lookup_eq_iff_of_finding_variableInBranch :
    ∃ (session : Session) (item : Check.Item) (p : Check.Progress) (finding : Finding)
      (failed state : Check.State), session.Reachable Generics.standard .permissive ∧
      Program.variableInBranch.IsTree ∧
      Check.ComesTo ⟨Program.variableInBranch.arena, session.builtin, session.config⟩
        Program.variableInBranch.items session.table item p ∧ ¬ item.IsRegistered ∧
      Check.checkItem ⟨Program.variableInBranch.arena, session.builtin, session.config⟩ item
        p.state = .error (.error finding) failed ∧
      Check.attempt (Check.checkItem ⟨Program.variableInBranch.arena, session.builtin,
        session.config⟩ item) p.state = .ok (.error finding, state) ∧
      ¬ ∀ name, state.scope.lookup name = p.state.scope.lookup name := by
  let first : Check.Item := ⟨0, ⟨4⟩, ⟨.branch ⟨0⟩ ⟨2⟩ (some ⟨3⟩), ⟨1, 1, 0⟩⟩⟩
  let second : Check.Item := ⟨1, ⟨5⟩, ⟨.identifier "x", ⟨2, 1, 0⟩⟩⟩
  have heval : (do
      let session ← Session.standard Generics.standard .permissive
      let q ← Check.registered ⟨Program.variableInBranch.arena, session.builtin, session.config⟩
        [first, second] session.table
      return match Check.checkItem ⟨Program.variableInBranch.arena, session.builtin,
          session.config⟩ first q.state with
        | .ok _ _ | .error (.fault _) _ => none
        | .error (.error _) failed => failed.annotations.get? ⟨2⟩) = Except.ok (some ⟨2⟩) := by
    decide +kernel
  obtain ⟨session, hsession, heval⟩ := except_bind_eq_ok.mp heval
  obtain ⟨q, hregistered, heval⟩ := except_bind_eq_ok.mp heval
  have hreachable := Session.Reachable.standard hsession
  have hcomes : Check.ComesTo ⟨Program.variableInBranch.arena, session.builtin, session.config⟩
      Program.variableInBranch.items session.table first q :=
    ⟨[], [second], q, rfl, hregistered, rfl⟩
  have hitem : ¬ first.IsRegistered := by simp [first, Check.Item.IsRegistered,
    Check.Item.structDef?, Check.Item.functionDef?]
  obtain ⟨finding, failed, hfound, htype⟩ : ∃ finding failed,
      Check.checkItem ⟨Program.variableInBranch.arena, session.builtin, session.config⟩ first
        q.state = .error (.error finding) failed ∧ failed.annotations.get? ⟨2⟩ = some ⟨2⟩ := by
    have heval := Except.ok.inj heval
    split at heval
    · cases heval
    · cases heval
    · exact ⟨_, _, ‹_›, heval⟩
  obtain ⟨state, hattempt, -, hiff⟩ := lookup_eq_iff_of_finding hreachable
    Program.variableInBranch_isTree hcomes hitem hfound
  refine ⟨session, first, q, finding, failed, state, hreachable, Program.variableInBranch_isTree,
    hcomes, hitem, hfound, hattempt, fun hsame => hiff.mp hsame ⟨2⟩ "x" ⟨⟨2⟩, .var, ⟨1, 10, 0⟩⟩ ?_⟩
  exact {
    exposed := .single ⟨⟨.branch ⟨0⟩ ⟨2⟩ (some ⟨3⟩), ⟨1, 1, 0⟩⟩, rfl, rfl, by decide⟩
    declared := ⟨⟨.var "x" .auto ⟨1⟩, ⟨1, 10, 0⟩⟩, .auto, ⟨1⟩, rfl, rfl, rfl, rfl⟩
    typed := htype
    final := by decide }

/-! ## Sequences of checks -/

/-- Checks programs one after another, each in the session that the one before it left. -/
def Session.checkAll (session : Session) : List Program → Except Fault (List Report × Session)
  | [] => .ok ([], session)
  | program :: programs => do
    let (report, session) ← session.check program
    let (reports, session) ← session.checkAll programs
    return (report :: reports, session)

theorem Session.check_ends (hsession : session.Reachable generics config)
    (harity : generics.get? Form.sliceName = some 1) {program : Program} (htree : program.IsTree) :
    ∃ report session', session.check program = .ok (report, session') := by
  have hslices : session.table.UnarySlices :=
    (TypeTable.unarySlices_new harity).grows hsession.grows
  obtain ⟨p, hrun⟩ : ∃ p, Check.run ⟨program.arena, session.builtin, session.config⟩
      program.items session.table = .ok p :=
    Check.run_ends htree rfl hsession.canonical hslices hsession.clear
  exact ⟨_, _, check_eq_ok.mpr ⟨p, hrun, rfl, rfl⟩⟩

/-- **A check never breaks off.** Over all generics among which slices have one argument, and
whatever the choices, a session can be built; and in a session with any history, programs that are
rows of trees are checked one after another to the last, with a report for each. None of them meets
a fault: no type is asked for that was not issued, no node is given two types, no frame is closed
that was not opened, no struct is filled twice, no item is used before it is prepared, and no way
down is followed forever. -/
theorem Session.checkAll_ends (harity : generics.get? Form.sliceName = some 1) (config : Config) :
    (∃ session, Session.standard generics config = .ok session) ∧
      ∀ session : Session, session.Reachable generics config → ∀ programs : List Program,
        (∀ program ∈ programs, program.IsTree) →
        ∃ reports session', session.checkAll programs = .ok (reports, session') ∧
          reports.length = programs.length := by
  refine ⟨standard_ends generics config, fun session hsession programs htrees => ?_⟩
  induction programs generalizing session with
  | nil => exact ⟨[], session, rfl, rfl⟩
  | cons program programs ih =>
    obtain ⟨htree, htrees⟩ := List.forall_mem_cons.mp htrees
    obtain ⟨report, session₁, hcheck⟩ := check_ends hsession harity htree
    obtain ⟨reports, session', hchecks, hlength⟩ := ih session₁ (hsession.check hcheck) htrees
    refine ⟨report :: reports, session', ?_, by rw [List.length_cons, List.length_cons, hlength]⟩
    exact except_bind_eq_ok.mpr ⟨_, hcheck, except_bind_eq_ok.mpr ⟨_, hchecks, rfl⟩⟩

/-- `func (self f64) twice() f64 { self + self }`, then `var x = 1.twice()`, then a name that is
not bound. -/
def Program.callOfMember : Program where
  arena := ⟨#[.identifier "self", .identifier "self", .binary "+" ⟨0⟩ ⟨1⟩,
    .function "twice" .member [("self", .named "f64")] (some (.named "f64")) ⟨2⟩,
    .number, .member ⟨4⟩ "twice", .call ⟨5⟩ [], .var "x" .auto ⟨6⟩,
    .identifier "missing"].map fun kind => ⟨kind, .nowhere⟩⟩
  items := [⟨3⟩, ⟨7⟩, ⟨8⟩]

theorem Program.callOfMember_isTree : Program.callOfMember.IsTree := by
  simp only [Program.callOfMember, List.map_toArray, List.map_cons, List.map_nil]
  exact ⟨by decide, by decide, Arena.acyclic_of_index_lt (by decide)⟩

-- both programs have an item that fails
example : (do
    let session ← Session.standard Generics.standard .permissive
    let (reports, _) ← session.checkAll [Program.callOfMember, Program.variableInBranch]
    return reports.map fun report => report.findings.map (·.problem)) =
      Except.ok [[.undefinedSymbol "missing"], [.undefinedSymbol "missing"]] := by
  decide +kernel

theorem Program.listsAndLoop_isTree : Program.listsAndLoop.IsTree := by
  simp only [Program.listsAndLoop, List.map_toArray, List.map_cons, List.map_nil]
  exact ⟨by decide, by decide, Arena.acyclic_of_index_lt (by decide)⟩

/-- A struct that holds itself, a call of a member function and an item that fails half-way, checked
one after another in one session, where expressions outside definitions are not allowed. -/
theorem Session.checkAll_ends_strict : Generics.standard.get? Form.sliceName = some 1 ∧
    (∀ program ∈ [Program.listsAndLoop, Program.callOfMember, Program.variableInBranch],
      program.IsTree) ∧
    ∃ session reports session', Session.standard Generics.standard .strict = .ok session ∧
      session.checkAll [Program.listsAndLoop, Program.callOfMember, Program.variableInBranch] =
        .ok (reports, session') ∧ reports.length = 3 := by
  have harity : Generics.standard.get? Form.sliceName = some 1 := by decide
  have htrees : ∀ program ∈ [Program.listsAndLoop, Program.callOfMember,
      Program.variableInBranch], program.IsTree := by
    simp [Program.listsAndLoop_isTree, Program.callOfMember_isTree,
      Program.variableInBranch_isTree]
  obtain ⟨⟨session, hsession⟩, hends⟩ := checkAll_ends harity .strict
  obtain ⟨reports, session', hchecks, hlength⟩ := hends session (.standard hsession) _ htrees
  exact ⟨harity, htrees, session, reports, session', hsession, hchecks, hlength⟩

end RuleTypes
