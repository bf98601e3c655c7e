import RuleTypes.Proofs.Check.MemberCalls
import RuleTypes.Proofs.Session

/-!
# Calls of member functions in a session

Whatever a session has checked before, no call of a member function is ambiguous in its next check,
and every such call with a type is that of the one signature which takes its receiver and its
arguments (`Session.member_calls_unambiguous`).
-/

namespace RuleTypes

variable {generics : Generics} {config : Config} {session : Session}

/-- **Calls of member functions are never ambiguous.** In a session with any history, the check of a
program that is a row of trees comes to an end, as long as slices take one argument. When the
definitions have been registered, member functions of one name take different arguments, the
receiver included, and nothing is registered after that. So whenever a node is looked at, at most
one signature of a name takes a given receiver with given arguments. A call of a member function
whose receiver and arguments have got types is then not reported as ambiguous, and if it answers,
its callee has got the signature. In the end, calls of member functions below an item without a
finding have types. If such a call has a type, the types of its receiver and its arguments are those
that the signature of the callee takes. No other signature of the name takes them, and the receiver
has no field of the name, be it a struct or a pointer to one. -/
theorem Session.member_calls_unambiguous (hsession : session.Reachable generics config)
    {program : Program} (htree : program.IsTree) :
    (generics.get? Form.sliceName = some 1 →
      ∃ p, Check.run ⟨program.arena, session.builtin, session.config⟩ program.items
        session.table = .ok p) ∧
    (∀ items q, Check.itemsFrom program.arena 0 program.items = .ok items →
      Check.registered ⟨program.arena, session.builtin, session.config⟩ items session.table =
        .ok q → Check.MembersApart q.state) ∧
    (∀ item q depth id s,
      Check.ComesTo ⟨program.arena, session.builtin, session.config⟩ program.items session.table
        item q →
      Check.Visits ⟨program.arena, session.builtin, session.config⟩ item q.state (depth + 1) id
        s →
      (∀ name receiver args, ∃ found, s.table.matching (receiver :: args)
        ((s.members.get? name).getD []) = .ok found ∧ found.length ≤ 1) ∧
      ∀ callee base name args,
        Check.MemberCall ⟨program.arena, session.builtin, session.config⟩ s id callee base name
          args →
        Check.CallOutcome ⟨program.arena, session.builtin, session.config⟩ depth s id callee base
          name args) ∧
    ∀ p, Check.run ⟨program.arena, session.builtin, session.config⟩ program.items
        session.table = .ok p →
      session.check program = .ok (p.report, { session with table := p.state.table }) ∧
      (∃ items q, Check.itemsFrom program.arena 0 program.items = .ok items ∧
        Check.registered ⟨program.arena, session.builtin, session.config⟩ items session.table =
          .ok q ∧ p.state.members = q.state.members) ∧
      ∀ id callee base name args,
        Check.MemberCall ⟨program.arena, session.builtin, session.config⟩ p.state id callee base
          name args →
        (∀ position item, program.items[position]? = some item →
          (∀ finding, (position, finding) ∉ p.findings) → program.arena.Below item id →
          p.report.annotations.get? id ≠ none) ∧
        ∀ type, p.report.annotations.get? id = some type → ∃ signature receiver argTypes,
          p.report.annotations.get? callee = some signature ∧
          p.report.annotations.get? base = some receiver ∧
          Check.TypesOf p.state args argTypes ∧
          Check.Resolves p.state name receiver argTypes signature type := by
  refine ⟨fun harity => ?_, fun items q _ hregistered => .of_registered hregistered, ?_, ?_⟩
  · obtain ⟨report, session', hcheck⟩ := check_ends hsession harity htree
    obtain ⟨p, hrun, -⟩ := check_eq_ok.mp hcheck
    exact ⟨p, hrun⟩
  · intro item q depth id s hcomes hvisits
    have hs := (Check.MembersApart.of_comesTo hcomes).later hvisits.later
    exact ⟨hs.exists_matching, fun callee base name args hcall => hcall.outcome hs depth⟩
  · intro p hrun
    obtain ⟨items, hfrom, hcomplete, hresolved⟩ :=
      Check.callsResolved_of_run hsession.canonical hsession.clear hrun
    obtain ⟨items', q, hfrom', hregistered, hcheck⟩ := Check.run_eq_ok.mp hrun
    refine ⟨check_eq_ok.mpr ⟨p, hrun, rfl, rfl⟩, ⟨items', q, hfrom', hregistered,
      Check.members_of_checkItems hcheck⟩, fun id callee base name args hcall => ?_⟩
    refine ⟨fun position item hitem hclean hid => ?_, fun type htype =>
      (hresolved id).exists_types hcomplete.aware hcall htype⟩
    obtain ⟨type, htype, -⟩ := Check.Complete.exists_type htree rfl hfrom hcomplete hitem hclean hid
    exact Option.ne_none_iff_exists'.mpr ⟨type, htype⟩

/-- `func same(self f64) f64`, `func same(self string) string`, the first one again with another
result, and a call of `same` on a string. -/
def Program.callOfOverload : Program where
  arena := ⟨#[⟨.identifier "self", .nowhere⟩,
    ⟨.function "same" .member [("self", .named "f64")] (some (.named "f64")) ⟨0⟩, .nowhere⟩,
    ⟨.identifier "self", .nowhere⟩,
    ⟨.function "same" .member [("self", .named "string")] (some (.named "string")) ⟨2⟩, .nowhere⟩,
    ⟨.string, .nowhere⟩,
    ⟨.function "same" .member [("self", .named "f64")] (some (.named "string")) ⟨4⟩, .nowhere⟩,
    ⟨.string, .nowhere⟩, ⟨.member ⟨6⟩ "same", .nowhere⟩, ⟨.call ⟨7⟩ [], .nowhere⟩]⟩
  items := [⟨1⟩, ⟨3⟩, ⟨5⟩, ⟨8⟩]

theorem Program.callOfOverload_isTree : Program.callOfOverload.IsTree where
  inRange := by decide
  once := by decide
  acyclic := Arena.acyclic_of_index_lt (by decide)

/-- The call. -/
def Check.Item.callOfOverload : Check.Item := ⟨3, ⟨8⟩, ⟨.call ⟨7⟩ [], .nowhere⟩⟩

theorem Session.member_calls_unambiguous_callOfOverload :
    ∃ (session : Session) (p q : Check.Progress),
      session.Reachable Generics.standard .permissive ∧ Program.callOfOverload.IsTree ∧
      Check.run ⟨Program.callOfOverload.arena, session.builtin, session.config⟩
        Program.callOfOverload.items session.table = .ok p ∧
      p.findings = [(2, ⟨.redefinition "same", .nowhere⟩)] ∧
      Check.ComesTo ⟨Program.callOfOverload.arena, session.builtin, session.config⟩
        Program.callOfOverload.items session.table .callOfOverload q ∧
      Check.Visits ⟨Program.callOfOverload.arena, session.builtin, session.config⟩ .callOfOverload
        q.state 20 ⟨8⟩ q.state ∧
      Check.CallOutcome ⟨Program.callOfOverload.arena, session.builtin, session.config⟩ 19 q.state
        ⟨8⟩ ⟨7⟩ ⟨6⟩ "same" [] ∧
      ∃ signature receiver argTypes, p.report.annotations.get? ⟨7⟩ = some signature ∧
        p.report.annotations.get? ⟨6⟩ = some receiver ∧ Check.TypesOf p.state [] argTypes ∧
        Check.Resolves p.state "same" receiver argTypes signature session.builtin.string := by
  have heval : (do
      let session ← Session.standard Generics.standard .permissive
      let items ← Check.itemsFrom Program.callOfOverload.arena 0 Program.callOfOverload.items
      let r ← Check.registered ⟨Program.callOfOverload.arena, session.builtin, session.config⟩ items
        session.table
      let q ← r.checkItems ⟨Program.callOfOverload.arena, session.builtin, session.config⟩
        (items.take 3)
      let p ← Check.run ⟨Program.callOfOverload.arena, session.builtin, session.config⟩
        Program.callOfOverload.items session.table
      return decide (items.drop 3 = [.callOfOverload] ∧
        session.config.topLevelExpressions = true ∧
        q.state.members.contains "same" = true ∧ p.state.members.contains "same" = true ∧
        p.findings = [(2, ⟨.redefinition "same", .nowhere⟩)] ∧
        p.report.annotations.get? ⟨8⟩ = some session.builtin.string)) = Except.ok true := by
    decide +kernel
  obtain ⟨session, hsession, heval⟩ := except_bind_eq_ok.mp heval
  obtain ⟨items, hitems, heval⟩ := except_bind_eq_ok.mp heval
  obtain ⟨r, hregistered, heval⟩ := except_bind_eq_ok.mp heval
  obtain ⟨q, hseen, heval⟩ := except_bind_eq_ok.mp heval
  obtain ⟨p, hrun, heval⟩ := except_bind_eq_ok.mp heval
  obtain ⟨hlast, hallowed, hcallable, hcallable', hfindings, htype⟩ :=
    of_decide_eq_true (Except.ok.inj heval)
  have hreachable := Session.Reachable.standard hsession
  have hsplit : items = items.take 3 ++ Check.Item.callOfOverload :: [] := by
    rw [← hlast, List.take_append_drop]
  have hcomes : Check.ComesTo ⟨Program.callOfOverload.arena, session.builtin, session.config⟩
      Program.callOfOverload.items session.table .callOfOverload q :=
    ⟨items.take 3, [], r, hsplit ▸ hitems, hsplit ▸ hregistered, hseen⟩
  have hplain : ¬ Check.Item.callOfOverload.IsRegistered := by
    simp [Check.Item.IsRegistered, Check.Item.structDef?, Check.Item.functionDef?,
      Check.Item.callOfOverload]
  have hdepth : Check.Setting.depth ⟨Program.callOfOverload.arena, session.builtin,
      session.config⟩ = 20 := rfl
  have hvisits : Check.Visits ⟨Program.callOfOverload.arena, session.builtin, session.config⟩
      .callOfOverload q.state 20 ⟨8⟩ q.state := by
    rw [← hdepth]
    exact .whole hplain (.inr hallowed)
  have hcall : ∀ {s : Check.State}, s.members.contains "same" = true →
      Check.MemberCall ⟨Program.callOfOverload.arena, session.builtin, session.config⟩ s ⟨8⟩ ⟨7⟩ ⟨6⟩
        "same" [] := fun h => ⟨⟨_, rfl, rfl⟩, ⟨_, rfl, rfl⟩, h⟩
  obtain ⟨-, -, hmoments, hend⟩ :=
    member_calls_unambiguous hreachable Program.callOfOverload_isTree
  obtain ⟨-, houtcome⟩ := hmoments _ q 19 ⟨8⟩ q.state hcomes hvisits
  obtain ⟨-, -, hcalls⟩ := hend p hrun
  exact ⟨session, p, q, hreachable, Program.callOfOverload_isTree, hrun, hfindings, hcomes,
    hvisits, houtcome ⟨7⟩ ⟨6⟩ "same" [] (hcall hcallable),
    (hcalls ⟨8⟩ ⟨7⟩ ⟨6⟩ "same" [] (hcall hcallable')).2 _ htype⟩

end RuleTypes
