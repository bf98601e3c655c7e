import RuleTypes.Proofs.Check.Exchange
import RuleTypes.Proofs.Session

/-!
# The order of definitions

Functions may be written in any order: when two that stand next to each other are exchanged, every
item of the program ends as it did before (`Session.function_order_irrelevant`). Only where the two
cannot both be defined does it show which of them comes first.
-/

namespace RuleTypes

open Check (Item Neighbours)

variable {generics : Generics} {config : Config} {session : Session} {program program' : Program}
  {k : Nat} {first second : NodeId}

/-- The run that a check of the program comes down to. -/
def Session.progress (session : Session) (program : Program) : Except Fault Check.Progress :=
  Check.run ⟨program.arena, session.builtin, session.config⟩ program.items session.table

/-! ## Programs with two functions exchanged -/

/-- Two functions that stand next to each other change places. -/
structure Program.ExchangeFunctions (program program' : Program) (k : Nat)
    (first second : NodeId) : Prop where
  arena : program'.arena = program.arena
  items : ∃ before after, before.length = k ∧
    program.items = before ++ first :: second :: after ∧
    program'.items = before ++ second :: first :: after
  first : ∃ node, program.arena.node? first = some node ∧ node.kind.definesFunction = true
  second : ∃ node, program.arena.node? second = some node ∧ node.kind.definesFunction = true

/-- The items of a row of trees can be in any order. -/
theorem Program.IsTree.of_perm (h : program.IsTree) (harena : program'.arena = program.arena)
    (hitems : program'.items.Perm program.items) : program'.IsTree := by
  have hreferences : program'.references.Perm program.references := by
    rw [references, references, harena]
    exact hitems.append_right _
  refine ⟨fun id hid => ?_, hreferences.nodup_iff.mpr h.once, ?_⟩
  · rw [harena]
    exact h.inRange id (hreferences.mem_iff.mp hid)
  · rw [harena]
    exact h.acyclic

namespace Program.ExchangeFunctions

variable (h : program.ExchangeFunctions program' k first second)

include h

theorem isTree (htree : program.IsTree) : program'.IsTree := by
  obtain ⟨before, after, -, hitems, hitems'⟩ := h.items
  refine htree.of_perm h.arena ?_
  rw [hitems, hitems']
  exact (List.Perm.swap first second after).append_left before

/-- An item that is in place `i` of the first program is in place `swap k (k + 1) i` of the
second. -/
theorem getElem?_swap (i : Nat) :
    program'.items[Equiv.swap k (k + 1) i]? = program.items[i]? := by
  obtain ⟨before, after, rfl, hitems, hitems'⟩ := h.items
  rw [hitems, hitems']
  by_cases hi : i = before.length
  · rw [hi, Equiv.swap_apply_left, List.getElem?_append_right (Nat.le_succ _),
      List.getElem?_append_right le_rfl]
    simp
  by_cases hi' : i = before.length + 1
  · rw [hi', Equiv.swap_apply_right, List.getElem?_append_right (Nat.le_succ _),
      List.getElem?_append_right le_rfl]
    simp
  rw [Equiv.swap_apply_of_ne_of_ne hi hi']
  obtain hlt | hle := lt_or_ge i before.length
  · rw [List.getElem?_append_left hlt, List.getElem?_append_left hlt]
  · obtain ⟨j, rfl⟩ : ∃ j, i = before.length + (j + 2) := ⟨i - before.length - 2, by omega⟩
    rw [List.getElem?_append_right hle, List.getElem?_append_right hle, Nat.add_sub_cancel_left]
    rfl

/-- The place of an item in the second program. -/
theorem place_eq (htree : program.IsTree) {i i' : Nat} {item : NodeId}
    (hi : program.items[i]? = some item) (hi' : program'.items[i']? = some item) :
    i' = Equiv.swap k (k + 1) i := by
  obtain ⟨hlt, -⟩ := List.getElem?_eq_some_iff.mp hi'
  refine (List.getElem?_inj hlt (h.isTree htree).nodup_items).mp ?_
  rw [h.getElem?_swap, hi, hi']

end Program.ExchangeFunctions

namespace Check

variable {cx : Setting} {p p' : Progress}

theorem itemsFrom_append {arena : Arena} {position : Nat} {ids ids' : List NodeId}
    {seen rest : List Item} (hseen : itemsFrom arena position ids = .ok seen)
    (hrest : itemsFrom arena (position + ids.length) ids' = .ok rest) :
    itemsFrom arena position (ids ++ ids') = .ok (seen ++ rest) := by
  induction ids generalizing position seen with
  | nil =>
    cases hseen
    exact hrest
  | cons id ids ih =>
    obtain ⟨node, seen', hnode, hseen', rfl⟩ := itemsFrom_cons_eq_ok.mp hseen
    refine itemsFrom_cons_eq_ok.mpr ⟨node, seen' ++ rest, hnode, ih hseen' ?_, rfl⟩
    rwa [Nat.add_assoc, Nat.add_comm 1]

/-- The items of both programs. -/
theorem neighbours_of_exchange (htree : program.IsTree)
    (h : program.ExchangeFunctions program' k first second) (harena : cx.arena = program.arena) :
    ∃ seen x y rest, x.id = first ∧ y.id = second ∧ Neighbours cx k seen x y rest ∧
      itemsFrom cx.arena 0 program.items = .ok (seen ++ x :: y :: rest) ∧
      itemsFrom cx.arena 0 program'.items = .ok (exchanged k seen x y rest) := by
  obtain ⟨before, after, rfl, hitems, hitems'⟩ := h.items
  obtain ⟨node, hnode, hfirst⟩ := h.first
  obtain ⟨node', hnode', hsecond⟩ := h.second
  rw [← harena] at hnode hnode'
  have hends : ∀ ids, (∀ id ∈ ids, id ∈ program.items) → ∀ position, ∃ items,
      itemsFrom cx.arena position ids = .ok items := fun ids hids =>
    itemsFrom_ends fun id hid => harena ▸ htree.index_lt_of_item (hids id hid)
  obtain ⟨seen, hseen⟩ := hends before (fun id hid => by simp [hitems, hid]) 0
  obtain ⟨rest, hrest⟩ := hends after (fun id hid => by simp [hitems, hid]) (before.length + 1 + 1)
  have hpair : ∀ {a b m n}, cx.arena.node? a = some m → cx.arena.node? b = some n →
      itemsFrom cx.arena 0 (before ++ a :: b :: after) =
        .ok (seen ++ ⟨before.length, a, m⟩ :: ⟨before.length + 1, b, n⟩ :: rest) :=
    fun ha hb => itemsFrom_append hseen (by
      have hlast := itemsFrom_cons_eq_ok.mpr ⟨_, rest, hb, hrest, rfl⟩
      rw [Nat.zero_add]
      exact itemsFrom_cons_eq_ok.mpr ⟨_, _, ha, hlast, rfl⟩)
  have hfrom := hitems ▸ hpair hnode hnode'
  obtain ⟨-, hplaces, hbefore⟩ := List.pairwise_append.mp (pairwise_position hfrom)
  refine ⟨seen, _, _, rest, rfl, rfl, ⟨?_, ⟨rfl, hfirst⟩, ⟨rfl, hsecond⟩, ?_, ?_⟩, hfrom,
    hitems' ▸ hpair hnode' hnode⟩
  · intro item hitem
    have hid := index_lt_of_itemsFrom hfrom hitem
    rw [harena] at hfrom hid
    rw [Item.IsPlaced, harena]
    exact ⟨(itemsOf_of_itemsFrom htree hfrom).node item hitem, htree.fits hid le_rfl⟩
  · intro item hitem
    obtain hitem | hitem := List.mem_append.mp hitem
    · have hlt : item.position < before.length := hbefore item hitem _ (List.mem_cons_self ..)
      exact ⟨by omega, by omega⟩
    · have hlt : before.length + 1 < item.position :=
        (List.pairwise_cons.mp (List.pairwise_cons.mp hplaces).2).1 item hitem
      exact ⟨by omega, by omega⟩
  · intro n hn
    have hnodup := htree.nodup_items
    rw [hitems] at hnodup
    have hne : first ≠ second := by
      rintro rfl
      simp [List.nodup_append] at hnodup
    rw [harena] at hn ⊢
    exact htree.not_below_of_item (by simp [hitems]) (by simp [hitems]) hne hn

end Check

/-- **Functions may be written in any order.** Two functions that stand next to each other change
places in a row of trees. With slices of one element type, both programs can be checked. If neither
function fails to be registered because it is defined already, in either order, then every item has
the same findings in both programs, the same functions have the same symbols, and the types of all
nodes, global names and declared structs appear the same. -/
theorem Session.function_order_irrelevant (hsession : session.Reachable generics config)
    (htree : program.IsTree) (hexchange : program.ExchangeFunctions program' k first second) :
    (generics.get? Form.sliceName = some 1 →
      ∃ p p', session.progress program = .ok p ∧ session.progress program' = .ok p') ∧
    ∀ p p', session.progress program = .ok p → session.progress program' = .ok p' →
      ¬ p.Clashes k first → ¬ p.Clashes (k + 1) second →
      ¬ p'.Clashes k second → ¬ p'.Clashes (k + 1) first →
      session.check program = .ok (p.report, { session with table := p.state.table }) ∧
        session.check program' = .ok (p'.report, { session with table := p'.state.table }) ∧
        (∀ item i i', program.items[i]? = some item → program'.items[i']? = some item →
          ∀ finding, (i', finding) ∈ p'.findings ↔ (i, finding) ∈ p.findings) ∧
        (p'.report.functions.map (·.entry)).Perm (p.report.functions.map (·.entry)) ∧
        (∀ n, (p'.report.annotations.get? n).map p'.state.table.appearance =
          (p.report.annotations.get? n).map p.state.table.appearance) ∧
        (∀ name, (p'.report.globals.get? name).map p'.state.table.appearance =
          (p.report.globals.get? name).map p.state.table.appearance) ∧
        ∀ name, (p'.report.names.get? name).map p'.state.table.appearance =
          (p.report.names.get? name).map p.state.table.appearance := by
  constructor
  · intro harity
    obtain ⟨_, _, hcheck⟩ := check_ends hsession harity htree
    obtain ⟨_, _, hcheck'⟩ := check_ends hsession harity (hexchange.isTree htree)
    obtain ⟨p, hrun, -⟩ := check_eq_ok.mp hcheck
    obtain ⟨p', hrun', -⟩ := check_eq_ok.mp hcheck'
    exact ⟨p, p', hrun, hrun'⟩
  · intro p p' hrun hrun' hfirst hsecond hsecond' hfirst'
    refine ⟨check_eq_ok.mpr ⟨p, hrun, rfl, rfl⟩, check_eq_ok.mpr ⟨p', hrun', rfl, rfl⟩, ?_⟩
    let cx : Check.Setting := ⟨program.arena, session.builtin, session.config⟩
    obtain ⟨_, x, y, _, rfl, rfl, hneighbours, hfrom, hfrom'⟩ :=
      Check.neighbours_of_exchange htree hexchange (rfl : cx.arena = program.arena)
    rw [progress, hexchange.arena] at hrun'
    obtain ⟨_, _, R, h⟩ := hneighbours.run hsession.canonical hsession.clear hfrom hfrom' hrun hrun'
      ⟨hfirst, hsecond⟩ ⟨hsecond', hfirst'⟩
    refine ⟨fun item i i' hi hi' finding => ?_, h.functions, fun n => ?_, fun name => ?_,
      fun name => ?_⟩
    · rw [hexchange.place_eq htree hi hi', h.mem_findings_swap]
    · exact h.state.appearance_of_node trivial
    · simpa [Check.Progress.report, Function.comp_def] using h.state.appearance_of_global name
    · exact h.state.appearance_of_name name

/-- Two members of the same name that call each other, the one on numbers and the other on strings,
and a name that is bound to nothing. -/
def Program.mutualMembers : Program where
  arena := ⟨#[⟨.string, .nowhere⟩, ⟨.member ⟨0⟩ "turn", .nowhere⟩, ⟨.call ⟨1⟩ [], .nowhere⟩,
    ⟨.function "turn" .member [("self", .named "f64")] (some (.named "string")) ⟨2⟩, .nowhere⟩,
    ⟨.number, .nowhere⟩, ⟨.member ⟨4⟩ "turn", .nowhere⟩, ⟨.call ⟨5⟩ [], .nowhere⟩,
    ⟨.function "turn" .member [("self", .named "string")] (some (.named "string")) ⟨6⟩, .nowhere⟩,
    ⟨.identifier "missing", .nowhere⟩]⟩
  items := [⟨3⟩, ⟨7⟩, ⟨8⟩]

/-- The members in the other order. -/
def Program.mutualMembersExchanged : Program :=
  { Program.mutualMembers with items := [⟨7⟩, ⟨3⟩, ⟨8⟩] }

theorem Program.mutualMembers_isTree : Program.mutualMembers.IsTree where
  inRange := by decide
  once := by decide
  acyclic := Arena.acyclic_of_index_lt (by decide)

theorem Program.mutualMembers_exchange :
    Program.mutualMembers.ExchangeFunctions Program.mutualMembersExchanged 0 ⟨3⟩ ⟨7⟩ where
  arena := rfl
  items := ⟨[], [⟨8⟩], rfl, rfl, rfl⟩
  first := ⟨_, rfl, rfl⟩
  second := ⟨_, rfl, rfl⟩

/-- The signatures have other numbers in the other order, and nothing else differs. -/
theorem Session.function_order_irrelevant_mutualMembers :
    ∃ (session : Session) (p p' : Check.Progress),
      session.Reachable Generics.standard .permissive ∧ Program.mutualMembers.IsTree ∧
      Program.mutualMembers.ExchangeFunctions Program.mutualMembersExchanged 0 ⟨3⟩ ⟨7⟩ ∧
      session.progress Program.mutualMembers = .ok p ∧
      session.progress Program.mutualMembersExchanged = .ok p' ∧
      (¬ p.Clashes 0 ⟨3⟩ ∧ ¬ p.Clashes 1 ⟨7⟩ ∧ ¬ p'.Clashes 0 ⟨7⟩ ∧ ¬ p'.Clashes 1 ⟨3⟩) ∧
      p.findings.map (·.1) = [2] ∧ p.report.functions.length = 2 ∧
      (p'.report.functions.map (·.entry)).Perm (p.report.functions.map (·.entry)) ∧
      p.report.annotations.get? ⟨3⟩ = some ⟨8⟩ ∧ p'.report.annotations.get? ⟨3⟩ = some ⟨9⟩ ∧
      p'.state.table.appearance ⟨9⟩ = p.state.table.appearance ⟨8⟩ := by
  have heval : (do
      let session ← Session.standard Generics.standard .permissive
      let p ← session.progress Program.mutualMembers
      let p' ← session.progress Program.mutualMembersExchanged
      return decide ((p.failed = [] ∧ p'.failed = []) ∧ p.findings.map (·.1) = [2] ∧
        p.functions.length = 2 ∧ p.report.annotations.get? ⟨3⟩ = some ⟨8⟩ ∧
        p'.report.annotations.get? ⟨3⟩ = some ⟨9⟩)) = Except.ok true := by
    decide +kernel
  obtain ⟨session, hsession, heval⟩ := except_bind_eq_ok.mp heval
  obtain ⟨p, hrun, heval⟩ := except_bind_eq_ok.mp heval
  obtain ⟨p', hrun', heval⟩ := except_bind_eq_ok.mp heval
  obtain ⟨⟨hfailed, hfailed'⟩, hfindings, hfunctions, htype, htype'⟩ :=
    of_decide_eq_true (Except.ok.inj heval)
  have hreachable := Reachable.standard hsession
  have hnew : ∀ position n, ¬ p.Clashes position n := fun _ _ h => by simpa [hfailed] using h.1
  have hnew' : ∀ position n, ¬ p'.Clashes position n := fun _ _ h => by simpa [hfailed'] using h.1
  obtain ⟨-, -, -, hsame, hnodes, -⟩ := (function_order_irrelevant hreachable
    Program.mutualMembers_isTree Program.mutualMembers_exchange).2 p p' hrun hrun' (hnew _ _)
    (hnew _ _) (hnew' _ _) (hnew' _ _)
  refine ⟨session, p, p', hreachable, Program.mutualMembers_isTree, Program.mutualMembers_exchange,
    hrun, hrun', ⟨hnew _ _, hnew _ _, hnew' _ _, hnew' _ _⟩, hfindings, hfunctions, hsame, htype,
    htype', ?_⟩
  simpa [htype, htype'] using hnodes ⟨3⟩

end RuleTypes
