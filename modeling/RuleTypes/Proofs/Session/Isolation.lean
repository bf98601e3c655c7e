import RuleTypes.Proofs.Session.History

/-!
# Bodies of functions are closed off

Two programs that differ in the body of one function only have the same results everywhere else
(`Session.isolated`): whether either body is right or not, no other item can tell. The nodes may
have other numbers in the second program, so the nodes of the other items are matched by a map.
-/

namespace RuleTypes

open List (Forall₂)
open Relation

variable {generics : Generics} {config : Config} {session session' : Session}
  {program program' : Program} {f : NodeId → NodeId} {position : Nat} {function : NodeId}

/-! ## Programs that differ in one body -/

/-- The second program has the items of the first under other numbers, apart from one function,
whose head is the same and whose body can be any other. -/
structure Program.DifferInBody (program program' : Program) (f : NodeId → NodeId) (position : Nat)
    (function : NodeId) : Prop where
  items : program'.items = program.items.map f
  place : program.items[position]? = some function
  head : ∃ span name kind params result body body',
    program.arena.node? function = some ⟨.function name kind params result body, span⟩ ∧
    program'.arena.node? (f function) = some ⟨.function name kind params result body', span⟩
  copied : ∀ item ∈ program.items, item ≠ function → ∀ n, program.arena.Below item n →
    program'.arena.node? (f n) = (program.arena.node? n).map (Node.rename f)

namespace Program

/-- The node belongs to another item than the function. -/
def BesideOf (program : Program) (function n : NodeId) : Prop :=
  ∃ item ∈ program.items, item ≠ function ∧ program.arena.Below item n

/-- The node belongs to another item, or is that of the function itself. -/
def OutsideBody (program : Program) (function n : NodeId) : Prop :=
  program.BesideOf function n ∨ n = function

namespace DifferInBody

variable {m n : NodeId} (h : program.DifferInBody program' f position function)

include h

theorem mem_items : function ∈ program.items := List.mem_of_getElem? h.place

theorem node? (hn : program.BesideOf function n) :
    program'.arena.node? (f n) = (program.arena.node? n).map (Node.rename f) := by
  obtain ⟨item, hitem, hne, hbelow⟩ := hn
  exact h.copied item hitem hne n hbelow

theorem mem_items' {item : NodeId} (hitem : item ∈ program.items) : f item ∈ program'.items :=
  h.items ▸ List.mem_map_of_mem hitem

/-- The nodes of the other items stay below their items. -/
theorem below {item : NodeId} (hitem : item ∈ program.items) (hne : item ≠ function)
    (hn : program.arena.Below item n) : program'.arena.Below (f item) (f n) := by
  induction hn with
  | refl => exact .refl _
  | tail hbelow hchild ih => exact ih.tail (hchild.of_rename (h.copied item hitem hne _ hbelow))

/-- An item has its number to itself. -/
theorem eq_of_item (htree' : program'.IsTree) (hm : m ∈ program.items)
    (hn : program.OutsideBody function n) (heq : f m = f n) : m = n := by
  have hn : n ∈ program.items := by
    obtain ⟨item, hitem, hne, hbelow⟩ | rfl := hn
    · obtain rfl | ⟨q, hq, hqn⟩ := ReflTransGen.cases_tail hbelow
      · exact hitem
      · have hchild := hqn.of_rename (h.copied item hitem hne q hq)
        exact absurd (heq ▸ hchild) (htree'.not_isChild_of_item (h.mem_items' hm))
    · exact h.mem_items
  exact List.inj_on_of_nodup_map (h.items ▸ htree'.nodup_items) hm hn heq

/-- **Different nodes of the other items have different numbers.** Both programs are rows of trees,
so nodes with one number would have parents with one number, up to the items. -/
theorem injective (htree' : program'.IsTree) (hm : program.OutsideBody function m)
    (hn : program.OutsideBody function n) (heq : f m = f n) : m = n := by
  obtain ⟨item, hitem, hne, hbelow⟩ | rfl := hm
  swap
  · exact h.eq_of_item htree' h.mem_items hn heq
  induction hbelow generalizing n with
  | refl => exact h.eq_of_item htree' hitem hn heq
  | @tail p m hp hpm ih =>
    have hm : program.BesideOf function m := ⟨item, hitem, hne, hp.tail hpm⟩
    obtain ⟨item', hitem', hne', hbelow'⟩ | rfl := hn
    swap
    · exact (h.eq_of_item htree' h.mem_items (Or.inl hm) heq.symm).symm
    obtain rfl | ⟨q, hq, hqn⟩ := ReflTransGen.cases_tail hbelow'
    · exact (h.eq_of_item htree' hitem' (Or.inl hm) heq.symm).symm
    have hnode := h.copied item hitem hne p hp
    have hpm' := hpm.of_rename hnode
    have hqn' := hqn.of_rename (h.copied item' hitem' hne' q hq)
    obtain rfl : p = q := ih (Or.inl ⟨item', hitem', hne', hq⟩)
      (htree'.isForest.eq_of_isChild _ _ _ hpm' (heq ▸ hqn'))
    obtain ⟨node, hpnode, hmchild⟩ := hpm
    obtain ⟨_, hpnode', hnchild⟩ := hqn
    obtain rfl := Option.some.inj (hpnode.symm.trans hpnode')
    have honce := htree'.isForest.once _ _ (hnode.trans (by rw [hpnode]; rfl))
    change (node.kind.rename f).children.Nodup at honce
    rw [NodeKind.children_rename] at honce
    exact List.inj_on_of_nodup_map honce hmchild hnchild heq

/-- The nodes of the other items have their place in both programs. -/
theorem index_lt (htree' : program'.IsTree) (hn : program.OutsideBody function n)
    (hlt : n.index < program.arena.size) : (f n).index < program'.arena.size := by
  obtain hn | rfl := hn
  · obtain ⟨node, hnode⟩ := Arena.exists_node?_of_lt hlt
    exact Arena.index_lt_of_node? ((h.node? hn).trans (by rw [hnode]; rfl))
  · exact htree'.index_lt_of_item (h.mem_items' h.mem_items)

/-- No node of another item lies in the body of the function. -/
theorem not_below_body (htree : program.IsTree) {body : NodeId}
    (hbody : program.arena.IsChild function body)
    (hn : program.OutsideBody function n) : ¬ program.arena.Below body n := by
  obtain ⟨item, hitem, hne, hbelow⟩ | rfl := hn
  · exact fun hn => htree.not_below_of_item hitem h.mem_items hne hbelow (hbody.below.trans hn)
  · exact htree.isForest.not_below_of_isChild hbody

/-- Nor does one lie in the other body. -/
theorem not_below_body' (htree' : program'.IsTree) {body' : NodeId}
    (hbody : program'.arena.IsChild (f function) body')
    (hn : program.OutsideBody function n) : ¬ program'.arena.Below body' (f n) := by
  obtain ⟨item, hitem, hne, hbelow⟩ | rfl := hn
  · have hne' : f item ≠ f function := fun heq => hne (h.eq_of_item htree' hitem (Or.inr rfl) heq)
    exact fun hn => htree'.not_below_of_item (h.mem_items' hitem) (h.mem_items' h.mem_items) hne'
      (h.below hitem hne hbelow) (hbody.below.trans hn)
  · exact htree'.isForest.not_below_of_isChild hbody

end DifferInBody

end Program

/-! ## Checking both -/

namespace Check

variable {cx cx' : Setting} (h : program.DifferInBody program' f position function)
  (htree : program.IsTree) (htree' : program'.IsTree) (harena : cx.arena = program.arena)
  (harena' : cx'.arena = program'.arena) (hconfig : cx'.config = cx.config)

/-- The items of one program beside the items of the other. -/
def Copy.beside : Copy cx cx' where
  place := f
  shared n := program.OutsideBody function n
  copied n := program.BesideOf function n
  config := hconfig
  injective _ _ := h.injective htree'
  shared_of_copied _ := Or.inl
  node? n hn := by
    rw [harena, harena']
    exact h.node? hn
  part n part hn hpart := by
    obtain ⟨item, hitem, hne, hbelow⟩ := hn
    exact ⟨item, hitem, hne, hbelow.tail (harena ▸ hpart)⟩

include htree

/-- Items in the same place are copies, or they are the function. -/
theorem sameItem_at {i : Nat} {id : NodeId} {node node' : Node}
    (hid : program.items[i]? = some id) (hnode : program.arena.node? id = some node)
    (hnode' : program'.arena.node? (f id) = some node') :
    SameItem (Copy.beside h htree' harena harena' hconfig) (some (position, function))
      ⟨i, id, node⟩ ⟨i, f id, node'⟩ := by
  have hmem := List.mem_of_getElem? hid
  by_cases hfunction : id = function
  · subst hfunction
    obtain ⟨span, name, kind, params, result, body, body', hhead, hhead'⟩ := h.head
    obtain rfl := Option.some.inj (hnode.symm.trans hhead)
    obtain rfl := Option.some.inj (hnode'.symm.trans hhead')
    obtain ⟨hlt, -⟩ := List.getElem?_eq_some_iff.mp hid
    obtain rfl : i = position :=
      (List.getElem?_inj hlt htree.nodup_items).mp (hid.trans h.place.symm)
    have hshared : (Copy.beside h htree' harena harena' hconfig).shared id := Or.inr rfl
    refine .body rfl hshared (fun n hn => ?_) fun n hn => ?_
    · rw [harena]
      exact h.not_below_body htree ⟨_, hnode, List.mem_singleton.mpr rfl⟩ hn
    · rw [harena']
      exact h.not_below_body' htree' ⟨_, hnode', List.mem_singleton.mpr rfl⟩ hn
  · have hbeside : program.BesideOf function id := ⟨id, hmem, hfunction, .refl id⟩
    have hcopy := h.node? hbeside
    rw [hnode, hnode'] at hcopy
    obtain rfl := Option.some.inj hcopy
    have hfits : cx'.arena.Fits cx'.arena.size (f id) := by
      rw [harena']
      exact htree'.fits (htree'.index_lt_of_item (h.mem_items' hmem)) le_rfl
    refine .copied (fun x hx => ?_) hbeside (harena ▸ hnode) hfits
    obtain rfl := Option.some.inj hx
    refine ⟨?_, fun heq => hfunction (h.injective htree' (Or.inl hbeside) (Or.inr rfl) heq)⟩
    rintro rfl
    exact hfunction (Option.some.inj (hid.symm.trans h.place))

/-- **A body shows nowhere else.** -/
theorem run_beside {R : Renaming} {t t' : TypeTable} (htable : TypeTable.Matches R t t')
    (hbuiltin : cx.builtin.Renames R cx'.builtin) {p p' : Progress}
    (hrun : run cx program.items t = .ok p) (hrun' : run cx' program'.items t' = .ok p') :
    ∃ R, Abreast (Copy.beside h htree' harena harena' hconfig) (some (position, function)) R
      p p' := by
  obtain ⟨items, _, hfrom, -⟩ := run_eq_ok.mp hrun
  obtain ⟨items', _, hfrom', -⟩ := run_eq_ok.mp hrun'
  have hstart : Mirrored (Copy.beside h htree' harena harena' hconfig) R
      (State.start t cx.arena.size) (State.start t' cx'.arena.size) :=
    .start htable hbuiltin fun n hn hlt => by
      rw [harena']
      exact h.index_lt htree' hn (harena ▸ hlt)
  have hitems : ∀ i id node node', program.items[i]? = some id → cx.arena.node? id = some node →
      cx'.arena.node? (f id) = some node' →
      SameItem (Copy.beside h htree' harena harena' hconfig) (some (position, function))
        ⟨0 + i, id, node⟩ ⟨0 + i, f id, node'⟩ := fun i id node node' hid hnode hnode' => by
    rw [Nat.zero_add]
    exact sameItem_at h htree htree' harena harena' hconfig hid (harena ▸ hnode) (harena' ▸ hnode')
  obtain ⟨R', q, hq, hp⟩ := run_echoes hfrom hfrom'
    (forall₂_of_itemsFrom hfrom (h.items ▸ hfrom') hitems) hstart hrun fun _ => ⟨p', hrun'⟩
  obtain rfl := Except.ok.inj (hrun'.symm.trans hq)
  exact ⟨R', hp⟩

end Check

/-- **A body cannot influence other items.** Two rows of trees that differ in the body of one
function only are checked, each in some session over the same generics and choices. Whether either
body is right or not, all other items end the same: they have the same findings, the same functions
with the same symbols, and types that appear the same at every node below them. The same names are
global, and their types appear the same. -/
theorem Session.isolated (hsession : session.Reachable generics config)
    (hsession' : session'.Reachable generics config) (htree : program.IsTree)
    (htree' : program'.IsTree) (hdiffer : program.DifferInBody program' f position function)
    {p p' : Check.Progress} (hrun : Check.run ⟨program.arena, session.builtin, session.config⟩
      program.items session.table = .ok p)
    (hrun' : Check.run ⟨program'.arena, session'.builtin, session'.config⟩ program'.items
      session'.table = .ok p') :
    session.check program = .ok (p.report, { session with table := p.state.table }) ∧
      session'.check program' = .ok (p'.report, { session' with table := p'.state.table }) ∧
      p'.findings.filter (fun found => found.1 ≠ position) =
        p.findings.filter (fun found => found.1 ≠ position) ∧
      (p'.report.functions.filter fun g => g.node ≠ f function).map
          (fun g => (g.name, g.kind, g.node, g.symbol)) =
        (p.report.functions.filter fun g => g.node ≠ function).map
          (fun g => (g.name, g.kind, f g.node, g.symbol)) ∧
      (∀ item ∈ program.items, item ≠ function → ∀ n, program.arena.Below item n →
        (p'.report.annotations.get? (f n)).map p'.state.table.appearance =
          (p.report.annotations.get? n).map p.state.table.appearance) ∧
      ∀ name, (p'.report.globals.get? name).map p'.state.table.appearance =
        (p.report.globals.get? name).map p.state.table.appearance := by
  obtain ⟨R, htable, hbuiltin, hconfig⟩ := hsession.matches hsession'
  obtain ⟨R', hp⟩ :=
    Check.run_beside hdiffer htree htree' rfl rfl hconfig htable hbuiltin hrun hrun'
  refine ⟨check_eq_ok.mpr ⟨p, hrun, rfl, rfl⟩, check_eq_ok.mpr ⟨p', hrun', rfl, rfl⟩, ?_, ?_, ?_,
    ?_⟩
  · simpa [eq_comm] using hp.findings
  · have hfunctions := Check.SameFunction.map_eq hp.functions
    change (p'.functions.filter fun g => some (f function) ≠ some g.node).map _ =
      (p.functions.filter fun g => some function ≠ some g.node).map
        (fun g => (g.name, g.kind, f g.node, g.symbol)) at hfunctions
    simpa [Check.Progress.report, eq_comm] using hfunctions
  · exact fun item hitem hne n hn => hp.state.appearance_of_node (Or.inl ⟨item, hitem, hne, hn⟩)
  · intro name
    simpa [Check.Progress.report, Function.comp_def] using hp.state.appearance_of_global name

/-- The program `Program.callOfMember` with a string for the body of its function, which is two
nodes shorter and does not fit the result. -/
def Program.callOfBrokenMember : Program where
  arena := ⟨#[⟨.string, .nowhere⟩,
    ⟨.function "twice" .member [("self", .named "f64")] (some (.named "f64")) ⟨0⟩, .nowhere⟩,
    ⟨.number, .nowhere⟩, ⟨.member ⟨2⟩ "twice", .nowhere⟩, ⟨.call ⟨3⟩ [], .nowhere⟩,
    ⟨.var "x" .auto ⟨4⟩, .nowhere⟩, ⟨.identifier "missing", .nowhere⟩]⟩
  items := [⟨1⟩, ⟨5⟩, ⟨6⟩]

theorem Program.callOfBrokenMember_isTree : Program.callOfBrokenMember.IsTree where
  inRange := by decide
  once := by decide
  acyclic := Arena.acyclic_of_index_lt (by decide)

theorem Program.callOfMember_differ : Program.callOfMember.DifferInBody
    Program.callOfBrokenMember (fun n => ⟨n.index - 2⟩) 0 ⟨3⟩ where
  items := by decide
  place := rfl
  head := ⟨.nowhere, "twice", .member, [("self", .named "f64")], some (.named "f64"), ⟨2⟩, ⟨0⟩,
    by simp [Program.callOfMember, Arena.node?], by decide⟩
  copied item hitem hne n hn := by
    have hparts : ∀ i (hi : i < Program.callOfMember.arena.nodes.size), 4 ≤ i →
        ∀ child ∈ Program.callOfMember.arena.nodes[i].kind.children, 4 ≤ child.index := by
      simp only [Program.callOfMember, List.map_toArray, List.map_cons, List.map_nil]
      decide
    have hsame : ∀ i : Fin 5, Program.callOfBrokenMember.arena.node? ⟨i.val + 4 - 2⟩ =
        (Program.callOfMember.arena.node? ⟨i.val + 4⟩).map
          (Node.rename fun n => ⟨n.index - 2⟩) := by
      simp only [Program.callOfMember, List.map_toArray, List.map_cons, List.map_nil]
      decide
    -- the nodes after the function belong to the other items
    have hfour : 4 ≤ n.index := by
      induction hn with
      | refl =>
        revert item
        decide
      | tail _ hchild ih =>
        obtain ⟨node, hnode, hchild⟩ := hchild
        obtain ⟨hlt, rfl⟩ := Array.getElem?_eq_some_iff.mp hnode
        exact hparts _ hlt ih _ hchild
    obtain ⟨i, hi⟩ := Nat.exists_eq_add_of_le' hfour
    obtain ⟨_⟩ := n
    subst hi
    by_cases hlt : i < 5
    · exact hsame ⟨i, hlt⟩
    · have hsize : Program.callOfMember.arena.nodes.size = 9 := by simp [Program.callOfMember]
      have hnone : Program.callOfMember.arena.node? ⟨i + 4⟩ = none :=
        Array.getElem?_eq_none (by rw [hsize]; change 9 ≤ i + 4; omega)
      have hnone' : Program.callOfBrokenMember.arena.node? ⟨i + 4 - 2⟩ = none :=
        Array.getElem?_eq_none (by change 7 ≤ i + 4 - 2; omega)
      rw [hnone]
      exact hnone'

/-- The broken body has a finding of its own, and the call of the function keeps its type. -/
theorem Session.isolated_callOfMember :
    ∃ (session : Session) (p p' : Check.Progress),
      session.Reachable Generics.standard .permissive ∧ Program.callOfMember.IsTree ∧
      Program.callOfBrokenMember.IsTree ∧
      Program.callOfMember.DifferInBody Program.callOfBrokenMember (fun n => ⟨n.index - 2⟩) 0 ⟨3⟩ ∧
      Check.run ⟨Program.callOfMember.arena, session.builtin, session.config⟩
        Program.callOfMember.items session.table = .ok p ∧
      Check.run ⟨Program.callOfBrokenMember.arena, session.builtin, session.config⟩
        Program.callOfBrokenMember.items session.table = .ok p' ∧
      p.findings.map (·.1) = [2] ∧ p'.findings.map (·.1) = [0, 2] ∧
      p'.findings.filter (fun found => found.1 ≠ 0) =
        p.findings.filter (fun found => found.1 ≠ 0) ∧
      (p.report.annotations.get? ⟨6⟩).isSome = true ∧
      (p'.report.annotations.get? ⟨4⟩).map p'.state.table.appearance =
        (p.report.annotations.get? ⟨6⟩).map p.state.table.appearance := by
  have heval : (do
      let session ← Session.standard Generics.standard .permissive
      let p ← Check.run ⟨Program.callOfMember.arena, session.builtin, session.config⟩
        Program.callOfMember.items session.table
      let p' ← Check.run ⟨Program.callOfBrokenMember.arena, session.builtin, session.config⟩
        Program.callOfBrokenMember.items session.table
      return decide (p.findings.map (·.1) = [2] ∧ p'.findings.map (·.1) = [0, 2] ∧
        (p.report.annotations.get? ⟨6⟩).isSome = true)) = Except.ok true := by
    decide +kernel
  obtain ⟨session, hsession, heval⟩ := except_bind_eq_ok.mp heval
  obtain ⟨p, hrun, heval⟩ := except_bind_eq_ok.mp heval
  obtain ⟨p', hrun', heval⟩ := except_bind_eq_ok.mp heval
  obtain ⟨hfindings, hfindings', htyped⟩ := of_decide_eq_true (Except.ok.inj heval)
  have hreachable := Reachable.standard hsession
  obtain ⟨-, -, hothers, -, hnodes, -⟩ := isolated hreachable hreachable
    Program.callOfMember_isTree Program.callOfBrokenMember_isTree Program.callOfMember_differ
    hrun hrun'
  refine ⟨session, p, p', hreachable, Program.callOfMember_isTree,
    Program.callOfBrokenMember_isTree, Program.callOfMember_differ, hrun, hrun', hfindings,
    hfindings', hothers, htyped, ?_⟩
  refine hnodes ⟨7⟩ (by decide) (by decide) ⟨6⟩ ?_
  exact Arena.IsChild.below ⟨⟨.var "x" .auto ⟨6⟩, .nowhere⟩, by decide +kernel, by decide⟩

end RuleTypes
