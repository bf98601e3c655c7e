import Mathlib.Data.List.Nodup
import Mathlib.Data.List.Perm.Subperm
import Mathlib.Logic.Relation
import RuleTypes.Program

/-!
# Rule code in the shape of trees

References in an arena may point anywhere. A program as written is a row of trees: every reference
leads to a node, no node is referred to twice, and no node lies below itself. Then the nodes below
two different items, or below two parts of one node, are apart (`not_below_of_item`,
`not_below_of_sibling`), and no way down is longer than the arena (`Program.IsTree.fits`).
-/

namespace RuleTypes

open Relation

/-- The first node refers to the second. -/
def Arena.IsChild (arena : Arena) (parent child : NodeId) : Prop :=
  ∃ node, arena.node? parent = some node ∧ child ∈ node.kind.children

/-- The second node is the first or lies below it. -/
def Arena.Below (arena : Arena) : NodeId → NodeId → Prop := ReflTransGen arena.IsChild

/-- Every node is part of at most one node, in one place, and none lies below itself. -/
structure Arena.IsForest (arena : Arena) : Prop where
  once : ∀ id node, arena.node? id = some node → node.kind.children.Nodup
  eq_of_isChild : ∀ p q x, arena.IsChild p x → arena.IsChild q x → p = q
  acyclic : ∀ id, ¬ TransGen arena.IsChild id id

/-- All references of a program: its items, and the parts of its nodes. -/
def Program.references (program : Program) : List NodeId :=
  program.items ++ program.arena.nodes.toList.flatMap fun node => node.kind.children

/-- The program is a row of trees. -/
structure Program.IsTree (program : Program) : Prop where
  inRange : ∀ id ∈ program.references, id.index < program.arena.size
  once : program.references.Nodup
  acyclic : ∀ id, ¬ TransGen program.arena.IsChild id id

namespace Arena

variable {arena : Arena} {a b c p x : NodeId}

theorem Below.refl (a : NodeId) : arena.Below a a := ReflTransGen.refl

theorem Below.trans (h : arena.Below a b) (h' : arena.Below b c) : arena.Below a c :=
  ReflTransGen.trans h h'

theorem IsChild.below (h : arena.IsChild a b) : arena.Below a b := .single h

theorem node?_eq_toList (arena : Arena) (id : NodeId) :
    arena.node? id = arena.nodes.toList[id.index]? := Array.getElem?_toList.symm

/-- An arena in which every reference points back has no cycle. -/
theorem acyclic_of_index_lt (h : ∀ i (hi : i < arena.nodes.size),
    ∀ child ∈ arena.nodes[i].kind.children, child.index < i) (id : NodeId) :
    ¬ TransGen arena.IsChild id id := by
  have hstep : ∀ {a b}, arena.IsChild a b → b.index < a.index := by
    rintro a b ⟨node, hnode, hb⟩
    obtain ⟨hlt, rfl⟩ := Array.getElem?_eq_some_iff.mp hnode
    exact h a.index hlt b hb
  have hpath : ∀ {a b}, TransGen arena.IsChild a b → b.index < a.index := by
    intro a b hab
    induction hab with
    | single hab => exact hstep hab
    | tail _ hbc ih => exact Nat.lt_trans (hstep hbc) ih
  exact fun hid => Nat.lt_irrefl _ (hpath hid)

namespace IsForest

theorem not_below_of_isChild (h : arena.IsForest) (ha : arena.IsChild p a) :
    ¬ arena.Below a p := fun hap => h.acyclic p (TransGen.head' ha hap)

/-- Of two nodes above a third, one is above the other. -/
theorem below_total (h : arena.IsForest) (ha : arena.Below a x) (hb : arena.Below b x) :
    arena.Below a b ∨ arena.Below b a := by
  have hunique : Relator.RightUnique (Function.swap arena.IsChild) :=
    fun x p q hp hq => h.eq_of_isChild p q x hp hq
  have htotal := ReflTransGen.total_of_right_unique hunique
    (reflTransGen_swap.mpr ha) (reflTransGen_swap.mpr hb)
  exact htotal.symm.imp reflTransGen_swap.mp reflTransGen_swap.mp

/-- The nodes below two parts of one node are apart. -/
theorem not_below_of_sibling (h : arena.IsForest) (ha : arena.IsChild p a)
    (hb : arena.IsChild p b) (hne : a ≠ b) (hx : arena.Below a x) : ¬ arena.Below b x := by
  intro hbx
  -- the lower of the two parts would lie below its own parent's other part
  have hcross : ∀ {c d}, arena.IsChild p c → arena.IsChild p d → c ≠ d → ¬ arena.Below c d := by
    intro c d hc hd hcd hbelow
    obtain rfl | ⟨q, hcq, hqd⟩ := ReflTransGen.cases_tail hbelow
    · exact hcd rfl
    · obtain rfl := h.eq_of_isChild q p d hqd hd
      exact h.not_below_of_isChild hc hcq
  obtain hab | hba := h.below_total hx hbx
  · exact hcross ha hb hne hab
  · exact hcross hb ha hne.symm hba

end IsForest

/-! ## Ways down -/

/-- Every reference below the node leads to a node, and no way down from it has more than `depth`
nodes. -/
inductive Fits (arena : Arena) : Nat → NodeId → Prop
  | intro {depth : Nat} {id : NodeId} {node : Node} (hnode : arena.node? id = some node)
      (hparts : ∀ child ∈ node.kind.children, arena.Fits depth child) : arena.Fits (depth + 1) id

namespace Fits

variable {depth depth' : Nat} {id child : NodeId} {node : Node}

theorem exists_node (h : arena.Fits depth id) : ∃ node, arena.node? id = some node := by
  obtain ⟨hnode, -⟩ := h
  exact ⟨_, hnode⟩

theorem mono (h : arena.Fits depth id) (hle : depth ≤ depth') : arena.Fits depth' id := by
  induction h generalizing depth' with
  | intro hnode _ ih =>
    obtain ⟨depth', rfl⟩ := Nat.exists_eq_add_of_lt (Nat.lt_of_succ_le hle)
    exact .intro hnode fun child hchild => ih child hchild (by omega)

theorem part (h : arena.Fits (depth + 1) id) (hchild : arena.IsChild id child) :
    arena.Fits depth child := by
  obtain ⟨node, hnode, hchild⟩ := hchild
  cases h with
  | intro hnode' hparts =>
    obtain rfl := Option.some.inj (hnode'.symm.trans hnode)
    exact hparts child hchild

/-- A part fits where the whole does. -/
theorem of_isChild (h : arena.Fits depth id) (hchild : arena.IsChild id child) :
    arena.Fits depth child := by
  cases depth with
  | zero => cases h
  | succ depth => exact (h.part hchild).mono (Nat.le_succ depth)

end Fits

theorem exists_node?_of_lt {id : NodeId} (h : id.index < arena.size) :
    ∃ node, arena.node? id = some node := ⟨_, Array.getElem?_eq_getElem h⟩

theorem index_lt_of_node? {id : NodeId} {node : Node} (h : arena.node? id = some node) :
    id.index < arena.size := (Array.getElem?_eq_some_iff.mp h).1

/-- Different nodes of an arena are not more than it has. -/
theorem length_le_size {path : List NodeId} (hnodup : path.Nodup)
    (hpath : ∀ a ∈ path, a.index < arena.size) : path.length ≤ arena.size := by
  have hinj : Function.Injective NodeId.index := by
    rintro ⟨i⟩ ⟨j⟩ rfl
    rfl
  have hsubset : path.map NodeId.index ⊆ List.range arena.size := by
    intro i hi
    obtain ⟨a, ha, rfl⟩ := List.mem_map.mp hi
    exact List.mem_range.mpr (hpath a ha)
  simpa using ((hnodup.map hinj).subperm hsubset).length_le

/-- Without cycles, a way down ends at the latest when all nodes were met. -/
theorem fits_of_path (hrange : ∀ a b, arena.IsChild a b → b.index < arena.size)
    (hacyclic : ∀ a, ¬ TransGen arena.IsChild a a) {depth : Nat} {id : NodeId}
    {path : List NodeId} (hid : id ∈ path) (hnodup : path.Nodup)
    (hpath : ∀ a ∈ path, a.index < arena.size ∧ arena.Below a id)
    (hdepth : arena.size < path.length + depth) : arena.Fits depth id := by
  induction depth generalizing id path with
  | zero =>
    have hlength := length_le_size hnodup fun a ha => (hpath a ha).1
    omega
  | succ depth ih =>
    obtain ⟨node, hnode⟩ := exists_node?_of_lt (hpath id hid).1
    refine .intro hnode fun child hchild => ?_
    have hchild : arena.IsChild id child := ⟨node, hnode, hchild⟩
    refine ih (List.mem_cons_self ..) (List.nodup_cons.mpr ⟨fun hmem => ?_, hnodup⟩)
      (List.forall_mem_cons.mpr ⟨⟨hrange id child hchild, .refl child⟩, fun a ha => ?_⟩) ?_
    · exact hacyclic id (TransGen.head' hchild (hpath child hmem).2)
    · exact ⟨(hpath a ha).1, (hpath a ha).2.trans hchild.below⟩
    · rw [List.length_cons]
      omega

end Arena

namespace Program.IsTree

variable {program : Program} {a b p x : NodeId}

theorem isForest (h : program.IsTree) : program.arena.IsForest where
  once id node hnode := by
    have hflat := (List.nodup_append.mp h.once).2.1
    rw [Arena.node?_eq_toList] at hnode
    exact (List.nodup_flatMap.mp hflat).1 node (List.mem_of_getElem? hnode)
  eq_of_isChild := by
    rintro p q x ⟨m, hm, hxm⟩ ⟨n, hn, hxn⟩
    rw [Arena.node?_eq_toList] at hm hn
    obtain ⟨hi, rfl⟩ := List.getElem?_eq_some_iff.mp hm
    obtain ⟨hj, rfl⟩ := List.getElem?_eq_some_iff.mp hn
    have hapart := List.pairwise_iff_getElem.mp
      (List.nodup_flatMap.mp (List.nodup_append.mp h.once).2.1).2
    -- two places that share a part would break the pairwise disjointness, whichever comes first
    rcases Nat.lt_trichotomy p.index q.index with hlt | heq | hlt
    · exact absurd hxn (hapart _ _ hi hj hlt hxm)
    · cases p; cases q; simp_all
    · exact absurd hxm (hapart _ _ hj hi hlt hxn)
  acyclic := h.acyclic

theorem nodup_items (h : program.IsTree) : program.items.Nodup :=
  (List.nodup_append.mp h.once).1

theorem index_lt_of_item (h : program.IsTree) (ha : a ∈ program.items) :
    a.index < program.arena.size := h.inRange a (List.mem_append_left _ ha)

theorem index_lt_of_isChild (h : program.IsTree) (ha : program.arena.IsChild p a) :
    a.index < program.arena.size := by
  obtain ⟨node, hnode, hchild⟩ := ha
  rw [Arena.node?_eq_toList] at hnode
  exact h.inRange a (List.mem_append_right _
    (List.mem_flatMap.mpr ⟨node, List.mem_of_getElem? hnode, hchild⟩))

/-- No way down is longer than the arena. -/
theorem fits (h : program.IsTree) {depth : Nat} (ha : a.index < program.arena.size)
    (hdepth : program.arena.size ≤ depth) : program.arena.Fits depth a :=
  Arena.fits_of_path (fun _ _ => h.index_lt_of_isChild) h.acyclic (List.mem_singleton.mpr rfl)
    (List.nodup_singleton a) (List.forall_mem_singleton.mpr ⟨ha, .refl a⟩)
    (by rw [List.length_singleton]; omega)

theorem not_isChild_of_item (h : program.IsTree) (ha : a ∈ program.items) :
    ¬ program.arena.IsChild p a := by
  rintro ⟨m, hm, ham⟩
  rw [Arena.node?_eq_toList] at hm
  have hmem : a ∈ program.arena.nodes.toList.flatMap fun node => node.kind.children :=
    List.mem_flatMap.mpr ⟨m, List.mem_of_getElem? hm, ham⟩
  exact (List.nodup_append.mp h.once).2.2 a ha a hmem rfl

/-- An item lies below no other node. -/
theorem eq_of_below_item (h : program.IsTree) (ha : a ∈ program.items)
    (hx : program.arena.Below x a) : x = a := by
  obtain rfl | ⟨q, -, hqa⟩ := ReflTransGen.cases_tail hx
  · rfl
  · exact absurd hqa (h.not_isChild_of_item ha)

/-- The nodes below two items are apart. -/
theorem not_below_of_item (h : program.IsTree) (ha : a ∈ program.items)
    (hb : b ∈ program.items) (hne : a ≠ b) (hx : program.arena.Below a x) :
    ¬ program.arena.Below b x := fun hbx => by
  obtain hab | hba := h.isForest.below_total hx hbx
  · exact hne (h.eq_of_below_item hb hab)
  · exact hne (h.eq_of_below_item ha hba).symm

end Program.IsTree

end RuleTypes
