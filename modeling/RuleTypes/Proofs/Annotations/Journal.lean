import Mathlib.Data.List.Nodup
import RuleTypes.Proofs.Annotations.Rollback

/-!
# The journal lists the annotated nodes

Whatever operations have been done on annotations, the journal holds a node exactly if the node has
a type, and holds it once (`Journaled`). The operations differ in what they do to the journal:
writing an empty slot adds the node, giving a provisional node its type adds nothing, and going back
to a mark, however old, drops from the journal what it clears. So the journal is as long as there
are annotated nodes, and a node that was cleared can get a type again.
-/

namespace RuleTypes.Annotations

variable {a b : Annotations} {node : NodeId} {type : TypeId} {mark : Nat} {ops : List Op}

/-- The journal holds the nodes that have a type, each once. -/
structure Journaled (a : Annotations) : Prop where
  nodup : a.journal.Nodup
  mem_iff : ∀ node, node ∈ a.journal ↔ a.get? node ≠ none

namespace Journaled

theorem blank (n : Nat) : (blank n).Journaled :=
  ⟨List.nodup_nil, fun node => iff_of_false List.not_mem_nil (not_not.mpr (get?_blank n node))⟩

/-- A node is added to the journal when it gets its first type, and only then. -/
theorem set (h : a.Journaled) (hset : a.set node type = .ok b) : b.Journaled := by
  have hslot := get?_of_set hset
  obtain ⟨-, ⟨hnone, rfl⟩ | ⟨hauto, rfl⟩⟩ := set_eq_ok.mp hset
  · have hnew : node ∉ a.journal := fun hmem => (h.mem_iff node).mp hmem hnone
    refine ⟨List.nodup_cons.mpr ⟨hnew, h.nodup⟩, fun other => ?_⟩
    change other ∈ node :: a.journal ↔ _
    rw [hslot, List.mem_cons, h.mem_iff]
    by_cases heq : other = node <;> simp [heq]
  · refine ⟨h.nodup, fun other => ?_⟩
    change other ∈ a.journal ↔ _
    rw [hslot, h.mem_iff]
    by_cases heq : other = node <;> simp [heq, hauto]

theorem setProvisional (h : a.Journaled) (hset : a.setProvisional node = .ok b) : b.Journaled :=
  h.set (set_of_setProvisional hset)

/-- Going back clears what it drops from the journal, since the journal holds no node twice. -/
theorem rollback (h : a.Journaled) (hback : a.rollback mark = .ok b) : b.Journaled := by
  obtain ⟨-, rfl⟩ := rollback_eq_ok.mp hback
  have hdisjoint := List.disjoint_take_drop h.nodup (Nat.le_refl (a.mark - mark))
  refine ⟨h.nodup.sublist (List.drop_sublist ..), fun other => ?_⟩
  change other ∈ a.journal.drop _ ↔ (a.clear _).get? other ≠ none
  rw [get?_clear]
  by_cases htake : other ∈ a.journal.take (a.mark - mark)
  · rw [if_pos htake]
    exact iff_of_false (hdisjoint htake) (not_not.mpr rfl)
  · rw [if_neg htake, ← h.mem_iff]
    exact ⟨List.mem_of_mem_drop, fun hmem => mem_drop_of_notMem_take hmem htake⟩

theorem run {op : Op} (h : a.Journaled) (hop : op.run a = .ok b) : b.Journaled := by
  cases op with
  | set node type => exact h.set hop
  | setProvisional node => exact h.setProvisional hop
  | mark => exact Except.ok.inj hop ▸ h
  | rollback target => exact h.rollback hop

theorem foldlM (h : a.Journaled) (hops : ops.foldlM Op.run a = .ok b) : b.Journaled := by
  induction ops generalizing a with
  | nil => exact Except.ok.inj hops ▸ h
  | cons op ops ih =>
    rw [List.foldlM_cons] at hops
    obtain ⟨a', hop, hops⟩ := except_bind_eq_ok.mp hops
    exact ih (h.run hop) hops

end Journaled

/-! ## Counting -/

theorem mem_toList : (node, type) ∈ a.toList ↔ a.get? node = some type := by
  obtain ⟨i⟩ := node
  simp only [toList, List.mem_filterMap, Prod.exists, List.mem_zipIdx_iff_getElem?,
    Option.map_eq_some_iff, Prod.mk.injEq, NodeId.mk.injEq, Array.getElem?_toList]
  constructor
  · rintro ⟨slot, place, hslot, found, rfl, rfl, rfl⟩
    rw [get?, hslot]
    rfl
  · intro hget
    exact ⟨some type, i, Option.join_eq_some_iff.mp hget, type, rfl, rfl, rfl⟩

/-- No node is listed twice among the annotated ones. -/
theorem nodup_toList (a : Annotations) : (a.toList.map (·.1)).Nodup := by
  have hslots : a.slots.toList.zipIdx.Nodup := by
    refine List.Nodup.of_map Prod.snd ?_
    rw [List.zipIdx_map_snd]
    exact List.nodup_range'
  have hlist : a.toList.Nodup := by
    refine hslots.filterMap ?_
    rintro ⟨slot, i⟩ ⟨slot', i'⟩ ⟨node, type⟩ h h'
    simp only [Option.mem_def, Option.map_eq_some_iff, Prod.mk.injEq] at h h'
    obtain ⟨found, rfl, rfl, rfl⟩ := h
    obtain ⟨found', rfl, hi, rfl⟩ := h'
    rw [NodeId.mk.inj hi]
  refine hlist.map_on ?_
  rintro ⟨node, type⟩ h ⟨node', type'⟩ h' (rfl : node = node')
  rw [Option.some.inj ((mem_toList.mp h).symm.trans (mem_toList.mp h'))]

/-- There are as many annotated nodes as the journal holds. -/
theorem Journaled.count_eq (h : a.Journaled) : a.count = a.journal.length := by
  have hperm : (a.toList.map (·.1)).Perm a.journal := by
    refine (List.perm_ext_iff_of_nodup a.nodup_toList h.nodup).mpr fun node => ?_
    rw [h.mem_iff, Option.ne_none_iff_exists', List.mem_map]
    constructor
    · rintro ⟨⟨_, type⟩, hmem, rfl⟩
      exact ⟨type, mem_toList.mp hmem⟩
    · rintro ⟨type, htype⟩
      exact ⟨(node, type), mem_toList.mpr htype, rfl⟩
  rw [count, ← hperm.length_eq, List.length_map]

/-! ## Whatever was done -/

/-- The node can get any type, and can be marked as provisional. -/
def Annotatable (a : Annotations) (node : NodeId) : Prop :=
  (∀ type, ∃ b, a.set node type = .ok b ∧ b.get? node = some type) ∧
    ∃ b, a.setProvisional node = .ok b ∧ b.isProvisional node = true

theorem annotatable_of_get? (hlt : node.index < a.size) (hnone : a.get? node = none) :
    a.Annotatable node := by
  constructor
  · intro type
    have hset : a.set node type = .ok ((a.write node (some type)).log node) :=
      set_eq_ok.mpr ⟨hlt, .inl ⟨hnone, rfl⟩⟩
    exact ⟨_, hset, by rw [get?_of_set hset, if_pos rfl]⟩
  · have hset : a.setProvisional node = .ok ((a.write node (some .auto)).log node) :=
      setProvisional_eq_ok.mpr ⟨hlt, hnone, rfl⟩
    refine ⟨_, hset, decide_eq_true ?_⟩
    rw [get?_of_setProvisional hset, if_pos rfl]

/-- **The journal lists exactly the annotated nodes**, whatever operations were done on blank
annotations, rollbacks to old marks included. It holds no node twice, and it holds a node exactly if
the node has a type; so there are as many annotated nodes as it has entries. Any mark up to its
length can be gone back to, and a node that this clears can be annotated again. -/
theorem journal_exact {n : Nat} (h : ops.foldlM Op.run (blank n) = .ok a) :
    a.journal.Nodup ∧ (∀ node, node ∈ a.journal ↔ a.get? node ≠ none) ∧
    a.count = a.journal.length ∧
    ∀ mark, mark ≤ a.journal.length → ∃ b, a.rollback mark = .ok b ∧
      ∀ node, a.get? node ≠ none → b.get? node = none → b.Annotatable node := by
  have hjournaled := (Journaled.blank n).foldlM h
  refine ⟨hjournaled.nodup, hjournaled.mem_iff, hjournaled.count_eq, fun mark hmark => ?_⟩
  have hback := rollback_eq_ok.mpr ⟨hmark, rfl⟩
  refine ⟨_, hback, fun node hsome hnone => annotatable_of_get? ?_ hnone⟩
  -- the slot is still there: going back empties slots and removes none
  exact (size_clear a _).symm ▸ lt_size_of_get? hsome

/-- A provisional node gets its type, an older mark is gone back to, and then one that is stale: the
node it was taken after has been cleared. -/
def staleMarks : List Op :=
  [.set ⟨0⟩ ⟨5⟩, .mark, .setProvisional ⟨1⟩, .mark, .set ⟨2⟩ ⟨6⟩, .set ⟨1⟩ ⟨7⟩, .rollback 1,
    .set ⟨2⟩ ⟨8⟩, .set ⟨3⟩ ⟨8⟩, .rollback 2, .setProvisional ⟨1⟩]

theorem journal_exact_staleMarks :
    ∃ a b, staleMarks.foldlM Op.run (blank 4) = .ok a ∧ a.journal = [⟨1⟩, ⟨2⟩, ⟨0⟩] ∧
      a.journal.Nodup ∧ a.count = 3 ∧ a.rollback 1 = .ok b ∧ b.get? ⟨2⟩ = none ∧
      b.Annotatable ⟨2⟩ := by
  obtain ⟨a, ha⟩ : ∃ a, a = Annotations.mk #[some ⟨5⟩, some .auto, some ⟨8⟩, none]
      [⟨1⟩, ⟨2⟩, ⟨0⟩] := ⟨_, rfl⟩
  have hops : staleMarks.foldlM Op.run (blank 4) = .ok a := ha ▸ by decide
  have hjournal : a.journal = [⟨1⟩, ⟨2⟩, ⟨0⟩] := ha ▸ rfl
  obtain ⟨hnodup, -, hcount, hback⟩ := journal_exact hops
  obtain ⟨b, hb, hagain⟩ := hback 1 (by rw [hjournal]; decide)
  have hnone : b.get? ⟨2⟩ = none := by
    obtain ⟨-, rfl⟩ := rollback_eq_ok.mp hb
    subst ha
    decide
  exact ⟨a, b, hops, hjournal, hnodup, hcount.trans (by rw [hjournal]; rfl), hb, hnone,
    hagain ⟨2⟩ (by subst ha; decide) hnone⟩

end RuleTypes.Annotations
