import RuleTypes.Proofs.Annotations
import RuleTypes.Proofs.Steps

/-!
# Going back to a mark

Annotations are worked by four operations: two that write, one that takes a mark and one that goes
back to a mark. As long as none of them goes back behind a mark, the annotations have only grown
since the mark (`Grows.foldlM`): what a rollback to a later mark clears was not there yet. So going
back to the mark restores the journal, and it restores every slot but those that were provisional
at the mark and have got their type since (`rollback_restores_iff`). That they got it is not in the
journal.
-/

namespace RuleTypes.Annotations

/-- The operations on annotations. -/
inductive Op
  | set (node : NodeId) (type : TypeId)
  | setProvisional (node : NodeId)
  | mark
  | rollback (target : Nat)
  deriving DecidableEq, Repr

/-- The annotations after an operation that meets no fault. -/
def Op.run (a : Annotations) : Op → Except Fault Annotations
  | .set node type => a.set node type
  | .setProvisional node => a.setProvisional node
  | .mark => .ok a
  | .rollback target => a.rollback target

variable {a b c : Annotations} {node : NodeId} {type : TypeId} {mark : Nat} {ops : List Op}

/-! ## Growing since a mark -/

theorem rollback_eq_ok : a.rollback mark = .ok b ↔ mark ≤ a.mark ∧
    b = { a.clear (a.journal.take (a.mark - mark)) with
      journal := a.journal.drop (a.mark - mark) } := by
  unfold rollback Annotations.mark
  split
  · rename_i hlt
    exact iff_of_false (by simp) fun h => absurd h.1 (Nat.not_le.mpr hlt)
  · rename_i hle
    simp [Nat.not_lt.mp hle, eq_comm]

theorem mem_drop_of_notMem_take {nodes : List NodeId} {k : Nat} (hmem : node ∈ nodes)
    (htake : node ∉ nodes.take k) : node ∈ nodes.drop k := by
  rw [← List.take_append_drop k nodes] at hmem
  exact (List.mem_append.mp hmem).resolve_left htake

/-- Going back to a mark keeps what an earlier mark has seen. -/
theorem Grows.rollback_later {N : NodeId → Prop} (h : Grows N a b) (hmark : a.mark ≤ mark)
    (hback : b.rollback mark = .ok c) : Grows N a c := by
  obtain ⟨newer, hj, hnew, hlogged⟩ := h.journal
  obtain ⟨-, rfl⟩ := rollback_eq_ok.mp hback
  have hle : b.mark - mark ≤ newer.length := by
    unfold Annotations.mark at hmark ⊢
    rw [hj, List.length_append]
    omega
  -- only nodes without a type at the first mark are cleared
  have htake : b.journal.take (b.mark - mark) = newer.take (b.mark - mark) := by
    rw [hj, List.take_append_of_le_length hle]
  have hcleared : ∀ node, ¬ (N node ∧ a.get? node = none) →
      (b.clear (b.journal.take (b.mark - mark))).get? node = b.get? node := by
    intro node hnode
    rw [get?_clear, htake, if_neg fun hmem => hnode (hnew node (List.mem_of_mem_take hmem))]
  refine ⟨(size_clear ..).trans h.size_eq, fun node hN => ?_, fun node type htype hauto => ?_,
    fun node hauto => ?_, newer.drop (b.mark - mark), ?_, fun node hnode => ?_, ?_⟩
  · exact (hcleared node fun hnode => hN hnode.1).trans (h.outside node hN)
  · exact (hcleared node (by simp [htype])).trans (h.final node type htype hauto)
  · exact fun hnone => h.provisional node hauto ((hcleared node (by simp [hauto])).symm.trans hnone)
  · change b.journal.drop _ = _
    rw [hj, List.drop_append_of_le_length hle]
  · exact hnew node (List.mem_of_mem_drop hnode)
  · intro node hnone hsome
    change (b.clear (b.journal.take (b.mark - mark))).get? node ≠ none at hsome
    rw [get?_clear, htake] at hsome
    split at hsome
    · exact absurd rfl hsome
    · rename_i hkept
      exact mem_drop_of_notMem_take (hlogged node hnone hsome) hkept

/-- **Annotations only grow since a mark**, as long as no operation goes back behind it. -/
theorem Grows.run {op : Op} (h : Grows (fun _ => True) a b) (hop : op.run b = .ok c)
    (hback : ∀ target, op = .rollback target → a.mark ≤ target) : Grows (fun _ => True) a c := by
  cases op with
  | set node type => exact h.trans (.of_set trivial hop)
  | setProvisional node => exact h.trans (.of_setProvisional trivial hop)
  | mark => exact Except.ok.inj hop ▸ h
  | rollback target => exact h.rollback_later (hback target rfl) hop

theorem Grows.foldlM (h : Grows (fun _ => True) a b) (hops : ops.foldlM Op.run b = .ok c)
    (hback : ∀ target, .rollback target ∈ ops → a.mark ≤ target) : Grows (fun _ => True) a c := by
  induction ops generalizing b with
  | nil => exact Except.ok.inj hops ▸ h
  | cons op ops ih =>
    rw [List.foldlM_cons] at hops
    obtain ⟨b', hop, hops⟩ := except_bind_eq_ok.mp hops
    exact ih (h.run hop fun target heq => hback target (heq ▸ List.mem_cons_self ..)) hops
      fun target htarget => hback target (List.mem_cons_of_mem _ htarget)

/-! ## Slots that were provisional -/

/-- Only giving it a type changes a slot that was provisional at the mark. -/
theorem Grows.get?_of_run {op : Op} {current : TypeId} (h : Grows (fun _ => True) a b)
    (hauto : a.get? node = some .auto) (hcurrent : b.get? node = some current)
    (hop : op.run b = .ok c) (hback : ∀ target, op = .rollback target → a.mark ≤ target) :
    (∀ type, op ≠ .set node type) ∧ c.get? node = some current ∨
      current = .auto ∧ ∃ type, op = .set node type ∧ c.get? node = some type := by
  cases op with
  | set other type =>
    by_cases hne : node = other
    · subst hne
      obtain ⟨-, ⟨hnone, -⟩ | ⟨hslot, -⟩⟩ := set_eq_ok.mp hop
      · cases hnone.symm.trans hcurrent
      · refine .inr ⟨Option.some.inj (hcurrent.symm.trans hslot), type, rfl, ?_⟩
        rw [get?_of_set hop, if_pos rfl]
    · refine .inl ⟨fun type' heq => hne (Op.set.inj heq).1.symm, ?_⟩
      rw [get?_of_set hop, if_neg hne, hcurrent]
  | setProvisional other =>
    refine .inl ⟨by simp, ?_⟩
    obtain ⟨-, hnone, -⟩ := setProvisional_eq_ok.mp hop
    have hne : node ≠ other := by
      rintro rfl
      cases hnone.symm.trans hcurrent
    rw [get?_of_setProvisional hop, if_neg hne, hcurrent]
  | mark =>
    cases hop
    exact .inl ⟨by simp, hcurrent⟩
  | rollback target =>
    refine .inl ⟨by simp, ?_⟩
    have hkept := (h.rollback_later (hback target rfl) hop).provisional node hauto
    obtain ⟨type, htype⟩ := Option.ne_none_iff_exists'.mp hkept
    rw [htype, ← get?_of_rollback hop htype, hcurrent]

/-- Its final type is the one that an operation gave it. -/
theorem Grows.get?_eq_some_iff {current : TypeId} (h : Grows (fun _ => True) a b)
    (hauto : a.get? node = some .auto) (hcurrent : b.get? node = some current)
    (hops : ops.foldlM Op.run b = .ok c)
    (hback : ∀ target, .rollback target ∈ ops → a.mark ≤ target) (hfinal : type ≠ .auto) :
    c.get? node = some type ↔ current = type ∨ .set node type ∈ ops := by
  induction ops generalizing b current with
  | nil =>
    cases hops
    simp [hcurrent]
  | cons op ops ih =>
    rw [List.foldlM_cons] at hops
    obtain ⟨b', hop, hops⟩ := except_bind_eq_ok.mp hops
    have hback' : ∀ target, op = .rollback target → a.mark ≤ target := fun target heq =>
      hback target (heq ▸ List.mem_cons_self ..)
    have ih' := fun {current : TypeId} (hb : b'.get? node = some current) =>
      ih (h.run hop hback') hb hops fun target htarget =>
        hback target (List.mem_cons_of_mem _ htarget)
    obtain ⟨hother, hb⟩ | ⟨rfl, type', rfl, hb⟩ := h.get?_of_run hauto hcurrent hop hback'
    · simp [ih' hb, (hother type).symm]
    · simp [ih' hb, hfinal.symm, eq_comm]

/-! ## Back at the mark -/

/-- **Going back to a mark restores what was there**, whatever operations followed the mark, unless
one of them went back behind it. The journal is the one from then, and a slot is again what it was,
except if it was provisional and has got a type since. Then it keeps that type. -/
theorem rollback_restores_iff (hops : ops.foldlM Op.run a = .ok b)
    (hback : ∀ target, .rollback target ∈ ops → a.mark ≤ target) :
    ∃ c, b.rollback a.mark = .ok c ∧ c.journal = a.journal ∧ c.size = a.size ∧
      ∀ node, (c.get? node = a.get? node ↔
          ¬ (a.isProvisional node = true ∧ ∃ type, type ≠ .auto ∧ .set node type ∈ ops)) ∧
        ∀ type, a.isProvisional node = true → type ≠ .auto → .set node type ∈ ops →
          c.get? node = some type := by
  have hgrows := (Grows.refl (fun _ => True) a).foldlM hops hback
  obtain ⟨c, hc, hjournal, hsize, hrestored, -, hkept⟩ := hgrows.rollback
  have hgiven : ∀ {node type}, a.get? node = some .auto → type ≠ .auto →
      (c.get? node = some type ↔ .set node type ∈ ops) := by
    intro node type hauto hfinal
    rw [hkept node hauto, (Grows.refl _ a).get?_eq_some_iff hauto hauto hops hback hfinal]
    simp [hfinal.symm]
  refine ⟨c, hc, hjournal, hsize, fun node => ⟨?_, fun type hauto hfinal =>
    (hgiven (of_decide_eq_true hauto) hfinal).mpr⟩⟩
  by_cases hauto : a.get? node = some .auto
  · obtain ⟨type, htype⟩ := Option.ne_none_iff_exists'.mp (hgrows.provisional node hauto)
    rw [← hkept node hauto] at htype
    by_cases hfinal : type = .auto
    · subst hfinal
      refine iff_of_true (htype.trans hauto.symm) ?_
      rintro ⟨-, type, hfinal, hset⟩
      exact hfinal (Option.some.inj (((hgiven hauto hfinal).mpr hset).symm.trans htype))
    · refine iff_of_false (fun heq => hfinal ?_) (not_not.mpr ⟨decide_eq_true hauto, type, hfinal,
        (hgiven hauto hfinal).mp htype⟩)
      exact Option.some.inj (htype.symm.trans (heq.trans hauto))
  · exact iff_of_true (hrestored node hauto) fun h => hauto (of_decide_eq_true h.1)

/-- After a mark a provisional node gets its type, and inner marks are gone back to. -/
def nestedMarks : List Op :=
  [.set ⟨2⟩ ⟨6⟩, .mark, .set ⟨1⟩ ⟨7⟩, .setProvisional ⟨3⟩, .rollback 3, .rollback 2, .set ⟨2⟩ ⟨8⟩]

/-- What was written after the mark is gone, except the type of the provisional node. -/
theorem rollback_restores_iff_nestedMarks :
    ∃ a b c, [Op.set ⟨0⟩ ⟨5⟩, .setProvisional ⟨1⟩].foldlM Op.run (blank 4) = .ok a ∧
      nestedMarks.foldlM Op.run a = .ok b ∧ b.rollback a.mark = .ok c ∧
      c.journal = [⟨1⟩, ⟨0⟩] ∧ c.get? ⟨0⟩ = some ⟨5⟩ ∧ c.get? ⟨2⟩ = none ∧
      c.get? ⟨1⟩ = some ⟨7⟩ := by
  have hmarks : ∀ target, .rollback target ∈ nestedMarks → 2 ≤ target := by simp [nestedMarks]
  have hops : nestedMarks.foldlM Op.run ⟨#[some ⟨5⟩, some .auto, none, none], [⟨1⟩, ⟨0⟩]⟩ =
      .ok ⟨#[some ⟨5⟩, some ⟨7⟩, some ⟨8⟩, none], [⟨2⟩, ⟨1⟩, ⟨0⟩]⟩ := by decide
  obtain ⟨c, hc, hjournal, -, hslots⟩ := rollback_restores_iff hops hmarks
  exact ⟨_, _, c, by decide, hops, hc, hjournal,
    (hslots ⟨0⟩).1.mpr fun h => absurd h.1 (by decide),
    (hslots ⟨2⟩).1.mpr fun h => absurd h.1 (by decide),
    (hslots ⟨1⟩).2 ⟨7⟩ (by decide) (by decide) (by decide)⟩

/-- A provisional node that gets its type after a mark keeps it when the mark is gone back to. -/
theorem finalized_after_mark :
    ∃ a b c, [Op.setProvisional ⟨0⟩].foldlM Op.run (blank 1) = .ok a ∧
      [Op.set ⟨0⟩ ⟨4⟩].foldlM Op.run a = .ok b ∧ b.rollback a.mark = .ok c ∧
      a.get? ⟨0⟩ = some .auto ∧ c.get? ⟨0⟩ = some ⟨4⟩ :=
  ⟨⟨#[some .auto], [⟨0⟩]⟩, ⟨#[some ⟨4⟩], [⟨0⟩]⟩, ⟨#[some ⟨4⟩], [⟨0⟩]⟩, by decide, by decide,
    by decide, by decide, by decide⟩

end RuleTypes.Annotations
