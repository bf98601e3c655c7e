import Mathlib.Order.Basic
import RuleTypes.Annotations

/-!
# What happens to annotations

Between two points of a check, annotations only grow (`Grows`): a final type stays, a provisional
one may become final, and every node that got its first type is in the journal. So going back to a
mark restores every slot that was not provisional there (`Grows.rollback`).
-/

namespace RuleTypes.Annotations

variable {a a' a'' : Annotations} {node other : NodeId} {type : TypeId}

/-! ## Slots -/

theorem get?_write (a : Annotations) (node other : NodeId) (type : Option TypeId) :
    (a.write node type).get? other =
      if other = node ∧ node.index < a.size then type else a.get? other := by
  unfold write get? size
  rw [Array.getElem?_setIfInBounds]
  by_cases h : node.index = other.index
  · obtain rfl : node = other := by cases node; cases other; simp_all
    by_cases hlt : node.index < a.slots.size
    · simp [hlt]
    · simp [hlt]
  · have hne : other ≠ node := fun he => h (he ▸ rfl)
    simp [h, hne]

theorem get?_log (a : Annotations) (node other : NodeId) :
    (a.log node).get? other = a.get? other := rfl

theorem size_write (a : Annotations) (node : NodeId) (type : Option TypeId) :
    (a.write node type).size = a.size := Array.size_setIfInBounds ..

theorem get?_blank (n : Nat) (node : NodeId) : (blank n).get? node = none := by
  unfold blank get?
  rw [Array.getElem?_replicate]
  split <;> rfl

theorem lt_size_of_get? (h : a.get? node ≠ none) : node.index < a.size := by
  by_contra hge
  rw [get?, Array.getElem?_eq_none (Nat.le_of_not_lt hge)] at h
  exact h rfl

/-- A node gets its type when it has none, or a provisional one. -/
theorem set_eq_ok : a.set node type = .ok a' ↔ node.index < a.size ∧
    (a.get? node = none ∧ a' = (a.write node (some type)).log node ∨
      a.get? node = some .auto ∧ a' = a.write node (some type)) := by
  unfold set get? size
  rcases hslot : a.slots[node.index]? with _ | _ | old
  · have := Array.getElem?_eq_none_iff.mp hslot
    simp only [reduceCtorEq, false_iff, not_and_or]
    exact .inl (Nat.not_lt.mpr this)
  · have hlt := (Array.getElem?_eq_some_iff.mp hslot).1
    simp [hlt, eq_comm]
  · have hlt := (Array.getElem?_eq_some_iff.mp hslot).1
    by_cases hauto : old = .auto <;> simp [hlt, hauto, eq_comm]

theorem setProvisional_eq_ok : a.setProvisional node = .ok a' ↔
    node.index < a.size ∧ a.get? node = none ∧ a' = (a.write node (some .auto)).log node := by
  unfold setProvisional get? size
  rcases hslot : a.slots[node.index]? with _ | _ | old
  · have := Array.getElem?_eq_none_iff.mp hslot
    simp only [reduceCtorEq, false_iff, not_and_or]
    exact .inl (Nat.not_lt.mpr this)
  · have hlt := (Array.getElem?_eq_some_iff.mp hslot).1
    simp [hlt, eq_comm]
  · simp

/-- To mark a node as provisional is to give it `auto` as its first type. -/
theorem set_of_setProvisional (h : a.setProvisional node = .ok a') :
    a.set node .auto = .ok a' := by
  obtain ⟨hlt, hnone, rfl⟩ := setProvisional_eq_ok.mp h
  exact set_eq_ok.mpr ⟨hlt, .inl ⟨hnone, rfl⟩⟩

theorem get?_of_set (h : a.set node type = .ok a') (other : NodeId) :
    a'.get? other = if other = node then some type else a.get? other := by
  obtain ⟨hlt, ⟨-, rfl⟩ | ⟨-, rfl⟩⟩ := set_eq_ok.mp h <;> simp [get?_log, get?_write, hlt]

theorem get?_of_setProvisional (h : a.setProvisional node = .ok a') (other : NodeId) :
    a'.get? other = if other = node then some .auto else a.get? other :=
  get?_of_set (set_of_setProvisional h) other

/-! ## Growing -/

/-- The later annotations come from the earlier ones by giving types to nodes in `N`. -/
structure Grows (N : NodeId → Prop) (a a' : Annotations) : Prop where
  size_eq : a'.size = a.size
  outside : ∀ node, ¬ N node → a'.get? node = a.get? node
  final : ∀ node type, a.get? node = some type → type ≠ .auto → a'.get? node = some type
  provisional : ∀ node, a.get? node = some .auto → a'.get? node ≠ none
  journal : ∃ newer, a'.journal = newer ++ a.journal ∧
    (∀ node ∈ newer, N node ∧ a.get? node = none) ∧
    ∀ node, a.get? node = none → a'.get? node ≠ none → node ∈ newer

namespace Grows

variable {N : NodeId → Prop}

theorem refl (N : NodeId → Prop) (a : Annotations) : Grows N a a where
  size_eq := rfl
  outside _ _ := rfl
  final _ _ h _ := h
  provisional _ h := by simp [h]
  journal := ⟨[], rfl, by simp, fun _ h h' => absurd h h'⟩

/-- A slot that is filled stays filled. -/
theorem ne_none (h : Grows N a a') (hnode : a.get? node ≠ none) : a'.get? node ≠ none := by
  obtain ⟨type, htype⟩ := Option.ne_none_iff_exists'.mp hnode
  by_cases hauto : type = .auto
  · exact h.provisional node (hauto ▸ htype)
  · simp [h.final node type htype hauto]

theorem trans (h : Grows N a a') (h' : Grows N a' a'') : Grows N a a'' where
  size_eq := h'.size_eq.trans h.size_eq
  outside node hN := (h'.outside node hN).trans (h.outside node hN)
  final node type htype hauto := h'.final node type (h.final node type htype hauto) hauto
  provisional node hnode := h'.ne_none (h.provisional node hnode)
  journal := by
    obtain ⟨newer, hj, hnew, hlogged⟩ := h.journal
    obtain ⟨newer', hj', hnew', hlogged'⟩ := h'.journal
    refine ⟨newer' ++ newer, by rw [hj', hj, List.append_assoc], ?_, ?_⟩
    · intro node hnode
      obtain hnode | hnode := List.mem_append.mp hnode
      · obtain ⟨hN, hnone⟩ := hnew' node hnode
        exact ⟨hN, not_not.mp fun hne => h.ne_none hne hnone⟩
      · exact hnew node hnode
    · intro node hnone hsome
      by_cases hmid : a'.get? node = none
      · exact List.mem_append_left _ (hlogged' node hmid hsome)
      · exact List.mem_append_right _ (hlogged node hnone hmid)

theorem mono {N' : NodeId → Prop} (hN : ∀ node, N node → N' node) (h : Grows N a a') :
    Grows N' a a' where
  size_eq := h.size_eq
  outside node hnode := h.outside node fun hn => hnode (hN node hn)
  final := h.final
  provisional := h.provisional
  journal := by
    obtain ⟨newer, hj, hnew, hlogged⟩ := h.journal
    exact ⟨newer, hj, fun node hn => ⟨hN node (hnew node hn).1, (hnew node hn).2⟩, hlogged⟩

theorem of_set (hN : N node) (h : a.set node type = .ok a') : Grows N a a' where
  size_eq := by
    obtain ⟨-, ⟨-, rfl⟩ | ⟨-, rfl⟩⟩ := set_eq_ok.mp h <;> exact size_write ..
  outside other hother := by
    rw [get?_of_set h, if_neg fun he : other = node => hother (he ▸ hN)]
  final other type' htype hauto := by
    rw [get?_of_set h]
    split
    · rename_i he
      subst he
      obtain ⟨-, ⟨hnone, -⟩ | ⟨hslot, -⟩⟩ := set_eq_ok.mp h
      · simp [hnone] at htype
      · exact absurd (Option.some.inj (htype.symm.trans hslot)) hauto
    · exact htype
  provisional other hother := by
    rw [get?_of_set h]
    split <;> simp [hother]
  journal := by
    obtain ⟨-, ⟨hnone, rfl⟩ | ⟨hslot, rfl⟩⟩ := set_eq_ok.mp h
    · refine ⟨[node], rfl, by simp [hN, hnone], fun other ho ho' => ?_⟩
      rw [get?_of_set h] at ho'
      by_cases he : other = node
      · exact List.mem_singleton.mpr he
      · exact absurd ho (by simpa [he] using ho')
    · refine ⟨[], rfl, by simp, fun other ho ho' => ?_⟩
      rw [get?_of_set h] at ho'
      by_cases he : other = node
      · simp [he, hslot] at ho
      · exact absurd ho (by simpa [he] using ho')

theorem of_setProvisional (hN : N node) (h : a.setProvisional node = .ok a') : Grows N a a' :=
  of_set hN (set_of_setProvisional h)

end Grows

/-! ## Going back -/

theorem get?_clear (a : Annotations) (nodes : List NodeId) (other : NodeId) :
    (a.clear nodes).get? other = if other ∈ nodes then none else a.get? other := by
  induction nodes generalizing a with
  | nil => simp [clear]
  | cons node nodes ih =>
    change ((a.write node none).clear nodes).get? other = _
    rw [ih, get?_write]
    by_cases hmem : other ∈ nodes
    · simp [hmem]
    · by_cases hne : other = node
      · subst hne
        by_cases hlt : other.index < a.size
        · simp [hlt]
        · have hnone : a.get? other = none := not_not.mp (mt lt_size_of_get? hlt)
          simp [hlt, hnone]
      · simp [hmem, hne]

theorem size_clear (a : Annotations) (nodes : List NodeId) : (a.clear nodes).size = a.size := by
  induction nodes generalizing a with
  | nil => rfl
  | cons node nodes ih => exact (ih _).trans (size_write ..)

theorem rollback_mark (a : Annotations) : a.rollback a.mark = .ok a := by
  unfold rollback mark
  simp [clear]

/-- Going back only takes types away. -/
theorem get?_of_rollback {mark : Nat} (h : a.rollback mark = .ok a')
    (htype : a'.get? node = some type) : a.get? node = some type := by
  unfold rollback at h
  split at h
  · cases h
  · obtain rfl := Except.ok.inj h
    change (a.clear _).get? node = some type at htype
    rw [get?_clear] at htype
    split at htype
    · cases htype
    · exact htype

/-- **Going back undoes what was added.** Only slots that were provisional at the mark can hold
something else afterwards. -/
theorem Grows.rollback {N : NodeId → Prop} (h : Grows N a a') :
    ∃ a'', a'.rollback a.mark = .ok a'' ∧ a''.journal = a.journal ∧ a''.size = a.size ∧
      (∀ node, a.get? node ≠ some .auto → a''.get? node = a.get? node) ∧
      (∀ node, ¬ N node → a''.get? node = a.get? node) ∧
      ∀ node, a.get? node = some .auto → a''.get? node = a'.get? node := by
  obtain ⟨newer, hj, hnew, hlogged⟩ := h.journal
  have hlen : a'.journal.length - a.mark = newer.length := by
    rw [hj, List.length_append, mark]
    omega
  have htake : a'.journal.take newer.length = newer := by rw [hj, List.take_left]
  have hdrop : a'.journal.drop newer.length = a.journal := by rw [hj, List.drop_left]
  have hge : ¬ a'.journal.length < a.mark := by
    rw [hj, List.length_append, mark]
    omega
  refine ⟨{ a'.clear newer with journal := a.journal }, ?_, rfl, ?_, ?_, ?_, ?_⟩
  · unfold Annotations.rollback
    rw [if_neg hge]
    simp only [hlen, htake, hdrop]
  · exact (size_clear a' newer).trans h.size_eq
  · intro node hauto
    change (a'.clear newer).get? node = _
    rw [get?_clear]
    split
    · rename_i hmem
      exact (hnew node hmem).2.symm
    · rename_i hmem
      cases hnode : a.get? node with
      | none => exact not_not.mp fun hne => hmem (hlogged node hnode hne)
      | some type => exact h.final node type hnode fun he => hauto (he ▸ hnode)
  · intro node hN
    change (a'.clear newer).get? node = _
    rw [get?_clear, if_neg fun hmem => hN (hnew node hmem).1]
    exact h.outside node hN
  · intro node hauto
    change (a'.clear newer).get? node = _
    rw [get?_clear, if_neg fun hmem => by simp [(hnew node hmem).2] at hauto]

end RuleTypes.Annotations
