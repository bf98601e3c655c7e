import RuleTypes.Proofs.TypeTable.Outline

/-!
# Issued types are permanent

An operation on a table that is refused changes nothing (`Atomic`). One that answers leaves the
types alone that were there before, except that filling gives a pending struct its fields; it does
so once. A relation between tables says which types are left alone (`Spares`): all of them, if no
struct is filled, and in any run those that are sealed. Text and fingerprint of a type do not depend
on fields of declared structs, so they are the same in any run.
-/

namespace RuleTypes.TypeTable

variable {ε α : Type} {t t' : TypeTable} {id : TypeId} {form : Form} {K : TypeId → Prop}

/-! ## Refused operations -/

/-- If the operation is refused, nothing has changed. -/
def Atomic (x : TableM ε α) : Prop := ∀ t cause t', x t = .error cause t' → t' = t

theorem Atomic.bind {β : Type} {x : TableM ε α} {f : α → TableM ε β} (hx : Moves Eq x)
    (hf : ∀ a, Atomic (f a)) : Atomic (x >>= f) := by
  intro t cause t' h
  obtain h | ⟨a, t₁, hok, h⟩ := bind_eq_error.mp h
  · exact (hx.error h).symm
  · obtain rfl : t = t₁ := hx.ok hok
    exact hf a t cause t' h

theorem intern_atomic (form : Form) : Atomic (intern form : TableM ε TypeId) := by
  intro t cause t' h
  obtain ⟨id, t₁, hok⟩ := intern_ok (ε := ε) form t
  cases hok.symm.trans h

theorem internIssued_atomic (form : Form) :
    Atomic (requireIssued form.components >>= fun _ => intern form : TableM ε TypeId) :=
  .bind (requireIssued_moves _) fun _ => intern_atomic form

theorem internGeneric_atomic (name : String) (args : List TypeId) :
    Atomic (internGeneric name args) := by
  intro t cause t' h
  rw [internGeneric_eq] at h
  split at h
  · cases h
    rfl
  · split at h
    · cases h
      rfl
    · exact internIssued_atomic (.generic name args) t cause t' h

theorem internSlice_atomic (element : TypeId) : Atomic (internSlice element : TableM ε TypeId) := by
  intro t cause t' h
  unfold internSlice at h
  split at h
  · cases h
  all_goals
    rename_i hgeneric
    cases h
    exact internGeneric_atomic Form.sliceName [element] t _ _ hgeneric

theorem internRecord_atomic (fields : List (String × TypeId)) : Atomic (internRecord fields) :=
  .bind (requireFieldNames_moves _ _) fun _ => internIssued_atomic (.record fields)

/-! ## Types that are left alone -/

/-- The types in `K` that the first table issued are the same in the second, and pending in both or
in neither. -/
structure Spares (K : TypeId → Prop) (t t' : TypeTable) : Prop where
  size : t.size ≤ t'.size
  form? : ∀ id, K id → id.index < t.size → t'.form? id = t.form? id
  pending : ∀ id, K id → id.index < t.size → (id ∈ t'.pending ↔ id ∈ t.pending)

theorem spares_push (K : TypeId → Prop) (t : TypeTable) (form : Form) :
    t.Spares K (t.push form) where
  size := by rw [size_push]; omega
  form? id _ hid := by rw [form?_push, if_neg (Nat.ne_of_lt hid)]
  pending _ _ _ := Iff.rfl

instance : Composable (Spares K) where
  refl _ := ⟨Nat.le_refl _, fun _ _ _ => rfl, fun _ _ _ => Iff.rfl⟩
  trans _ _ _ h h' :=
    { size := Nat.le_trans h.size h'.size
      form? := fun id hK hid =>
        (h'.form? id hK (Nat.lt_of_lt_of_le hid h.size)).trans (h.form? id hK hid)
      pending := fun id hK hid =>
        (h'.pending id hK (Nat.lt_of_lt_of_le hid h.size)).trans (h.pending id hK hid) }
  push _ _ _ := spares_push K _ _

theorem spares_withReserved (K : TypeId → Prop) (t : TypeTable) (name : String) :
    t.Spares K (t.withReserved name) where
  size := (spares_push K t _).size
  form? := (spares_push K t _).form?
  pending id _ hid := by
    have hne : id ≠ ⟨t.size⟩ := by
      rintro rfl
      exact Nat.lt_irrefl _ hid
    change id ∈ ⟨t.size⟩ :: t.pending ↔ _
    rw [List.mem_cons, or_iff_right hne]

/-- Filling a struct changes no other type. -/
theorem spares_withFilled {name : String} {old : List (String × TypeId)}
    (hform : t.form? id = some (.declared name old)) (hK : ¬ K id)
    (fields : List (String × TypeId)) : t.Spares K (t.withFilled id fields) where
  size := Nat.le_of_eq (size_withFilled t id fields).symm
  form? other hother _ := by
    rw [form?_withFilled hform, if_neg]
    rintro rfl
    exact hK hother
  pending other hother _ := by
    have hne : other ≠ id := by
      rintro rfl
      exact hK hother
    change other ∈ t.pending.filter (· ≠ id) ↔ _
    simp [hne]

theorem fill_spares (hK : id ∈ t.pending → ¬ K id) (fields : List (String × TypeId)) :
    t.Spares K (endState (fill id fields t)) := by
  cases hfill : fill id fields t with
  | error cause t' =>
    obtain rfl := fill_eq_error hfill
    exact refl_of (Spares K) _
  | ok u t' =>
    obtain ⟨name, old, hform, hpending, -, -, rfl⟩ := fill_eq_ok hfill
    exact spares_withFilled hform (hK hpending) fields

theorem Extends.spares (h : t.Extends t') : t.Spares K t' := by
  induction h with
  | refl => exact refl_of (Spares K) t
  | tail _ hadd ih =>
    obtain ⟨form, -, -, -, rfl⟩ := hadd
    exact trans_of (Spares K) ih (spares_push K _ form)

theorem Spares.isSealed_eq (h : t.Spares K t') (hK : K id) (hid : id.index < t.size) :
    t'.isSealed id = t.isSealed id := by
  have hpending := h.pending id hK hid
  cases hsealed : t.isSealed id with
  | false => exact isSealed_eq_false_iff.mpr (hpending.mpr (isSealed_eq_false_iff.mp hsealed))
  | true =>
    rw [← Bool.not_eq_false, isSealed_eq_false_iff] at hsealed ⊢
    exact mt hpending.mp hsealed

/-- Every type of the first table has its form in the second, and is sealed in both or neither. -/
def Untouched (t t' : TypeTable) : Prop :=
  ∀ id, t.isIssued id = true → t'.form? id = t.form? id ∧ t'.isSealed id = t.isSealed id

theorem Spares.untouched (h : t.Spares (·.index < t.size) t') : t.Untouched t' := by
  intro id hid
  have hlt := isIssued_iff.mp hid
  exact ⟨h.form? id hlt hlt, h.isSealed_eq hlt hlt⟩

/-! ## Operations with their answers -/

/-- The operation with its answer: the id of the type that was asked for. -/
def Op.run : Op → TableM TableError (Option TypeId)
  | primitive name => some <$> internPrimitive name
  | pointer base => some <$> internPointer base
  | function params result => some <$> internFunction params result
  | generic name args => some <$> internGeneric name args
  | slice element => some <$> internSlice element
  | record fields => some <$> internRecord fields
  | reserve name => some <$> TypeTable.reserve name
  | fill id fields => (fun _ => none) <$> TypeTable.fill id fields
  | declareGeneric name arity => fun t => .ok none (t.declareGeneric name arity)

theorem Atomic.map {β : Type} {x : TableM ε α} (h : Atomic x) (f : α → β) : Atomic (f <$> x) := by
  intro t cause t' he
  change EStateM.map f x t = _ at he
  unfold EStateM.map at he
  cases hx : x t with
  | ok a t₁ => simp [hx] at he
  | error e t₁ =>
    simp only [hx, EStateM.Result.error.injEq] at he
    exact he.2 ▸ h t e t₁ hx

theorem Op.apply_eq (t : TypeTable) (op : Op) : op.apply t = endState (op.run t) := by
  cases op with
  | reserve | declareGeneric => rfl
  | _ => exact (endState_map _ _ _).symm

theorem Op.run_atomic (op : Op) : Atomic op.run := by
  cases op with
  | primitive name => exact (intern_atomic _).map _
  | pointer base => exact (internIssued_atomic (.pointer base)).map _
  | function params result => exact (internIssued_atomic (.function params result)).map _
  | generic name args => exact (internGeneric_atomic name args).map _
  | slice element => exact (internSlice_atomic element).map _
  | record fields => exact (internRecord_atomic fields).map _
  | reserve | declareGeneric =>
    intro t cause t' h
    cases h
  | fill id fields => exact Atomic.map (fun _ _ _ h => fill_eq_error h) _

/-- Only filling a pending struct touches a type that is there. -/
theorem Op.apply_spares {op : Op}
    (hop : ∀ id fields, op = .fill id fields → id ∈ t.pending → ¬ K id) :
    t.Spares K (op.apply t) := by
  cases op with
  | primitive name => exact intern_at fun _ => spares_push K t _
  | pointer base => exact internPointer_moves base t
  | function params result => exact internFunction_moves params result t
  | generic name args => exact internGeneric_moves name args t
  | slice element => exact internSlice_moves element t
  | record fields => exact internRecord_moves fields t
  | reserve name => exact spares_withReserved K t name
  | fill id fields => exact fill_spares (hop id fields rfl) fields
  | declareGeneric name arity => exact ⟨Nat.le_refl _, fun _ _ _ => rfl, fun _ _ _ => Iff.rfl⟩

/-- Sealed types are never touched again. -/
theorem spares_foldl_apply (ops : List Op)
    (hK : ∀ id, K id → id.index < t.size ∧ t.isSealed id = true) :
    t.Spares K (ops.foldl Op.apply t) := by
  induction ops generalizing t with
  | nil => exact refl_of (Spares K) t
  | cons op ops ih =>
    have hfirst : t.Spares K (op.apply t) := Op.apply_spares fun id _ _ hpending hid => by
      rw [← isSealed_eq_false_iff, (hK id hid).2] at hpending
      cases hpending
    refine trans_of (Spares K) hfirst (ih fun id hid => ?_)
    obtain ⟨hissued, hsealed⟩ := hK id hid
    exact ⟨Nat.lt_of_lt_of_le hissued hfirst.size, (hfirst.isSealed_eq hid hissued).trans hsealed⟩

/-- A declared struct that is sealed is not filled again. -/
theorem fill_of_sealed {name : String} {old : List (String × TypeId)}
    (hform : t.form? id = some (.declared name old)) (hsealed : t.isSealed id = true)
    (fields : List (String × TypeId)) :
    fill id fields t = .error (.error (.alreadySealed name)) t := by
  unfold fill
  rw [bind_of_ok (ofExcept_eq_ok.mpr ⟨text_of_declared hform, rfl⟩),
    bind_of_ok (ofExcept_eq_ok.mpr ⟨form_eq_ok.mpr hform, rfl⟩), get_bind, if_pos hsealed]
  rfl

/-! ## What becomes of a type -/

/-- What one operation does to the types that were issued before. If it is refused, it does nothing.
If it answers, they keep their forms, unless it fills a struct: that was pending, and has its fields
from now on. -/
structure Op.Respects (op : Op) (t : TypeTable) : Prop where
  refused : ∀ cause t', op.run t = .error cause t' → t' = t
  kept : ∀ answer t', op.run t = .ok answer t' → ∀ id form, t.form? id = some form →
    (∀ fields, op ≠ .fill id fields) → t'.form? id = some form ∧ t'.isSealed id = t.isSealed id
  filled : ∀ id fields answer t', op = .fill id fields → op.run t = .ok answer t' →
    ∃ name, t.form? id = some (.declared name []) ∧ t.isSealed id = false ∧
      t'.form? id = some (.declared name fields) ∧ t'.isSealed id = true ∧
      FieldNames (fields.map (·.1))

/-- What a run of operations leaves of the types that were issued before: those that are sealed keep
their forms and are not filled again, and all of them keep their text and their fingerprint. -/
structure Lasts (t t' : TypeTable) : Prop where
  sealed : ∀ id form, t.form? id = some form → t.isSealed id = true →
    t'.form? id = some form ∧ t'.isSealed id = true
  refilled : ∀ id name fields, t.form? id = some (.declared name fields) → t.isSealed id = true →
    ∀ new, fill id new t' = .error (.error (.alreadySealed name)) t'
  text : ∀ id, t.isIssued id = true → t'.text id = t.text id
  fingerprint : ∀ id, t.isIssued id = true → t'.fingerprint id = t.fingerprint id

theorem Canonical.op_respects (h : t.Canonical) (op : Op) : op.Respects t where
  refused := op.run_atomic t
  kept answer t' hok id form hform hop := by
    have hspares : t.Spares (· = id) (op.apply t) := Op.apply_spares fun other fields heq _ hid =>
      hop fields (hid ▸ heq)
    rw [Op.apply_eq, hok] at hspares
    have hid := form?_eq_some_lt hform
    exact ⟨(hspares.form? id rfl hid).trans hform, hspares.isSealed_eq rfl hid⟩
  filled id fields answer t' hop hok := by
    subst hop
    obtain ⟨u, hfill⟩ := map_eq_ok hok
    obtain ⟨name, old, hform, hpending, -, hnames, rfl⟩ := fill_eq_ok hfill
    obtain ⟨name', hform'⟩ := h.pending id hpending
    cases hform.symm.trans hform'
    refine ⟨name, hform, isSealed_eq_false_iff.mpr hpending,
      (form?_withFilled hform id).trans (if_pos rfl), ?_, hnames⟩
    rw [← Bool.not_eq_false, isSealed_eq_false_iff]
    simp [withFilled]

theorem Canonical.lasts_foldl_apply (h : t.Canonical) (ops : List Op) :
    t.Lasts (ops.foldl Op.apply t) := by
  have hsealed : ∀ id form, t.form? id = some form → t.isSealed id = true →
      (ops.foldl Op.apply t).form? id = some form ∧
        (ops.foldl Op.apply t).isSealed id = true := by
    intro id form hform hsealed
    have hid := form?_eq_some_lt hform
    have hspares : t.Spares (· = id) (ops.foldl Op.apply t) := spares_foldl_apply ops <| by
      rintro _ rfl
      exact ⟨hid, hsealed⟩
    exact ⟨(hspares.form? id rfl hid).trans hform, (hspares.isSealed_eq rfl hid).trans hsealed⟩
  refine ⟨hsealed, fun id name fields hform hid new => ?_, fun id hid => ?_, fun id hid => ?_⟩
  · obtain ⟨hform', hsealed'⟩ := hsealed id _ hform hid
    exact fill_of_sealed hform' hsealed' new
  · obtain ⟨o, ho⟩ := h.exists_outline (isIssued_iff.mp hid)
    rw [h.text_of_outline ho, (h.foldl ops).text_of_outline ((keeps_foldl_apply t ops).outline ho)]
  · obtain ⟨o, ho⟩ := h.exists_outline (isIssued_iff.mp hid)
    rw [fingerprint_of_outline ho, fingerprint_of_outline ((keeps_foldl_apply t ops).outline ho)]

end RuleTypes.TypeTable
