import RuleTypes.Proofs.TypeTable.Reachable

/-!
# Asking for a form twice

Whatever happens to a table, the forms in it stay where they are, declared structs apart, and its
index knows each of them by its kind. So asking again for a form finds the id that it has
(`Reachable.asked_again`). Only a generic can be refused: it stays declared, but it may have been
declared anew, with another number of arguments, since the form was added.
-/

namespace RuleTypes.TypeTable

variable {t t' : TypeTable} {id : TypeId} {form : Form}

/-! ## The index -/

theorem Canonical.find?_eq_some_iff (h : t.Canonical) (form : Form)
    (hstructural : form.isStructural = true) : t.find? form = some id ↔ t.form? id = some form :=
  ⟨form?_of_find?, fun hform => h.find? hform hstructural⟩

/-- Each map of the index holds the types of its kind and no others, each under what its form is
made of. -/
structure IndexedByForm (t : TypeTable) : Prop where
  primitives : ∀ name id,
    t.index.primitives.lookup name = some id ↔ t.form? id = some (.primitive name)
  pointers : ∀ base id,
    t.index.pointers.lookup base = some id ↔ t.form? id = some (.pointer base)
  functions : ∀ params result id, t.index.functions.lookup (params, result) = some id ↔
    t.form? id = some (.function params result)
  generics : ∀ name args id,
    t.index.generics.lookup (name, args) = some id ↔ t.form? id = some (.generic name args)
  records : ∀ fields id,
    t.index.records.lookup fields = some id ↔ t.form? id = some (.record fields)

theorem Canonical.indexedByForm (h : t.Canonical) : t.IndexedByForm where
  primitives _ _ := h.find?_eq_some_iff (.primitive _) rfl
  pointers _ _ := h.find?_eq_some_iff (.pointer _) rfl
  functions _ _ _ := h.find?_eq_some_iff (.function _ _) rfl
  generics _ _ _ := h.find?_eq_some_iff (.generic _ _) rfl
  records _ _ := h.find?_eq_some_iff (.record _) rfl

/-! ## Forms stay -/

theorem Canonical.foldl (h : t.Canonical) (ops : List Op) :
    (ops.foldl Op.apply t).Canonical := by
  induction ops generalizing t with
  | nil => exact h
  | cons op ops ih =>
    refine ih ?_
    obtain hgrows | ⟨name, arity, rfl⟩ := op.grows_or_declares t
    · exact h.grows hgrows
    · exact h.declareGeneric name arity

/-- No sequence of operations moves a form or takes it away, unless it is a declared struct. -/
theorem form?_foldl_apply (ops : List Op) (hform : t.form? id = some form)
    (hdeclared : form.isDeclared = false) : (ops.foldl Op.apply t).form? id = some form := by
  induction ops generalizing t with
  | nil => exact hform
  | cons op ops ih =>
    refine ih ?_
    obtain hgrows | ⟨name, arity, rfl⟩ := op.grows_or_declares t
    · exact hgrows.form? hform hdeclared
    · exact hform

theorem Step.declared (hstep : t.Step t') {name : String} {fields : List (String × TypeId)}
    (hform : t.form? id = some (.declared name fields)) :
    ∃ fields', t'.form? id = some (.declared name fields') := by
  cases hstep with
  | add => exact ⟨fields, form?_push_of_some hform⟩
  | reserve => exact ⟨fields, form?_push_of_some hform⟩
  | @fill filled other old new htarget =>
    rw [form?_withFilled htarget]
    split
    · rename_i heq
      cases (heq ▸ hform).symm.trans htarget
      exact ⟨new, rfl⟩
    · exact ⟨fields, hform⟩

theorem Grows.declared (hgrows : t.Grows t') {name : String} {fields : List (String × TypeId)}
    (hform : t.form? id = some (.declared name fields)) :
    ∃ fields', t'.form? id = some (.declared name fields') := by
  induction hgrows with
  | refl => exact ⟨fields, hform⟩
  | tail _ hstep ih =>
    obtain ⟨fields', hform'⟩ := ih
    exact hstep.declared hform'

/-- A declared struct keeps its name. -/
theorem declared_foldl_apply (ops : List Op) {name : String} {fields : List (String × TypeId)}
    (hform : t.form? id = some (.declared name fields)) :
    ∃ fields', (ops.foldl Op.apply t).form? id = some (.declared name fields') := by
  induction ops generalizing t fields with
  | nil => exact ⟨fields, hform⟩
  | cons op ops ih =>
    obtain hgrows | ⟨generic, arity, rfl⟩ := op.grows_or_declares t
    · obtain ⟨fields', hform'⟩ := hgrows.declared hform
      exact ih hform'
    · exact ih (show (t.declareGeneric generic arity).form? id = _ from hform)

/-! ## Asking again -/

/-- The operation asks the table for the form. -/
inductive Asks : Form → TableM TableError TypeId → Prop
  | primitive (name : String) : Asks (.primitive name) (internPrimitive name)
  | pointer (base : TypeId) : Asks (.pointer base) (internPointer base)
  | function (params : List TypeId) (result : TypeId) :
    Asks (.function params result) (internFunction params result)
  | generic (name : String) (args : List TypeId) :
    Asks (.generic name args) (internGeneric name args)
  | slice (element : TypeId) : Asks (.generic Form.sliceName [element]) (internSlice element)
  | record (fields : List (String × TypeId)) : Asks (.record fields) (internRecord fields)

theorem Asks.isStructural {ask : TableM TableError TypeId} (h : Asks form ask) :
    form.isStructural = true := by
  cases h <;> rfl

/-- If the form is a generic, then that is declared with as many arguments as it has in the form. -/
def ArityKept (t : TypeTable) (form : Form) : Prop :=
  ∀ name args, form = .generic name args → t.generics.get? name = some args.length

theorem arityKept_generic {name : String} {args : List TypeId} :
    t.ArityKept (.generic name args) ↔ t.generics.get? name = some args.length := by
  refine ⟨fun h => h name args rfl, fun h name' args' heq => ?_⟩
  cases heq
  exact h

/-- A generic that is in the table is refused only because another number of arguments is declared
for it now. -/
theorem Reachable.arity_of_not_kept {name : String} {args : List TypeId} (h : t.Reachable)
    (hform : t.form? id = some (.generic name args)) (harity : ¬ t.ArityKept (.generic name args)) :
    ∃ arity, t.generics.get? name = some arity ∧ arity ≠ args.length := by
  obtain ⟨arity, hget⟩ := h.generic_declared hform
  refine ⟨arity, hget, ?_⟩
  rintro rfl
  exact harity (arityKept_generic.mpr hget)

section Refused

variable {name : String} {arity : Nat}

theorem internGeneric_eq_invalidArity {args : List TypeId} (h : t.generics.get? name = some arity)
    (hne : arity ≠ args.length) :
    internGeneric name args t = .error (.error (.invalidArity name arity args.length)) t := by
  rw [internGeneric_eq, h]
  exact if_pos hne

theorem internGeneric_eq_error {args : List TypeId} (h : t.generics.get? name ≠ some args.length) :
    ∃ cause, internGeneric name args t = .error (.error cause) t := by
  cases hget : t.generics.get? name with
  | none => exact ⟨.unknownGeneric name, by rw [internGeneric_eq, hget]⟩
  | some arity => exact ⟨_, internGeneric_eq_invalidArity hget fun heq => h (heq ▸ hget)⟩

/-- A slice cannot be refused, so where its generic would be, that is a fault. -/
theorem internSlice_eq_fault {ε : Type} {element : TypeId}
    (h : t.generics.get? Form.sliceName = some arity) (hne : arity ≠ 1) :
    (internSlice element : TableM ε TypeId) t =
      .error (.fault (.sliceGeneric (.invalidArity Form.sliceName arity 1))) t := by
  have hgeneric : internGeneric Form.sliceName [element] t = _ :=
    internGeneric_eq_invalidArity h hne
  unfold internSlice
  rw [hgeneric]
  rfl

end Refused

/-- Asking a canonical table for a form that is in it. -/
theorem Canonical.ask (h : t.Canonical) (hform : t.form? id = some form)
    {ask : TableM TableError TypeId} (hask : Asks form ask) (harity : t.ArityKept form) :
    ask t = .ok id t := by
  cases hask with
  | primitive name => exact h.intern hform rfl
  | pointer base => exact h.internPointer hform
  | function params result => exact h.internFunction hform
  | generic name args => exact h.internGeneric hform (arityKept_generic.mp harity)
  | slice element => exact h.internSlice hform (arityKept_generic.mp harity)
  | record fields => exact h.internRecord hform

/-- **A form stands in one place and is found there.** In every reachable table two ids of the same
form are the same, unless they are declared structs; each map of the index holds exactly the types
of its kind; the sentinels have the first two places and no other; what a form mentions was issued;
and only declared structs without fields are pending. Hence, whatever is done to the table in
between, asking again for a form that is in it returns its id and changes nothing, as long as the
number of arguments of its generic was not declared anew. If it was, then the generic is still
declared, the instantiation is refused with the number that is expected and the number that was
found, a slice ends in a fault with that same cause, and nothing changes either. -/
theorem Reachable.asked_again (h : t.Reachable) :
    (∀ a b form, t.form? a = some form → t.form? b = some form → form.isDeclared = false → a = b) ∧
    t.IndexedByForm ∧
    (∀ id, t.form? id = some .auto ↔ id = .auto) ∧
    (∀ id, t.form? id = some .noValue ↔ id = .noValue) ∧
    (∀ id form, t.form? id = some form → ∀ part ∈ form.components, t.isIssued part = true) ∧
    (∀ id ∈ t.pending, ∃ name, t.form? id = some (.declared name [])) ∧
    ∀ (ops : List Op) (t' : TypeTable), ops.foldl Op.apply t = t' →
      (∀ id form ask, t.form? id = some form → Asks form ask → t'.ArityKept form →
        ask t' = .ok id t') ∧
      (∀ id name args, t.form? id = some (.generic name args) →
        ¬ t'.ArityKept (.generic name args) →
        ∃ arity, t'.generics.get? name = some arity ∧ arity ≠ args.length ∧
          internGeneric name args t' =
            .error (.error (.invalidArity name arity args.length)) t') ∧
      ∀ id element, t.form? id = some (.generic Form.sliceName [element]) →
        ¬ t'.ArityKept (.generic Form.sliceName [element]) →
        ∃ arity, t'.generics.get? Form.sliceName = some arity ∧ arity ≠ 1 ∧
          (internSlice element : TableM TableError TypeId) t' =
            .error (.fault (.sliceGeneric (.invalidArity Form.sliceName arity 1))) t' := by
  have hcanonical := h.canonical
  refine ⟨hcanonical.unique, hcanonical.indexedByForm, fun id => ⟨fun hid => ?_, ?_⟩,
    fun id => ⟨fun hid => ?_, ?_⟩, fun id form hform part hpart => ?_, hcanonical.pending, ?_⟩
  · exact hcanonical.unique _ _ _ hid hcanonical.auto rfl
  · rintro rfl
    exact hcanonical.auto
  · exact hcanonical.unique _ _ _ hid hcanonical.noValue rfl
  · rintro rfl
    exact hcanonical.noValue
  · exact isIssued_iff.mpr (hcanonical.issued id form hform part hpart)
  · rintro ops t' rfl
    have hreachable := h.foldl ops
    refine ⟨fun id form ask hform hask harity => ?_, fun id name args hform harity => ?_,
      fun id element hform harity => ?_⟩
    · have hdeclared := Form.isDeclared_eq_false hask.isStructural
      exact hreachable.canonical.ask (form?_foldl_apply ops hform hdeclared) hask harity
    · obtain ⟨arity, hget, hne⟩ :=
        hreachable.arity_of_not_kept (form?_foldl_apply ops hform rfl) harity
      exact ⟨arity, hget, hne, internGeneric_eq_invalidArity hget hne⟩
    · obtain ⟨arity, hget, hne⟩ :=
        hreachable.arity_of_not_kept (form?_foldl_apply ops hform rfl) harity
      exact ⟨arity, hget, hne, internSlice_eq_fault hget hne⟩

/-- Numbers and boxes of numbers. -/
def boxTable : TypeTable :=
  [.primitive "f64", .generic "Box" [⟨2⟩]].foldl Op.apply (new (Generics.standard.insert "Box" 1))

/-- The boxes are found again after a struct was filled, a record refused and a generic declared. -/
theorem asked_again_boxTable :
    boxTable.form? ⟨3⟩ = some (.generic "Box" [⟨2⟩]) ∧
      ∀ t, [.reserve "Node", .pointer ⟨4⟩, .fill ⟨4⟩ [("value", ⟨3⟩), ("next", ⟨5⟩)],
          .record [("x", ⟨3⟩), ("x", ⟨2⟩)], .declareGeneric "Pair" 2].foldl Op.apply boxTable = t →
        internGeneric "Box" [⟨2⟩] t = .ok ⟨3⟩ t := by
  refine ⟨by decide, fun t ht => ?_⟩
  refine ((Reachable.asked_again ((Reachable.new _).foldl _)).2.2.2.2.2.2 _ t ht).1 ⟨3⟩ _ _
    (by decide) (.generic "Box" [⟨2⟩]) (arityKept_generic.mpr ?_)
  subst ht
  decide

/-- Once a box takes two arguments, boxes of numbers are refused although the table has them. -/
theorem boxTable_declared_anew :
    boxTable.Reachable ∧ boxTable.form? ⟨3⟩ = some (.generic "Box" [⟨2⟩]) ∧
      internGeneric "Box" [⟨2⟩] ((Op.declareGeneric "Box" 2).apply boxTable) =
        .error (.error (.invalidArity "Box" 2 1)) ((Op.declareGeneric "Box" 2).apply boxTable) :=
  ⟨(Reachable.new _).foldl _, by decide, rfl⟩

end RuleTypes.TypeTable
