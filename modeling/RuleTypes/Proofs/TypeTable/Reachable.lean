import RuleTypes.Proofs.TypeTable.Growth

/-!
# Reachable tables

The tables that come about from an empty one by any operations, whether these answer or fail. They
are all canonical: a form that is not a declared struct stands in one place, after everything it
mentions. So asking again for a form that is there finds it and changes nothing. A generic may be
declared anew; the ones in the table have as many arguments as it was declared with at some time.
-/

namespace RuleTypes.TypeTable

variable {ε : Type} {t t' : TypeTable} {id : TypeId} {form : Form}

/-! ## Operations -/

/-- The operations on a table. -/
inductive Op
  | primitive (name : String)
  | pointer (base : TypeId)
  | function (params : List TypeId) (result : TypeId)
  | generic (name : String) (args : List TypeId)
  | slice (element : TypeId)
  | record (fields : List (String × TypeId))
  | reserve (name : String)
  | fill (id : TypeId) (fields : List (String × TypeId))
  | declareGeneric (name : String) (arity : Nat)
  deriving DecidableEq, Repr

/-- The table after an operation, whether it answered or failed. -/
def Op.apply (t : TypeTable) : Op → TypeTable
  | primitive name => endState ((internPrimitive name : TableM TableError TypeId) t)
  | pointer base => endState ((internPointer base : TableM TableError TypeId) t)
  | function params result => endState ((internFunction params result : TableM TableError TypeId) t)
  | generic name args => endState (internGeneric name args t)
  | slice element => endState ((internSlice element : TableM TableError TypeId) t)
  | record fields => endState (internRecord fields t)
  | reserve name => endState ((TypeTable.reserve name : TableM TableError TypeId) t)
  | fill id fields => endState (TypeTable.fill id fields t)
  | declareGeneric name arity => t.declareGeneric name arity

/-- The tables that operations lead to. -/
inductive Reachable : TypeTable → Prop
  | new (generics : Generics) : Reachable (new generics)
  | apply {t : TypeTable} (op : Op) (h : Reachable t) : Reachable (op.apply t)

theorem Reachable.foldl (h : t.Reachable) (ops : List Op) : (ops.foldl Op.apply t).Reachable := by
  induction ops generalizing t with
  | nil => exact h
  | cons op ops ih => exact ih (h.apply op)

/-- An operation lets the table grow, unless it declares a generic. -/
theorem Op.grows_or_declares (t : TypeTable) (op : Op) :
    t.Grows (op.apply t) ∨ ∃ name arity, op = .declareGeneric name arity := by
  cases op with
  | primitive name => exact .inl (internPrimitive_grows name t)
  | pointer base => exact .inl (internPointer_moves base t)
  | function params result => exact .inl (internFunction_moves params result t)
  | generic name args => exact .inl (internGeneric_moves name args t)
  | slice element => exact .inl (internSlice_moves element t)
  | record fields => exact .inl (internRecord_moves fields t)
  | reserve name => exact .inl (.single (.reserve name))
  | fill id fields => exact .inl (fill_grows id fields t)
  | declareGeneric name arity => exact .inr ⟨name, arity, rfl⟩

/-! ## Canonical tables -/

/-- What holds of every reachable table. -/
structure Canonical (t : TypeTable) : Prop where
  auto : t.form? .auto = some .auto
  noValue : t.form? .noValue = some .noValue
  /-- A form that is no declared struct stands in one place. -/
  unique : ∀ a b form, t.form? a = some form → t.form? b = some form →
    form.isDeclared = false → a = b
  issued : ∀ id form, t.form? id = some form → ∀ c ∈ form.components, c.index < t.size
  /-- What a form mentions was there before it, declared structs apart. -/
  older : ∀ id form, t.form? id = some form → form.isDeclared = false →
    ∀ c ∈ form.components, c.index < id.index
  /-- The fields of a record have names that can stand together. -/
  fieldNames : ∀ id fields, t.form? id = some (.record fields) → FieldNames (fields.map (·.1))
  pending : ∀ id ∈ t.pending, ∃ name, t.form? id = some (.declared name [])

theorem canonical_new (generics : Generics) : (new generics).Canonical := by
  have hforms : ∀ id form, (new generics).form? id = some form →
      id = .auto ∧ form = .auto ∨ id = .noValue ∧ form = .noValue := by
    rintro ⟨_ | _ | i⟩ form h
    · exact .inl ⟨rfl, (Option.some.inj h).symm⟩
    · exact .inr ⟨rfl, (Option.some.inj h).symm⟩
    · cases h
  refine ⟨rfl, rfl, fun a b form ha hb _ => ?_, fun id form h => ?_, fun id form h _ => ?_,
    fun id fields h => ?_, nofun⟩
  · obtain ⟨rfl, rfl⟩ | ⟨rfl, rfl⟩ := hforms a form ha
    · obtain ⟨rfl, -⟩ | ⟨-, heq⟩ := hforms b _ hb
      · rfl
      · cases heq
    · obtain ⟨-, heq⟩ | ⟨rfl, -⟩ := hforms b _ hb
      · cases heq
      · rfl
  · obtain ⟨-, rfl⟩ | ⟨-, rfl⟩ := hforms id form h <;> exact fun c hc => nomatch hc
  · obtain ⟨-, rfl⟩ | ⟨-, rfl⟩ := hforms id form h <;> exact fun c hc => nomatch hc
  · obtain ⟨-, h⟩ | ⟨-, h⟩ := hforms id _ h <;> cases h

theorem Canonical.push (h : t.Canonical) {pending : List TypeId}
    (hnew : form.isDeclared = false → ∀ id, t.form? id ≠ some form)
    (hissued : ∀ c ∈ form.components, c.index < t.size)
    (hnames : ∀ fields, form = .record fields → FieldNames (fields.map (·.1)))
    (hpending : ∀ id ∈ pending, id ∈ t.pending ∨ id = ⟨t.size⟩ ∧ ∃ name, form = .declared name []) :
    ({ t.push form with pending } : TypeTable).Canonical := by
  have hcases : ∀ id other, (t.push form).form? id = some other →
      id.index = t.size ∧ other = form ∨ t.form? id = some other := by
    intro id other hid
    rw [form?_push] at hid
    split at hid
    · exact .inl ⟨‹_›, (Option.some.inj hid).symm⟩
    · exact .inr hid
  have hsize : (t.push form).size = t.size + 1 := size_push
  refine ⟨form?_push_of_some h.auto, form?_push_of_some h.noValue, ?_, ?_, ?_, ?_, ?_⟩
  · intro a b other ha hb hdeclared
    obtain ⟨hia, rfl⟩ | holda := hcases a other ha
    · obtain ⟨hib, -⟩ | holdb := hcases b other hb
      · cases a; cases b; simp_all
      · exact absurd holdb (hnew hdeclared b)
    · obtain ⟨hib, rfl⟩ | holdb := hcases b other hb
      · exact absurd holda (hnew hdeclared a)
      · exact h.unique a b other holda holdb hdeclared
  · intro id other hid c hc
    change c.index < (t.push form).size
    obtain ⟨-, rfl⟩ | hid := hcases id other hid
    · have := hissued c hc
      omega
    · have := h.issued id other hid c hc
      omega
  · intro id other hid hdeclared c hc
    obtain ⟨hi, rfl⟩ | hid := hcases id other hid
    · exact hi ▸ hissued c hc
    · exact h.older id other hid hdeclared c hc
  · intro id fields hid
    obtain ⟨-, heq⟩ | hid := hcases id _ hid
    · exact hnames fields heq.symm
    · exact h.fieldNames id fields hid
  · intro id hid
    change ∃ name, (t.push form).form? id = some (.declared name [])
    obtain hid | ⟨rfl, name, rfl⟩ := hpending id hid
    · obtain ⟨name, hform⟩ := h.pending id hid
      exact ⟨name, form?_push_of_some hform⟩
    · exact ⟨name, by rw [form?_push, if_pos rfl]⟩

theorem Canonical.step (h : t.Canonical) (hstep : t.Step t') : t'.Canonical := by
  cases hstep with
  | @add form hnew hadmits =>
    refine h.push (fun _ => (find?_eq_none_iff hadmits.isStructural).mp hnew) hadmits.issued ?_
      fun _ => .inl
    rintro fields rfl
    exact hadmits.shaped
  | reserve name =>
    refine h.push nofun (fun c hc => nomatch hc) nofun fun id hid => ?_
    obtain rfl | hid := List.mem_cons.mp hid
    · exact .inr ⟨rfl, name, rfl⟩
    · exact .inl hid
  | @fill filled name old fields hform hpending hissued hnames =>
    have hcases : ∀ id other, (t.withFilled filled fields).form? id = some other →
        other = .declared name fields ∨ t.form? id = some other := by
      intro id other hid
      rw [form?_withFilled hform] at hid
      split at hid
      · exact .inl (Option.some.inj hid).symm
      · exact .inr hid
    have hkept : ∀ id other, t.form? id = some other → other.isDeclared = false →
        (t.withFilled filled fields).form? id = some other := by
      intro id other hid hdeclared
      rw [form?_withFilled hform, if_neg, hid]
      rintro rfl
      rw [hform] at hid
      cases hid
      cases hdeclared
    refine ⟨hkept _ _ h.auto rfl, hkept _ _ h.noValue rfl, ?_, ?_, ?_, ?_, ?_⟩
    · intro a b other ha hb hdeclared
      obtain rfl | ha := hcases a other ha
      · cases hdeclared
      · obtain rfl | hb := hcases b other hb
        · cases hdeclared
        · exact h.unique a b other ha hb hdeclared
    · intro id other hid c hc
      rw [size_withFilled]
      obtain rfl | hid := hcases id other hid
      · obtain ⟨field, hfield, rfl⟩ := List.mem_map.mp hc
        exact hissued field hfield
      · exact h.issued id other hid c hc
    · intro id other hid hdeclared c hc
      obtain rfl | hid := hcases id other hid
      · cases hdeclared
      · exact h.older id other hid hdeclared c hc
    · intro id others hid
      obtain heq | hid := hcases id _ hid
      · cases heq
      · exact h.fieldNames id others hid
    · intro id hid
      obtain ⟨hid, hne⟩ := List.mem_filter.mp hid
      obtain ⟨other, hother⟩ := h.pending id hid
      exact ⟨other, by rw [form?_withFilled hform, if_neg (by simpa using hne), hother]⟩

theorem Canonical.grows (h : t.Canonical) (hgrows : t.Grows t') : t'.Canonical := by
  induction hgrows with
  | refl => exact h
  | tail _ hstep ih => exact ih.step hstep

theorem Canonical.extends (h : t.Canonical) (hext : t.Extends t') : t'.Canonical :=
  h.grows hext.grows

theorem Canonical.declareGeneric (h : t.Canonical) (name : String) (arity : Nat) :
    (t.declareGeneric name arity).Canonical :=
  ⟨h.auto, h.noValue, h.unique, h.issued, h.older, h.fieldNames, h.pending⟩

/-- **Every reachable table is canonical.** -/
theorem Reachable.canonical (h : t.Reachable) : t.Canonical := by
  induction h with
  | new generics => exact canonical_new generics
  | @apply t op _ ih =>
    obtain hgrows | ⟨name, arity, rfl⟩ := op.grows_or_declares t
    · exact ih.grows hgrows
    · exact ih.declareGeneric name arity

/-! ## Arguments of generics -/

theorem Arities.foldl {D : String → Nat → Prop} (h : t.Arities D) {ops : List Op}
    (hops : ∀ name arity, Op.declareGeneric name arity ∈ ops → D name arity) :
    (ops.foldl Op.apply t).Arities D := by
  induction ops generalizing t with
  | nil => exact h
  | cons op ops ih =>
    refine ih ?_ fun name arity hmem => hops name arity (List.mem_cons_of_mem _ hmem)
    obtain hgrows | ⟨name, arity, rfl⟩ := op.grows_or_declares t
    · exact h.grows hgrows
    · refine ⟨fun other found hfound => ?_, h.form?⟩
      change (t.generics.insert name arity).get? other = _ at hfound
      rw [NameMap.get?_insert] at hfound
      split at hfound
      · rename_i heq
        obtain rfl := Option.some.inj hfound
        exact heq ▸ hops name arity (List.mem_cons_self ..)
      · exact h.declared other found hfound

/-- The generic was declared with this number of arguments, before the operations or by one of
them. -/
def EverDeclared (generics : Generics) (ops : List Op) (name : String) (arity : Nat) : Prop :=
  generics.get? name = some arity ∨ Op.declareGeneric name arity ∈ ops

/-- **A generic has as many arguments as it was declared with at some time.** -/
theorem arities_foldl_apply (generics : Generics) (ops : List Op) :
    (ops.foldl Op.apply (new generics)).Arities (EverDeclared generics ops) :=
  (arities_new fun _ _ => .inl).foldl fun _ _ => .inr

/-- The generics in a reachable table are declared, though not always with as many arguments. -/
theorem Reachable.generic_declared {name : String} {args : List TypeId} (h : t.Reachable)
    (hform : t.form? id = some (.generic name args)) :
    ∃ arity, t.generics.get? name = some arity := by
  have harities : t.Arities fun name _ => ∃ arity, t.generics.get? name = some arity := by
    clear hform
    induction h with
    | new generics => exact arities_new fun _ arity hget => ⟨arity, hget⟩
    | @apply t op _ ih =>
      obtain hgrows | ⟨generic, arity, rfl⟩ := op.grows_or_declares t
      · simpa only [hgrows.generics] using ih.grows hgrows
      · refine ⟨fun _ found hget => ⟨found, hget⟩, fun id name args hform => ?_⟩
        obtain ⟨found, hget⟩ := ih.form? id name args hform
        refine ⟨if name = generic then arity else found, ?_⟩
        change (t.generics.insert generic arity).get? name = _
        rw [NameMap.get?_insert, hget, apply_ite some]
  exact harities.form? id name args hform

/-! ## Asking for what is there -/

namespace Canonical

theorem find? (h : t.Canonical) (hform : t.form? id = some form)
    (hstructural : form.isStructural = true) : t.find? form = some id := by
  refine find?_eq_some_iff.mpr ⟨hstructural, hform, fun other hlt hother => ?_⟩
  have heq := h.unique other id form hother hform (Form.isDeclared_eq_false hstructural)
  exact Nat.ne_of_lt hlt (congrArg TypeId.index heq)

theorem intern (h : t.Canonical) (hform : t.form? id = some form)
    (hstructural : form.isStructural = true) :
    (TypeTable.intern form : TableM ε TypeId) t = .ok id t :=
  intern_eq_ok.mpr (.inl ⟨h.find? hform hstructural, rfl⟩)

theorem internIssued (h : t.Canonical) (hform : t.form? id = some form)
    (hstructural : form.isStructural = true) :
    (requireIssued form.components >>= fun _ => TypeTable.intern form : TableM ε TypeId) t =
      .ok id t :=
  bind_eq_ok.mpr ⟨(), t, requireIssued_eq_ok.mpr ⟨h.issued id form hform, rfl⟩,
    h.intern hform hstructural⟩

theorem internPointer (h : t.Canonical) {base : TypeId}
    (hform : t.form? id = some (.pointer base)) :
    (TypeTable.internPointer base : TableM ε TypeId) t = .ok id t :=
  h.internIssued hform rfl

theorem internFunction (h : t.Canonical) {params : List TypeId} {result : TypeId}
    (hform : t.form? id = some (.function params result)) :
    (TypeTable.internFunction params result : TableM ε TypeId) t = .ok id t :=
  h.internIssued hform rfl

/-- A generic is found as long as it is still declared with as many arguments. -/
theorem internGeneric (h : t.Canonical) {name : String} {args : List TypeId}
    (hform : t.form? id = some (.generic name args))
    (harity : t.generics.get? name = some args.length) :
    TypeTable.internGeneric name args t = .ok id t := by
  rw [internGeneric_eq, harity]
  dsimp only
  rw [if_neg (fun hne => hne rfl)]
  exact h.internIssued hform rfl

theorem internSlice (h : t.Canonical) {element : TypeId}
    (hform : t.form? id = some (.generic Form.sliceName [element]))
    (harity : t.generics.get? Form.sliceName = some 1) :
    (TypeTable.internSlice element : TableM ε TypeId) t = .ok id t := by
  unfold TypeTable.internSlice
  rw [h.internGeneric hform harity]

theorem internRecord (h : t.Canonical) {fields : List (String × TypeId)}
    (hform : t.form? id = some (.record fields)) :
    TypeTable.internRecord fields t = .ok id t :=
  bind_eq_ok.mpr ⟨(), t, requireFieldNames_eq_ok.mpr ⟨h.fieldNames id fields hform, rfl⟩,
    h.internIssued hform rfl⟩

end Canonical

end RuleTypes.TypeTable
