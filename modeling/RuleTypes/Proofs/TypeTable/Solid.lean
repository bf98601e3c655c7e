import RuleTypes.Proofs.Concur
import RuleTypes.Proofs.TypeTable.Growth

/-!
# Tables without loose sentinels

`auto` and `noValue` are no types that a value could have. In a solid table they occur in no other
type, except that a function may have no value to give back. Forms of proper types keep a table
solid (`TypeTable.Solid.push`), and so does every operation on it that is given proper types. In
particular, a written type is a proper one if the names in it are
(`TypeExpr.resolveConcrete_upholds`).
-/

namespace RuleTypes

/-! ## Forms -/

/-- The id is neither `auto` nor `noValue`. -/
abbrev TypeId.IsProper (id : TypeId) : Prop := id.isSentinel = false

theorem TypeId.isProper_iff {id : TypeId} : id.IsProper ↔ id ≠ .auto ∧ id ≠ .noValue := by
  obtain ⟨_ | _ | i⟩ := id <;> simp [IsProper, isSentinel, auto, noValue]

theorem TypeId.IsProper.ne_auto {id : TypeId} (h : id.IsProper) : id ≠ .auto :=
  (isProper_iff.mp h).1

theorem TypeId.IsProper.ne_noValue {id : TypeId} (h : id.IsProper) : id ≠ .noValue :=
  (isProper_iff.mp h).2

namespace Form

/-- No sentinel occurs in the form, except that a function may have the result `noValue`. -/
structure Solid (form : Form) : Prop where
  auto : .auto ∉ form.components
  noValue : .noValue ∈ form.components →
    ∃ params, form = .function params .noValue ∧ .noValue ∉ params

variable {form : Form} {id : TypeId} {params : List TypeId} {result : TypeId}
  {fields : List (String × TypeId)}

theorem solid_of_components (h : ∀ c ∈ form.components, c.IsProper) : form.Solid :=
  ⟨fun hauto => (h _ hauto).ne_auto rfl, fun hnone => absurd rfl (h _ hnone).ne_noValue⟩

theorem solid_record (h : ∀ field ∈ fields, field.2.IsProper) : (record fields).Solid :=
  solid_of_components (List.forall_mem_map.mpr h)

theorem solid_declared (name : String) (h : ∀ field ∈ fields, field.2.IsProper) :
    (declared name fields).Solid :=
  solid_of_components (List.forall_mem_map.mpr h)

theorem solid_function (hparams : ∀ id ∈ params, id.IsProper) (hresult : result ≠ .auto) :
    (function params result).Solid := by
  have hnot : ∀ sentinel : TypeId, ¬ sentinel.IsProper → sentinel ∉ params :=
    fun sentinel hsentinel hmem => hsentinel (hparams sentinel hmem)
  refine ⟨?_, fun hnone => ?_⟩
  · simp [components, hnot .auto (by decide), hresult.symm]
  · obtain hnone | hnone := List.mem_append.mp hnone
    · exact absurd hnone (hnot .noValue (by decide))
    · obtain rfl := List.mem_singleton.mp hnone
      exact ⟨params, rfl, hnot .noValue (by decide)⟩

namespace Solid

/-- What occurs in a form that is no function is a proper type. -/
theorem isProper_component (h : form.Solid) (hform : form.signature? = none)
    (hid : id ∈ form.components) : id.IsProper := by
  refine TypeId.isProper_iff.mpr ⟨?_, ?_⟩
  · rintro rfl
    exact h.auto hid
  · rintro rfl
    obtain ⟨params, rfl, -⟩ := h.noValue hid
    cases hform

theorem isProper_param (h : (function params result).Solid) : ∀ id ∈ params, id.IsProper := by
  intro id hid
  have hmem : id ∈ (function params result).components := List.mem_append_left _ hid
  refine TypeId.isProper_iff.mpr ⟨?_, ?_⟩
  · rintro rfl
    exact h.auto hmem
  · rintro rfl
    obtain ⟨_, heq, hnot⟩ := h.noValue hmem
    cases heq
    exact hnot hid

theorem result_ne_auto (h : (function params result).Solid) : result ≠ .auto := by
  rintro rfl
  exact h.auto (List.mem_append_right _ (List.mem_singleton.mpr rfl))

theorem isProper_field (h : form.Solid) (hfields : form.fields? = some fields) :
    ∀ field ∈ fields, field.2.IsProper := by
  intro field hfield
  cases form with
  | record | declared =>
    cases hfields
    exact h.isProper_component rfl (List.mem_map_of_mem hfield)
  | _ => cases hfields

theorem isProper_base (h : form.Solid) (hbase : form.base? = some id) : id.IsProper := by
  cases form with
  | pointer base =>
    cases hbase
    exact h.isProper_component rfl (List.mem_singleton.mpr rfl)
  | _ => cases hbase

theorem isProper_element (h : form.Solid) (helement : form.element? = some id) : id.IsProper := by
  unfold element? at helement
  split at helement
  · split at helement
    · cases helement
      exact h.isProper_component rfl (List.mem_cons_self ..)
    · cases helement
  · cases helement

end Solid

end Form

/-! ## Tables -/

namespace TypeTable

variable {ε : Type} {t t' : TypeTable} {id : TypeId} {form : Form}

/-- The sentinels are where every table has them, and occur in other types as the results of
functions only. -/
structure Solid (t : TypeTable) : Prop where
  auto : t.form? .auto = some .auto
  noValue : t.form? .noValue = some .noValue
  forms : ∀ id form, t.form? id = some form → form.Solid

/-- A type with a form of its own is proper. -/
theorem Solid.isProper (h : t.Solid) (hform : t.form? id = some form) (hauto : form ≠ .auto)
    (hnoValue : form ≠ .noValue) : id.IsProper := by
  refine TypeId.isProper_iff.mpr ⟨?_, ?_⟩
  · rintro rfl
    exact hauto (Option.some.inj (hform.symm.trans h.auto))
  · rintro rfl
    exact hnoValue (Option.some.inj (hform.symm.trans h.noValue))

theorem Solid.isProper_of_isStructural (h : t.Solid) (hform : t.form? id = some form)
    (hstructural : form.isStructural = true) : id.IsProper := by
  refine h.isProper hform ?_ ?_ <;> rintro rfl <;> cases hstructural

theorem solid_new (generics : Generics) : (new generics).Solid := by
  refine ⟨rfl, rfl, ?_⟩
  rintro ⟨_ | _ | i⟩ form h
  · obtain rfl : Form.auto = form := Option.some.inj h
    exact Form.solid_of_components (by simp [Form.components])
  · obtain rfl : Form.noValue = form := Option.some.inj h
    exact Form.solid_of_components (by simp [Form.components])
  · cases h

theorem Solid.push (h : t.Solid) (hform : form.Solid) : (t.push form).Solid := by
  refine ⟨form?_push_of_some h.auto, form?_push_of_some h.noValue, fun id other hother => ?_⟩
  rw [form?_push] at hother
  split at hother
  · exact Option.some.inj hother ▸ hform
  · exact h.forms id other hother

theorem Solid.withReserved (h : t.Solid) (name : String) : (t.withReserved name).Solid := by
  have hform : (Form.declared name []).Solid := Form.solid_declared name (by simp)
  have hpush := h.push hform
  exact ⟨hpush.auto, hpush.noValue, hpush.forms⟩

theorem Solid.withFilled (h : t.Solid) {name : String} {old fields : List (String × TypeId)}
    (hform : t.form? id = some (.declared name old))
    (hfields : ∀ field ∈ fields, field.2.IsProper) : (t.withFilled id fields).Solid := by
  have hproper := h.isProper hform (by simp) (by simp)
  refine ⟨?_, ?_, fun other form hother => ?_⟩
  · rw [form?_withFilled hform, if_neg hproper.ne_auto.symm, h.auto]
  · rw [form?_withFilled hform, if_neg hproper.ne_noValue.symm, h.noValue]
  · rw [form?_withFilled hform] at hother
    split at hother
    · exact Option.some.inj hother ▸ Form.solid_declared name hfields
    · exact h.forms other form hother

/-! ## Operations on tables -/

theorem intern_upholds (hform : form.Solid) (hstructural : form.isStructural = true) :
    Upholds Solid TypeId.IsProper (intern form : TableM ε TypeId) := by
  intro t ht
  have hend : (endState ((intern form : TableM ε TypeId) t)).Solid := by
    unfold intern
    cases t.find? form with
    | some id => exact ht
    | none => exact ht.push hform
  refine ⟨rfl, hend, fun id t' hok => ?_⟩
  rw [hok] at hend
  exact hend.isProper_of_isStructural (form?_of_intern hok) hstructural

theorem internPointer_upholds {base : TypeId} (hbase : base.IsProper) :
    Upholds Solid TypeId.IsProper (internPointer base : TableM ε TypeId) :=
  .bind (.reads (requireIssued_moves _)) fun _ _ =>
    intern_upholds (Form.solid_of_components (by simpa [Form.components] using hbase)) rfl

theorem internFunction_upholds {params : List TypeId} {result : TypeId}
    (hparams : ∀ id ∈ params, id.IsProper) (hresult : result ≠ .auto) :
    Upholds Solid TypeId.IsProper (internFunction params result : TableM ε TypeId) :=
  .bind (.reads (requireIssued_moves _)) fun _ _ =>
    intern_upholds (Form.solid_function hparams hresult) rfl

theorem internGeneric_upholds (name : String) {args : List TypeId}
    (hargs : ∀ id ∈ args, id.IsProper) :
    Upholds Solid TypeId.IsProper (internGeneric name args) := by
  refine .get_bind fun t _ => ?_
  split
  · exact .throw _
  · split
    · exact .bind (Q := fun _ => False) (.throw _) fun _ h => h.elim
    · exact .bind (.reads (requireIssued_moves _)) fun _ _ =>
        intern_upholds (Form.solid_of_components hargs) rfl

theorem internSlice_upholds {element : TypeId} (helement : element.IsProper) :
    Upholds Solid TypeId.IsProper (internSlice element : TableM ε TypeId) := by
  intro t ht
  have hgeneric : Upholds Solid TypeId.IsProper (internGeneric Form.sliceName [element]) :=
    internGeneric_upholds _ (by simpa using helement)
  unfold internSlice
  cases hok : internGeneric Form.sliceName [element] t with
  | ok id t₁ =>
    obtain ⟨ht₁, hid⟩ := hgeneric.ok ht hok
    exact ⟨rfl, ht₁, fun _ _ heq => by cases heq; exact hid⟩
  | error e t₁ =>
    have ht₁ := hgeneric.error ht hok
    cases e <;> exact ⟨rfl, ht₁, by simp⟩

theorem internRecord_upholds {fields : List (String × TypeId)}
    (hfields : ∀ field ∈ fields, field.2.IsProper) :
    Upholds Solid TypeId.IsProper (internRecord fields) :=
  .bind (.reads (requireFieldNames_moves _ _)) fun _ _ =>
    .bind (.reads (requireIssued_moves _)) fun _ _ => intern_upholds (Form.solid_record hfields) rfl

theorem reserve_upholds (name : String) :
    Upholds Solid TypeId.IsProper (reserve name : TableM ε TypeId) := by
  intro t ht
  have hsolid := ht.withReserved name
  have hform : (t.withReserved name).form? ⟨t.size⟩ = some (.declared name []) :=
    form?_push.trans (if_pos rfl)
  refine ⟨rfl, hsolid, fun id t' hok => ?_⟩
  cases hok
  exact hsolid.isProper hform (by simp) (by simp)

theorem fill_upholds {fields : List (String × TypeId)}
    (hfields : ∀ field ∈ fields, field.2.IsProper) :
    Upholds Solid (fun _ => True) (fill id fields) := by
  intro t ht
  refine ⟨rfl, ?_, fun _ _ _ => trivial⟩
  cases hfill : fill id fields t with
  | ok u t₁ =>
    obtain ⟨name, old, hform, -, -, -, rfl⟩ := fill_eq_ok hfill
    exact ht.withFilled hform hfields
  | error e t₁ =>
    obtain rfl := fill_eq_error hfill
    exact ht

theorem mapError_upholds {ε' α : Type} {Q : α → Prop} {x : TableM ε α} (f : ε → ε')
    (h : Upholds Solid Q x) : Upholds Solid Q (x.mapError f) := by
  intro t ht
  refine ⟨rfl, ?_, fun a t' hok => (h.ok ht (mapError_eq_ok.mp hok)).2⟩
  have hend := h.endState ht
  unfold TableM.mapError
  revert hend
  cases x t <;> exact id

end TypeTable

/-! ## Written types -/

namespace TypeExpr

open TypeTable

variable {names : Names}

theorem assemble_upholds (e : TypeExpr) {ids : List TypeId} (hids : ∀ id ∈ ids, id.IsProper) :
    Upholds Solid TypeId.IsProper (e.assemble ids) := by
  unfold assemble
  split
  · exact internPointer_upholds (hids _ (List.mem_singleton.mpr rfl))
  · exact internSlice_upholds (hids _ (List.mem_singleton.mpr rfl))
  · exact mapError_upholds _ (internGeneric_upholds _ hids)
  · exact internFunction_upholds hids (by decide)
  · refine internFunction_upholds (fun id hid => hids id (List.dropLast_subset _ hid)) ?_
    rw [List.getLastD_eq_getLast?]
    cases hlast : ids.getLast? with
    | none => decide
    | some last => exact (hids last (List.mem_of_getLast? hlast)).ne_auto
  · exact mapError_upholds _ (internRecord_upholds fun field hfield =>
      hids _ (List.of_mem_zip hfield).2)
  · exact .throw _

section Resolution

variable (hnames : ∀ name id, names.get? name = some id → id.IsProper)

include hnames

theorem resolveName_upholds (name : String) :
    Upholds Solid TypeId.IsProper (resolveName names name) := by
  intro t ht
  unfold resolveName
  cases hname : (names.get? name).or (t.primitive? name) with
  | none => exact ⟨rfl, ht, by simp⟩
  | some id =>
    refine ⟨rfl, ht, fun _ _ heq => ?_⟩
    cases heq
    obtain hname | ⟨-, hprimitive⟩ := Option.or_eq_some_iff.mp hname
    · exact hnames name id hname
    · exact ht.isProper_of_isStructural (form?_of_find? hprimitive) rfl

theorem resolution_upholds :
    (∀ e : TypeExpr, Upholds Solid TypeId.IsProper (e.resolveConcrete names)) ∧
    ∀ es : List TypeExpr,
      Upholds Solid (fun ids => ∀ id ∈ ids, id.IsProper) (resolveAll names es) := by
  refine parts_induction ?auto ?named ?compound ?nil ?cons
  case auto =>
    rw [resolveConcrete]
    exact .throw _
  case named =>
    intro name
    rw [resolveConcrete]
    exact resolveName_upholds hnames name
  case compound =>
    intro e he hparts
    rw [resolveConcrete_compound names he]
    exact .bind hparts fun _ => assemble_upholds e
  case nil =>
    rw [resolveAll]
    exact .pure (by simp)
  case cons =>
    intro e es he hes
    rw [resolveAll]
    exact .bind he fun _ hid => .bind hes fun _ hids =>
      .pure (List.forall_mem_cons.mpr ⟨hid, hids⟩)

/-- **A written type is a proper one** if the names in it are, and reading it keeps the table
solid. -/
theorem resolveConcrete_upholds (e : TypeExpr) :
    Upholds Solid TypeId.IsProper (e.resolveConcrete names) := (resolution_upholds hnames).1 e

/-- The type of a declaration is proper or left to its initializer. -/
theorem resolve_upholds (e : TypeExpr) :
    Upholds Solid (fun id => id = .auto ∨ id.IsProper) (e.resolve names) := by
  unfold resolve
  split
  · exact .pure (.inl rfl)
  · exact (resolveConcrete_upholds hnames e).mono fun _ => .inr

theorem load_upholds (text : String) :
    Upholds Solid (fun id => id = .auto ∨ id.IsProper) (load names text) := by
  unfold load
  cases parse text with
  | ok e => exact resolve_upholds hnames e
  | error e => exact .throw _

end Resolution

end TypeExpr

end RuleTypes
