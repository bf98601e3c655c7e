import RuleTypes.Proofs.TypeExpr.Reading
import RuleTypes.Proofs.TypeTable.Reachable

/-!
# Loading what was printed

In a reachable table, the text of a type leads back to the type, and looking it up adds nothing
(`load_text`). This needs every part of the type to be readable: its name has to be one that the
notation can write, and has to mean that part. The type is followed down to declared structs,
which stand for themselves.
-/

namespace RuleTypes

open Relation

/-- The ids whose texts make up the text of a form. A function without a result mentions none, and
a declared struct is its name. -/
def Form.parts : Form → List TypeId
  | .declared _ _ => []
  | .function params result => params ++ if result = .noValue then [] else [result]
  | form => form.components

/-- What the notation needs to write a form with an id so that it is read back, given the parts. -/
def Form.Readable (t : TypeTable) (names : Names) (id : TypeId) : Form → Prop
  | .auto | .noValue => False
  | .primitive name => IsName name ∧ names.get? name = none
  | .pointer _ | .function _ _ => True
  | .generic name args => args ≠ [] ∧ t.generics.get? name = some args.length ∧
    (IsName name ∨ name = sliceName ∧ args.length = 1)
  | .record fields => ∀ field ∈ fields, IsName field.1
  | .declared name _ => IsName name ∧ names.get? name = some id

instance Form.decidableReadable (t : TypeTable) (names : Names) (id : TypeId) :
    ∀ form : Form, Decidable (form.Readable t names id)
  | .auto | .noValue => inferInstanceAs (Decidable False)
  | .primitive name => inferInstanceAs (Decidable (IsName name ∧ names.get? name = none))
  | .pointer _ | .function _ _ => inferInstanceAs (Decidable True)
  | .generic name args => inferInstanceAs (Decidable (args ≠ [] ∧
      t.generics.get? name = some args.length ∧ (IsName name ∨ name = sliceName ∧ args.length = 1)))
  | .record fields => inferInstanceAs (Decidable (∀ field ∈ fields, IsName field.1))
  | .declared name _ => inferInstanceAs (Decidable (IsName name ∧ names.get? name = some id))

/-- The generic of slices has no name that could be written before arguments. -/
theorem IsName.ne_sliceName {name : String} (h : IsName name) : name ≠ Form.sliceName := by
  rintro rfl
  obtain ⟨c, cs, hchars, hstart, -⟩ := h.identifier
  obtain ⟨rfl, -⟩ := List.cons.inj (hchars.symm.trans (rfl : _ = ['[', ']']))
  cases hstart

namespace TypeTable

variable {t : TypeTable} {names : Names} {id part : TypeId} {form : Form}

/-- The text of the first type mentions the second. -/
def IsPart (t : TypeTable) (id part : TypeId) : Prop :=
  ∃ form, t.form? id = some form ∧ part ∈ form.parts

/-- The second type is the first or occurs in its text. -/
def Occurs (t : TypeTable) : TypeId → TypeId → Prop := ReflTransGen t.IsPart

/-- The id has a form that the notation can write so that it is read back. -/
def Readable (t : TypeTable) (names : Names) (id : TypeId) : Prop :=
  ∃ form ∈ t.form? id, form.Readable t names id

instance (names : Names) (id : TypeId) : Decidable (t.Readable names id) :=
  inferInstanceAs (Decidable (∃ form ∈ t.form? id, form.Readable t names id))

theorem mem_components_of_mem_parts (h : part ∈ form.parts) :
    form.isDeclared = false ∧ part ∈ form.components := by
  cases form with
  | declared name fields => cases h
  | function params result =>
    refine ⟨rfl, ?_⟩
    simp only [Form.parts, Form.components, List.mem_append, List.mem_singleton] at h ⊢
    refine h.imp_right fun h => ?_
    split at h
    · cases h
    · exact List.mem_singleton.mp h
  | _ => exact ⟨rfl, h⟩

/-- Ids that are closed under parts hold all that occurs in one of them. -/
theorem Occurs.mem (h : t.Occurs id part) (ids : List TypeId) (hid : id ∈ ids)
    (hclosed : ∀ i ∈ ids, ∀ form ∈ t.form? i, ∀ p ∈ form.parts, p ∈ ids) : part ∈ ids := by
  induction h with
  | refl => exact hid
  | tail _ hpart ih =>
    obtain ⟨form, hform, hmem⟩ := hpart
    exact hclosed _ ih form hform _ hmem

/-! ## The written type of an id -/

/-- The written type has the text of the id, and means it. -/
structure Writes (t : TypeTable) (names : Names) (e : TypeExpr) (id : TypeId) : Prop where
  canonical : e.Canonical
  notAuto : e.isAuto = false
  text : ∀ depth, id.index < depth → t.textAt depth id = .ok e.text
  resolves : e.resolveConcrete names t = .ok id t

theorem writes_all (ids : List TypeId) (h : ∀ id ∈ ids, ∃ e, t.Writes names e id) :
    ∃ es : List TypeExpr, TypeExpr.AllCanonical es ∧ es.length = ids.length ∧
      (∀ depth, (∀ id ∈ ids, id.index < depth) →
        ids.mapM (t.textAt depth) = .ok (TypeExpr.texts es)) ∧
      TypeExpr.resolveAll names es t = .ok ids t := by
  induction ids with
  | nil => exact ⟨[], trivial, rfl, fun _ _ => rfl, by rw [TypeExpr.resolveAll]; rfl⟩
  | cons id ids ih =>
    obtain ⟨e, he⟩ := h id (List.mem_cons_self ..)
    obtain ⟨es, hcanonical, hlen, htexts, hresolves⟩ :=
      ih fun i hi => h i (List.mem_cons_of_mem _ hi)
    refine ⟨e :: es, ⟨he.canonical, hcanonical⟩, by simp [hlen], fun depth hdepth => ?_, ?_⟩
    · have hfirst := he.text depth (hdepth id (List.mem_cons_self ..))
      have hrest := htexts depth fun i hi => hdepth i (List.mem_cons_of_mem _ hi)
      rw [List.mapM_cons, hfirst, TypeExpr.texts]
      simp only [bind, Except.bind, hrest]
      rfl
    · rw [TypeExpr.resolveAll, bind_of_ok he.resolves, bind_of_ok hresolves]
      rfl

theorem writes_fields {fields : List (String × TypeId)}
    (h : ∀ field ∈ fields, IsName field.1 ∧ ∃ e, t.Writes names e field.2) :
    ∃ es : List (String × TypeExpr), TypeExpr.FieldsCanonical es ∧
      (∀ depth, (∀ field ∈ fields, field.2.index < depth) →
        (fields.mapM fun field => do return field.1 ++ " " ++ (← t.textAt depth field.2)) =
          .ok (TypeExpr.fieldTexts es)) ∧
      TypeExpr.resolveFields names es t = .ok fields t := by
  induction fields with
  | nil => exact ⟨[], trivial, fun _ _ => rfl, by rw [TypeExpr.resolveFields]; rfl⟩
  | cons field fields ih =>
    obtain ⟨name, id⟩ := field
    obtain ⟨hname, e, he⟩ := h (name, id) (List.mem_cons_self ..)
    obtain ⟨es, hcanonical, htexts, hresolves⟩ := ih fun f hf => h f (List.mem_cons_of_mem _ hf)
    refine ⟨(name, e) :: es, ⟨hname, he.canonical, hcanonical⟩, fun depth hdepth => ?_, ?_⟩
    · have hfirst := he.text depth (hdepth (name, id) (List.mem_cons_self ..))
      have hrest := htexts depth fun f hf => hdepth f (List.mem_cons_of_mem _ hf)
      rw [List.mapM_cons, TypeExpr.fieldTexts]
      simp only [hfirst, bind, Except.bind, pure, Except.pure] at hrest ⊢
      rw [hrest]
    · rw [TypeExpr.resolveFields, bind_of_ok he.resolves, bind_of_ok hresolves]
      rfl

/-- The text of an id is that of its form. -/
theorem textAt_of_form? {depth : Nat} (h : t.form? id = some form) :
    t.textAt (depth + 1) id = form.text (t.textAt depth) := by
  rw [textAt, form_eq_ok.mpr h]
  rfl

/-- A form with written parts is written. -/
theorem writes_of_parts (ht : t.Canonical) (hread : t.Readable names id)
    (hparts : ∀ part, t.IsPart id part → ∃ e, t.Writes names e part) :
    ∃ e, t.Writes names e id := by
  obtain ⟨form, hform, hread⟩ := hread
  have hpart : ∀ part ∈ form.parts, ∃ e, t.Writes names e part := fun part hpart =>
    hparts part ⟨form, hform, hpart⟩
  have holder : ∀ part ∈ form.parts, part.index < id.index := fun part hpart =>
    have ⟨hdeclared, hmem⟩ := mem_components_of_mem_parts hpart
    ht.older id form hform hdeclared part hmem
  -- the text of the id is that of its form, one level down
  have htext : ∀ {text : String}, (∀ depth, (∀ part ∈ form.parts, part.index < depth) →
      form.text (t.textAt depth) = .ok text) →
      ∀ depth, id.index < depth → t.textAt depth id = .ok text := by
    rintro text h (_ | depth) hdepth
    · omega
    · rw [textAt_of_form? hform]
      exact h depth fun part hp => by have := holder part hp; omega
  cases form with
  | auto | noValue => exact hread.elim
  | primitive name =>
    obtain ⟨hname, hfree⟩ := hread
    refine ⟨.named name, hname, rfl, htext fun _ _ => by rw [TypeExpr.text]; rfl, ?_⟩
    rw [TypeExpr.resolveConcrete, TypeExpr.resolveName, hfree, primitive?, ht.find? hform rfl]
    rfl
  | pointer base =>
    obtain ⟨e, he⟩ := hpart base (by simp [Form.parts, Form.components])
    refine ⟨.pointer e, he.canonical, rfl, htext fun depth hdepth => ?_, ?_⟩
    · have hbase := he.text depth (hdepth base (by simp [Form.parts, Form.components]))
      rw [Form.text, hbase, TypeExpr.text]
      rfl
    · rw [TypeExpr.resolveConcrete, bind_of_ok he.resolves]
      exact ht.internPointer hform
  | function params result =>
    obtain ⟨es, hcanonical, -, htexts, hresolves⟩ := writes_all params fun param hparam =>
      hpart param (List.mem_append_left _ hparam)
    by_cases hresult : result = .noValue
    · subst hresult
      refine ⟨.function es none, hcanonical, rfl, htext fun depth hdepth => ?_, ?_⟩
      · have hparams := htexts depth fun param hparam =>
          hdepth param (List.mem_append_left _ hparam)
        rw [Form.text, TypeExpr.text, hparams]
        rfl
      · rw [TypeExpr.resolveConcrete, bind_of_ok hresolves]
        exact ht.internFunction hform
    · have hmem : result ∈ (Form.function params result).parts :=
        List.mem_append_right _ (by rw [if_neg hresult]; exact List.mem_singleton.mpr rfl)
      obtain ⟨e, he⟩ := hpart result hmem
      refine ⟨.function es (some e), ⟨hcanonical, he.canonical⟩, rfl, htext fun depth hdepth => ?_,
        ?_⟩
      · have hparams := htexts depth fun param hparam =>
          hdepth param (List.mem_append_left _ hparam)
        have hresultText := he.text depth (hdepth result hmem)
        rw [Form.text, TypeExpr.text, hparams]
        simp only [bind, Except.bind, if_neg hresult, hresultText, pure, Except.pure]
        rw [show "):" = ")" ++ ":" from rfl]
        simp only [String.append_assoc]
      · rw [TypeExpr.resolveConcrete, bind_of_ok hresolves, bind_of_ok he.resolves]
        exact ht.internFunction hform
  | generic name args =>
    obtain ⟨hne, harity, hname | ⟨rfl, hone⟩⟩ := hread
    · obtain ⟨es, hcanonical, hlen, htexts, hresolves⟩ := writes_all args hpart
      have hes : es ≠ [] := by
        rintro rfl
        exact hne (List.length_eq_zero_iff.mp hlen.symm)
      refine ⟨.generic name es, ⟨hname, hes, hcanonical⟩, rfl, htext fun depth hdepth => ?_, ?_⟩
      · simp only [Form.text, if_neg hname.ne_sliceName, htexts depth hdepth]
        rw [TypeExpr.text]
        rfl
      · rw [TypeExpr.resolveConcrete, bind_of_ok hresolves]
        exact mapError_eq_ok.mpr (ht.internGeneric hform harity)
    · obtain ⟨element, rfl⟩ := List.length_eq_one_iff.mp hone
      obtain ⟨e, he⟩ := hpart element (List.mem_singleton.mpr rfl)
      refine ⟨.slice e, he.canonical, rfl, htext fun depth hdepth => ?_, ?_⟩
      · have helement := he.text depth (hdepth element (List.mem_singleton.mpr rfl))
        rw [Form.text, if_pos rfl, helement, TypeExpr.text]
        rfl
      · rw [TypeExpr.resolveConcrete, bind_of_ok he.resolves]
        exact ht.internSlice hform harity
  | record fields =>
    obtain ⟨es, hcanonical, htexts, hresolves⟩ := writes_fields fun field hfield =>
      ⟨hread field hfield, hpart field.2 (List.mem_map_of_mem hfield)⟩
    refine ⟨.record es, hcanonical, rfl, htext fun depth hdepth => ?_, ?_⟩
    · rw [Form.text, TypeExpr.text,
        htexts depth fun field hfield => hdepth field.2 (List.mem_map_of_mem hfield)]
      rfl
    · rw [TypeExpr.resolveConcrete, bind_of_ok hresolves]
      exact mapError_eq_ok.mpr (ht.internRecord hform)
  | declared name fields =>
    obtain ⟨hname, hbound⟩ := hread
    refine ⟨.named name, hname, rfl, htext fun _ _ => by rw [TypeExpr.text]; rfl, ?_⟩
    rw [TypeExpr.resolveConcrete, TypeExpr.resolveName, hbound]
    rfl

/-- A type with readable parts is written: by induction on the id, since the parts of a type are
older than the type. -/
theorem exists_writes (ht : t.Canonical)
    (hread : ∀ part, t.Occurs id part → t.Readable names part) : ∃ e, t.Writes names e id := by
  induction hindex : id.index using Nat.strong_induction_on generalizing id with
  | _ n ih =>
    refine writes_of_parts ht (hread id .refl) fun part hpart => ?_
    have ⟨form, hform, hmem⟩ := hpart
    obtain ⟨hdeclared, hcomponent⟩ := mem_components_of_mem_parts hmem
    exact ih part.index (hindex ▸ ht.older id form hform hdeclared part hcomponent)
      (fun other hother => hread other (hother.head hpart)) rfl

/-- **Loading the text of a type gives the type back** and leaves the table as it is, in every
reachable table, when every part of the type is readable. -/
theorem load_text (ht : t.Reachable) (hread : ∀ part, t.Occurs id part → t.Readable names part) :
    ∃ text, t.text id = .ok text ∧ TypeExpr.load names text t = .ok id t := by
  obtain ⟨e, he⟩ := exists_writes ht.canonical hread
  refine ⟨e.text, he.text _ (Nat.lt_succ_self _), ?_⟩
  unfold TypeExpr.load TypeExpr.resolve
  simp only [TypeExpr.parse_text he.canonical, he.notAuto]
  exact he.resolves

/-- A table with `func(f64):func(*Node,struct{keys []f64;values Map<*Node,[]f64>})` as its last
type, where a `Node` is a struct that points to another. -/
def nodeTable : TypeTable :=
  [.primitive "f64", .reserve "Node", .pointer ⟨3⟩, .fill ⟨3⟩ [("value", ⟨2⟩), ("next", ⟨4⟩)],
    .slice ⟨2⟩, .declareGeneric "Map" 2, .generic "Map" [⟨4⟩, ⟨5⟩],
    .record [("keys", ⟨5⟩), ("values", ⟨6⟩)], .function [⟨4⟩, ⟨7⟩] .noValue,
    .function [⟨2⟩] ⟨8⟩].foldl Op.apply (new ⟨[(Form.sliceName, 1)]⟩)

/-- The types of the node table that are no sentinels are readable. -/
theorem nodeTable_readable {part : TypeId} (h : nodeTable.Occurs ⟨9⟩ part) :
    nodeTable.Readable ⟨[("Node", ⟨3⟩)]⟩ part := by
  have hmem := h.mem ((List.range' 2 8).map TypeId.mk) (by decide) (by decide +kernel)
  have hall : ∀ part ∈ (List.range' 2 8).map TypeId.mk,
      nodeTable.Readable ⟨[("Node", ⟨3⟩)]⟩ part := by decide +kernel
  exact hall part hmem

theorem load_text_nodeTable : nodeTable.Reachable ∧
    (∀ part, nodeTable.Occurs ⟨9⟩ part → nodeTable.Readable ⟨[("Node", ⟨3⟩)]⟩ part) ∧
    ∃ text, nodeTable.text ⟨9⟩ = .ok text ∧
      TypeExpr.load ⟨[("Node", ⟨3⟩)]⟩ text nodeTable = .ok ⟨9⟩ nodeTable :=
  have hreachable : nodeTable.Reachable := (Reachable.new _).foldl _
  ⟨hreachable, fun _ => nodeTable_readable, load_text hreachable fun _ => nodeTable_readable⟩

end TypeTable

end RuleTypes
