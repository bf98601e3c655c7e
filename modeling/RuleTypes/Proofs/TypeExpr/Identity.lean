import RuleTypes.Proofs.TypeExpr.Meaning
import RuleTypes.Proofs.TypeTable.Interning

/-!
# Types are equal exactly if their ids are

A written type that was resolved is found again, whatever was done to the table in between: all
that it is looked up by is still there (`Retains`). And from the id of a type it can be told how it
was written (`Denotes.inj`). So two written types have one id exactly if they are the same
(`id_eq_iff_type_eq`). The only spelling that says nothing about the type is the name of the slices:
`[]` applied to a type by name is the same as the slice of it.
-/

namespace RuleTypes

open Relation

namespace TypeTable

variable {ε : Type} {t t' t'' : TypeTable} {id : TypeId}

/-- The later table has all that a type of the earlier one is looked up by: its form, unless that is
a declared struct, and how many arguments its generic takes. -/
structure Retains (t t' : TypeTable) : Prop where
  canonical : t'.Canonical
  form? : ∀ id form, t.form? id = some form → form.isDeclared = false → t'.form? id = some form
  generics : ∀ name, t'.generics.get? name = t.generics.get? name

theorem Retains.of_extends (hext : t.Extends t') (h : t'.Retains t'') : t.Retains t'' where
  canonical := h.canonical
  form? id form hform hdeclared := h.form? id form (hext.form? hform) hdeclared
  generics name := (h.generics name).trans (by rw [hext.generics])

theorem Retains.extends (h : t.Retains t') (hext : t'.Extends t'') : t.Retains t'' where
  canonical := h.canonical.extends hext
  form? id form hform hdeclared := hext.form? (h.form? id form hform hdeclared)
  generics name := by rw [hext.generics, h.generics name]

/-- Operations keep all that types are looked up by, as long as they keep the numbers of arguments
of the generics. -/
theorem Canonical.retains_foldl (h : t.Canonical) {ops : List Op}
    (hgenerics : ∀ name, (ops.foldl Op.apply t).generics.get? name = t.generics.get? name) :
    t.Retains (ops.foldl Op.apply t) :=
  ⟨h.foldl ops, fun _ _ => form?_foldl_apply ops, hgenerics⟩

theorem internSlice_eq_ok {element : TypeId}
    (h : (internSlice element : TableM ε TypeId) t = .ok id t') :
    internGeneric Form.sliceName [element] t = .ok id t' := by
  unfold internSlice at h
  cases hgeneric : internGeneric Form.sliceName [element] t with
  | ok found t₁ => simpa only [hgeneric, EStateM.Result.ok.injEq] using h
  | error e t₁ => cases e <;> simp [hgeneric] at h

end TypeTable

/-- Each name is bound to a declared struct of that name. -/
def Names.DeclaredIn (names : Names) (t : TypeTable) : Prop :=
  ∀ name id, names.get? name = some id → ∃ fields, t.form? id = some (.declared name fields)

namespace TypeExpr

open TypeTable

variable {names : Names} {t t' t'' : TypeTable} {e e' : TypeExpr} {id : TypeId}

/-! ## Resolving again -/

theorem resolveName_again {name : String} (hok : resolveName names name t = .ok id t')
    (hretains : t'.Retains t'') : resolveName names name t'' = .ok id t'' := by
  unfold resolveName at hok ⊢
  cases hname : names.get? name with
  | some found =>
    simp only [hname, Option.some_or, EStateM.Result.ok.injEq] at hok
    simp only [Option.some_or, hok.1]
  | none =>
    cases hprimitive : t.primitive? name with
    | none => simp [hname, hprimitive] at hok
    | some found =>
      simp only [hname, hprimitive, Option.none_or, EStateM.Result.ok.injEq] at hok
      obtain ⟨rfl, rfl⟩ := hok
      have hform := hretains.form? _ _ (form?_of_find? hprimitive) rfl
      have hfound : t''.primitive? name = some found := hretains.canonical.find? hform rfl
      simp only [hfound, Option.none_or]

/-- What was put together once is found again. -/
theorem assemble_again {ids : List TypeId} (hok : e.assemble ids t = .ok id t')
    (hretains : t'.Retains t'') : e.assemble ids t'' = .ok id t'' := by
  have hcanonical := hretains.canonical
  unfold assemble at hok ⊢
  split at hok
  · exact hcanonical.internPointer (hretains.form? _ _ (form?_of_internPointer hok) rfl)
  · obtain ⟨harity, hform⟩ := internGeneric_eq_ok (internSlice_eq_ok hok)
    have hretains₀ := hretains.of_extends ((internSlice_moves _).ok hok)
    exact hcanonical.internSlice (hretains.form? _ _ hform rfl)
      ((hretains₀.generics _).trans harity)
  · have hok := mapError_eq_ok.mp hok
    obtain ⟨harity, hform⟩ := internGeneric_eq_ok hok
    have hretains₀ := hretains.of_extends ((internGeneric_moves _ _).ok hok)
    exact mapError_eq_ok.mpr (hcanonical.internGeneric (hretains.form? _ _ hform rfl)
      ((hretains₀.generics _).trans harity))
  · exact hcanonical.internFunction (hretains.form? _ _ (form?_of_internFunction hok) rfl)
  · exact hcanonical.internFunction (hretains.form? _ _ (form?_of_internFunction hok) rfl)
  · have hok := mapError_eq_ok.mp hok
    exact mapError_eq_ok.mpr
      (hcanonical.internRecord (hretains.form? _ _ (form?_of_internRecord hok) rfl))
  · exact (throw_eq_ok.mp hok).elim

theorem resolution_again :
    (∀ (e : TypeExpr) (t t' t'' : TypeTable) (id : TypeId),
      e.resolveConcrete names t = .ok id t' → t'.Retains t'' →
        e.resolveConcrete names t'' = .ok id t'') ∧
    ∀ (es : List TypeExpr) (t t' t'' : TypeTable) (ids : List TypeId),
      resolveAll names es t = .ok ids t' → t'.Retains t'' →
        resolveAll names es t'' = .ok ids t'' := by
  refine parts_induction ?auto ?named ?compound ?nil ?cons
  case auto =>
    intro t t' t'' id hok _
    rw [resolveConcrete] at hok
    exact (throw_eq_ok.mp hok).elim
  case named =>
    intro name t t' t'' id hok hretains
    rw [resolveConcrete] at hok ⊢
    exact resolveName_again hok hretains
  case compound =>
    intro e he hparts t t' t'' id hok hretains
    rw [resolveConcrete_compound names he] at hok ⊢
    obtain ⟨ids, t₁, hids, hok⟩ := bind_eq_ok.mp hok
    have hretains₁ := hretains.of_extends ((assemble_moves e ids).ok hok)
    rw [bind_of_ok (hparts t t₁ t'' ids hids hretains₁)]
    exact assemble_again hok hretains
  case nil =>
    intro t t' t'' ids hok _
    rw [resolveAll] at hok ⊢
    exact pure_eq_ok.mpr ⟨(pure_eq_ok.mp hok).1, rfl⟩
  case cons =>
    intro e es he hes t t' t'' ids hok hretains
    rw [resolveAll] at hok ⊢
    obtain ⟨first, t₁, hfirst, hok⟩ := bind_eq_ok.mp hok
    obtain ⟨rest, t₂, hrest, hok⟩ := bind_eq_ok.mp hok
    obtain ⟨rfl, rfl⟩ := pure_eq_ok.mp hok
    have hretains₁ := hretains.of_extends ((resolveAll_moves names es).ok hrest)
    rw [bind_of_ok (he t t₁ t'' first hfirst hretains₁),
      bind_of_ok (hes t₁ t₂ t'' rest hrest hretains)]
    rfl

/-- **What was resolved once is found again**, and nothing is added. -/
theorem resolveConcrete_again (e : TypeExpr) (hok : e.resolveConcrete names t = .ok id t')
    (hretains : t'.Retains t'') : e.resolveConcrete names t'' = .ok id t'' :=
  resolution_again.1 e t t' t'' id hok hretains

theorem resolve_again (hok : e.resolve names t = .ok id t') (hretains : t'.Retains t'') :
    e.resolve names t'' = .ok id t'' := by
  unfold resolve at hok ⊢
  split at hok
  · rw [if_pos ‹_›]
    exact pure_eq_ok.mpr ⟨(pure_eq_ok.mp hok).1, rfl⟩
  · rw [if_neg ‹_›]
    exact resolveConcrete_again e hok hretains

/-! ## Reading a type off its id -/

/-- Slices are written as slices, not as `[]` applied to a type by name. -/
def WritesSlices (e : TypeExpr) : Prop := ∀ args, ¬ e.Has (.generic Form.sliceName args)

theorem WritesSlices.of_mem_parts {part : TypeExpr} (h : e.WritesSlices) (hpart : part ∈ e.parts) :
    part.WritesSlices := fun args hhas => h args (.head hpart hhas)

theorem WritesSlices.ne (h : e.WritesSlices) (args : List TypeExpr) :
    e ≠ .generic Form.sliceName args := by
  rintro rfl
  exact h args .refl

theorem writesSlices_of_parts (hne : ∀ args, e ≠ .generic Form.sliceName args)
    (h : ∀ part ∈ e.parts, part.WritesSlices) : e.WritesSlices := by
  intro args hhas
  obtain heq | ⟨part, hpart, hrest⟩ := ReflTransGen.cases_head hhas
  · exact hne args heq
  · exact h part hpart args hrest

/-- What a compound type, the types of its parts and its form have to do with each other. -/
inductive Shapes : TypeExpr → List TypeId → Form → Prop
  | pointer (base : TypeExpr) (id : TypeId) : Shapes (.pointer base) [id] (.pointer id)
  | slice (element : TypeExpr) (id : TypeId) :
    Shapes (.slice element) [id] (.generic Form.sliceName [id])
  | generic (name : String) (args : List TypeExpr) (ids : List TypeId) :
    Shapes (.generic name args) ids (.generic name ids)
  | procedure (params : List TypeExpr) (ids : List TypeId) :
    Shapes (.function params none) ids (.function ids .noValue)
  | function (params : List TypeExpr) (result : TypeExpr) (ids : List TypeId) (id : TypeId) :
    Shapes (.function params (some result)) (ids ++ [id]) (.function ids id)
  | record (fields : List (String × TypeExpr)) (ids : List (String × TypeId))
    (h : fields.map (·.1) = ids.map (·.1)) : Shapes (.record fields) (ids.map (·.2)) (.record ids)

theorem shapes_of_form? {ids : List TypeId} {form : Form} (h : e.form? ids = some form)
    (hlength : e.parts.length = ids.length) : Shapes e ids form := by
  cases e with
  | auto | named => cases h
  | pointer base =>
    obtain _ | ⟨id, _ | _⟩ := ids <;> cases h
    exact .pointer base id
  | slice element =>
    obtain _ | ⟨id, _ | _⟩ := ids <;> cases h
    exact .slice element id
  | generic name args =>
    cases h
    exact .generic name args ids
  | function params result =>
    cases result with
    | none =>
      cases h
      exact .procedure params ids
    | some result =>
      obtain ⟨last, hlast, rfl⟩ := Option.map_eq_some_iff.mp h
      have happend := List.dropLast_append_getLast? last hlast
      exact happend ▸ by simpa using Shapes.function params result ids.dropLast last
  | record fields =>
    cases h
    have hlength : (fields.map (·.1)).length = ids.length := by simpa [parts] using hlength
    have hfirst : ((fields.map (·.1)).zip ids).map (·.1) = _ := List.map_fst_zip hlength.le
    have hsecond : ((fields.map (·.1)).zip ids).map (·.2) = ids := List.map_snd_zip hlength.ge
    have hrecord := Shapes.record fields _ hfirst.symm
    rwa [hsecond] at hrecord

theorem eq_of_names_of_types {fields fields' : List (String × TypeExpr)}
    (hnames : fields.map (·.1) = fields'.map (·.1))
    (htypes : fields.map (·.2) = fields'.map (·.2)) : fields = fields' := by
  rw [← List.zip_unzip fields, ← List.zip_unzip fields']
  simp only [List.unzip_fst, List.unzip_snd, hnames, htypes]

/-- Two compound types of one form have parts of the same types, and differ at most in these parts.
No part is without a value, so a function without a result is none whose result is written. -/
theorem Shapes.eq {ids ids' : List TypeId} {form : Form} (h : Shapes e ids form)
    (h' : Shapes e' ids' form) (hvalue : .noValue ∉ ids) (hvalue' : .noValue ∉ ids')
    (hslice : e.WritesSlices) (hslice' : e'.WritesSlices) :
    ids = ids' ∧ (e.parts = e'.parts → e = e') := by
  cases h with
  | pointer =>
    cases h'
    exact ⟨rfl, by simp [parts]⟩
  | slice =>
    cases h' with
    | slice => exact ⟨rfl, by simp [parts]⟩
    | generic name args => exact absurd rfl (hslice'.ne args)
  | generic name args =>
    cases h' with
    | slice => exact absurd rfl (hslice.ne args)
    | generic => exact ⟨rfl, by simp [parts]⟩
  | procedure =>
    cases h' with
    | procedure => exact ⟨rfl, by simp [parts]⟩
    | function => exact absurd (List.mem_append_right _ (List.mem_singleton.mpr rfl)) hvalue'
  | function =>
    cases h' with
    | procedure => exact absurd (List.mem_append_right _ (List.mem_singleton.mpr rfl)) hvalue
    | function => exact ⟨rfl, by simp [parts]⟩
  | record fields _ hnames =>
    cases h' with
    | record fields' _ hnames' =>
      exact ⟨rfl, fun hparts =>
        congrArg TypeExpr.record (eq_of_names_of_types (hnames.trans hnames'.symm) hparts)⟩

theorem DenotesAll.eq {es es' : List TypeExpr} {ids : List TypeId}
    (hlength : es.length = ids.length) (h' : DenotesAll names t es' ids)
    (heq : ∀ pair ∈ es.zip ids, ∀ e' ∈ es', Denotes names t e' pair.2 → pair.1 = e') :
    es = es' := by
  refine List.ext_getElem (hlength.trans h'.length.symm) fun i hi hi' => ?_
  have hids : i < ids.length := hlength ▸ hi
  have hpair : (es[i], ids[i]) ∈ es.zip ids :=
    List.mem_iff_getElem.mpr ⟨i, by simpa using ⟨hi, hids⟩, by simp⟩
  have hpair' : (es'[i], ids[i]) ∈ es'.zip ids :=
    List.mem_iff_getElem.mpr ⟨i, by simpa using ⟨hi', hids⟩, by simp⟩
  exact heq _ hpair _ (List.getElem_mem hi') (h'.pairs _ hpair')

namespace Denotes

/-- The later table has the forms that a written type is put together from. -/
theorem retains (hretains : t.Retains t') (h : Denotes names t e id) : Denotes names t' e id := by
  induction h with
  | declared h => exact .declared h
  | primitive h => exact .primitive (hretains.form? _ _ h rfl)
  | compound hids hform hlength _ ih =>
    exact .compound hids
      (hretains.form? _ _ hform (composes_of_form? hids hlength).declared) hlength ih

/-- What is written is a type with values: no sentinel is. -/
theorem form?_ne (hnames : names.DeclaredIn t) (h : Denotes names t e id) :
    t.form? id ≠ some .auto ∧ t.form? id ≠ some .noValue := by
  cases h with
  | declared h =>
    obtain ⟨fields, hform⟩ := hnames _ _ h
    simp [hform]
  | primitive h => simp [h]
  | compound hids hform hlength =>
    rw [hform]
    cases shapes_of_form? hids hlength <;> simp

theorem noValue_notMem (hcanonical : t.Canonical) (hnames : names.DeclaredIn t)
    {es : List TypeExpr} {ids : List TypeId} (h : DenotesAll names t es ids) : .noValue ∉ ids := by
  intro hmem
  obtain ⟨e, -, he⟩ := h.exists_type hmem
  exact (he.form?_ne hnames).2 hcanonical.noValue

/-- A declared struct and a primitive type are written by their name. -/
theorem eq_named (hnames : names.DeclaredIn t) (h : Denotes names t e id) {name : String}
    (hform : t.form? id = some (.primitive name) ∨
      ∃ fields, t.form? id = some (.declared name fields)) : e = .named name := by
  cases h with
  | declared h =>
    obtain ⟨fields, hbound⟩ := hnames _ _ h
    simp_all
  | primitive h => simp_all
  | compound hids hcompound hlength =>
    cases shapes_of_form? hids hlength <;> simp [hcompound] at hform

/-- **A type is written in one way.** -/
theorem inj (hcanonical : t.Canonical) (hnames : names.DeclaredIn t) (h : Denotes names t e id)
    (h' : Denotes names t e' id) (hslice : e.WritesSlices) (hslice' : e'.WritesSlices) :
    e = e' := by
  induction h generalizing e' with
  | declared h => exact (h'.eq_named hnames (.inr (hnames _ _ h))).symm
  | primitive hform => exact (h'.eq_named hnames (.inl hform)).symm
  | @compound e ids id form hids hform hlength hparts ih =>
    have h : Denotes names t e id := .compound hids hform hlength hparts
    cases h' with
    | declared h' => exact h.eq_named hnames (.inr (hnames _ _ h'))
    | primitive hform' => exact h.eq_named hnames (.inl hform')
    | compound hids' hform' hlength' hparts' =>
      cases hform.symm.trans hform'
      obtain ⟨rfl, heq⟩ := (shapes_of_form? hids hlength).eq (shapes_of_form? hids' hlength')
        (noValue_notMem hcanonical hnames ⟨hlength, hparts⟩)
        (noValue_notMem hcanonical hnames ⟨hlength', hparts'⟩) hslice hslice'
      refine heq (DenotesAll.eq hlength ⟨hlength', hparts'⟩ ?_)
      intro pair hpair part hpart hdenotes
      exact ih pair hpair hdenotes (hslice.of_mem_parts (List.of_mem_zip hpair).1)
        (hslice'.of_mem_parts hpart)

end Denotes

/-! ## Ids and types -/

theorem resolve_eq_ok (h : e.resolve names t = .ok id t') :
    e = .auto ∧ id = .auto ∧ t' = t ∨ e ≠ .auto ∧ e.resolveConcrete names t = .ok id t' := by
  unfold resolve at h
  split at h
  · obtain ⟨rfl, rfl⟩ := pure_eq_ok.mp h
    cases e <;> simp_all [isAuto]
  · cases e <;> simp_all [isAuto]

/-- A type that was resolved has its id for good, and no other type has it. -/
theorem id_eq_iff_of_retains (hnames : names.DeclaredIn t'') (hok : e.resolve names t = .ok id t')
    (hretains : t'.Retains t'') {id' : TypeId} {t₃ : TypeTable}
    (hok' : e'.resolve names t'' = .ok id' t₃) (hslice : e.WritesSlices)
    (hslice' : e'.WritesSlices) : id = id' ↔ e = e' := by
  constructor
  · rintro rfl
    have hextends : t''.Extends t₃ := (resolve_moves names e').ok hok'
    have hretains₃ := hretains.extends hextends
    have hnames₃ : names.DeclaredIn t₃ := fun name id hid => by
      obtain ⟨fields, hform⟩ := hnames name id hid
      exact ⟨fields, hextends.form? hform⟩
    have hauto := hretains₃.canonical.auto
    obtain ⟨rfl, rfl, rfl⟩ | ⟨-, hconcrete⟩ := resolve_eq_ok hok
    · obtain ⟨rfl, -⟩ | ⟨-, hconcrete'⟩ := resolve_eq_ok hok'
      · rfl
      · exact absurd hauto ((resolveConcrete_means e' hconcrete').1.form?_ne hnames₃).1
    · have hdenotes := (resolveConcrete_means e hconcrete).1.retains hretains₃
      obtain ⟨rfl, rfl, rfl⟩ | ⟨-, hconcrete'⟩ := resolve_eq_ok hok'
      · exact absurd hauto (hdenotes.form?_ne hnames₃).1
      · exact hdenotes.inj hretains₃.canonical hnames₃ (resolveConcrete_means e' hconcrete').1
          hslice hslice'
  · rintro rfl
    have hagain := resolve_again hok hretains
    exact (EStateM.Result.ok.inj (hagain.symm.trans hok')).1

/-- **Types are equal exactly if their ids are.** Let names be bound to declared structs that bear
them, and let a type be resolved. Whatever is then done to the table, successful or not, as long as
the generics take as many arguments as before: resolving the type again returns its id and adds
nothing; and a type that is resolved now has that id exactly if it is the same type. -/
theorem id_eq_iff_type_eq (ht : t.Reachable) (hnames : names.DeclaredIn t) (hslice : e.WritesSlices)
    {t₁ t₂ : TypeTable} (hok : e.resolve names t = .ok id t₁) {ops : List Op}
    (hops : ops.foldl Op.apply t₁ = t₂)
    (hgenerics : ∀ name, t₂.generics.get? name = t₁.generics.get? name) :
    e.resolve names t₂ = .ok id t₂ ∧
      ∀ e' id' t₃, e'.WritesSlices → e'.resolve names t₂ = .ok id' t₃ →
        (id = id' ↔ e = e') ∧ e.resolve names t₃ = .ok id t₃ := by
  subst hops
  have hextends : t.Extends t₁ := (resolve_moves names e).ok hok
  have hretains := (ht.canonical.extends hextends).retains_foldl hgenerics
  have hnames₂ : names.DeclaredIn (ops.foldl Op.apply t₁) := fun name id hid => by
    obtain ⟨fields, hform⟩ := hnames name id hid
    exact declared_foldl_apply ops (hextends.form? hform)
  refine ⟨resolve_again hok hretains, fun e' id' t₃ hslice' hok' => ⟨?_, ?_⟩⟩
  · exact id_eq_iff_of_retains hnames₂ hok hretains hok' hslice hslice'
  · exact resolve_again hok (hretains.extends ((resolve_moves names e').ok hok'))

/-- Functions of a node and a list of numbers, without a result. -/
def nodeVisitor : TypeExpr := .function [.pointer (.named "Node"), .slice (.named "f64")] none

/-- The same, but they return a number. -/
def nodeMeasure : TypeExpr :=
  .function [.pointer (.named "Node"), .slice (.named "f64")] (some (.named "f64"))

/-- Nodes, not yet with fields, and numbers. -/
def pendingNode : TypeTable :=
  [.primitive "f64", .reserve "Node"].foldl Op.apply (new Generics.standard)

/-- The nodes are given their fields, a record and a second attempt at the fields are refused, and a
primitive type is added. -/
def nodeChanges : List Op :=
  [.fill ⟨3⟩ [("next", ⟨4⟩)], .record [("x", ⟨2⟩), ("x", ⟨2⟩)], .fill ⟨3⟩ [], .primitive "i32"]

theorem writesSlices_nodeMeasure : nodeMeasure.WritesSlices := by
  have hnamed : ∀ name, (named name).WritesSlices := fun name =>
    writesSlices_of_parts (by simp) (by simp [parts])
  have hpointer : (pointer (.named "Node")).WritesSlices :=
    writesSlices_of_parts (by simp) (by simpa [parts] using hnamed "Node")
  have hslice : (slice (.named "f64")).WritesSlices :=
    writesSlices_of_parts (by simp) (by simpa [parts] using hnamed "f64")
  exact writesSlices_of_parts (by simp [nodeMeasure])
    (by simpa [nodeMeasure, parts] using ⟨hpointer, hslice, hnamed "f64"⟩)

theorem writesSlices_nodeVisitor : nodeVisitor.WritesSlices :=
  writesSlices_of_parts (by simp [nodeVisitor]) fun _ hpart =>
    writesSlices_nodeMeasure.of_mem_parts (List.mem_append_left _ hpart)

/-- The two are told apart, whatever happens to the table between them. -/
theorem id_eq_iff_type_eq_nodeVisitor :
    pendingNode.Reachable ∧ Names.DeclaredIn ⟨[("Node", ⟨3⟩)]⟩ pendingNode ∧
      ∃ t₁ t₂ t₃, nodeVisitor.resolve ⟨[("Node", ⟨3⟩)]⟩ pendingNode = .ok ⟨6⟩ t₁ ∧
        nodeChanges.foldl Op.apply t₁ = t₂ ∧
        nodeMeasure.resolve ⟨[("Node", ⟨3⟩)]⟩ t₂ = .ok ⟨8⟩ t₃ ∧
        ((⟨6⟩ : TypeId) = ⟨8⟩ ↔ nodeVisitor = nodeMeasure) ∧
        nodeVisitor.resolve ⟨[("Node", ⟨3⟩)]⟩ t₃ = .ok ⟨6⟩ t₃ := by
  have hreachable : pendingNode.Reachable := (Reachable.new _).foldl _
  have hnames : Names.DeclaredIn ⟨[("Node", ⟨3⟩)]⟩ pendingNode := by
    intro name id hid
    obtain rfl | hne := eq_or_ne name "Node"
    · cases hid
      exact ⟨[], rfl⟩
    · simp [NameMap.get?, List.lookup_cons, beq_false_of_ne hne] at hid
  refine ⟨hreachable, hnames, _, _, _, rfl, rfl, rfl, ?_⟩
  exact (id_eq_iff_type_eq hreachable hnames writesSlices_nodeVisitor rfl
    (rfl : nodeChanges.foldl Op.apply _ = _) fun _ => rfl).2 _ _ _ writesSlices_nodeMeasure rfl

end TypeExpr

end RuleTypes
