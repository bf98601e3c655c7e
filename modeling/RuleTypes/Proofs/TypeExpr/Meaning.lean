import RuleTypes.Proofs.TypeTable.Failures
import RuleTypes.Proofs.TypeTable.Layout

/-!
# What written types mean

A written type resolves exactly if each of its parts is put together as its outermost symbol asks
(`exists_resolveConcrete_iff`). The type that it resolves to is put together the same way
(`Denotes`): what a written type mentions, the type mentions, and what it holds by value, the type
holds by value; and the other way round, down to declared structs.
-/

namespace RuleTypes

open Relation TypeTable

namespace TypeExpr

variable {names : Names} {t t' : TypeTable} {e part : TypeExpr} {id : TypeId}
  {declared declared' : String → Prop}

/-! ## Parts -/

/-- The parts that a value holds. -/
def values : TypeExpr → List TypeExpr
  | record fields => fields.map (·.2)
  | _ => []

/-- The second type is the first or occurs in it. -/
def Has : TypeExpr → TypeExpr → Prop := ReflTransGen fun e part => part ∈ e.parts

/-- The second type is the first or is held in it by value. -/
def HasByValue : TypeExpr → TypeExpr → Prop := ReflTransGen fun e part => part ∈ e.values

theorem mem_parts_of_mem_values (h : part ∈ e.values) : part ∈ e.parts := by
  cases e with
  | record => exact h
  | _ => cases h

theorem HasByValue.has (h : e.HasByValue part) : e.Has part :=
  ReflTransGen.mono (fun _ _ => mem_parts_of_mem_values) _ _ h

/-- What its outermost symbol asks of a written type: a name is declared or that of a primitive
type, a generic has as many arguments as it takes, and the fields of a record have names that can
stand together. -/
def WellShaped (t : TypeTable) (declared : String → Prop) : TypeExpr → Prop
  | auto => False
  | named name => declared name ∨ (t.primitive? name).isSome = true
  | pointer _ | slice _ | function _ _ => True
  | generic name args => t.generics.get? name = some args.length
  | record fields => FieldNames (fields.map (·.1))

/-- Every part of a written type is put together as it should be. -/
def Resolvable (t : TypeTable) (declared : String → Prop) (e : TypeExpr) : Prop :=
  ∀ part, e.Has part → part.WellShaped t declared

theorem Resolvable.of_mem_parts (h : e.Resolvable t declared) (hpart : part ∈ e.parts) :
    part.Resolvable t declared := fun other hother => h other (.head hpart hother)

theorem resolvable_of_parts (hshape : e.WellShaped t declared)
    (h : ∀ part ∈ e.parts, part.Resolvable t declared) : e.Resolvable t declared := by
  intro part hpart
  obtain rfl | ⟨next, hnext, hrest⟩ := ReflTransGen.cases_head hpart
  · exact hshape
  · exact h next hnext part hrest

theorem WellShaped.mono (hdeclared : ∀ name, e = .named name → declared name → declared' name)
    (hbasis : t.SameBasis t') (h : e.WellShaped t declared) : e.WellShaped t' declared' := by
  cases e with
  | auto | pointer | slice | function | record => exact h
  | named name =>
    change declared' name ∨ (t'.primitive? name).isSome = true
    rw [hbasis.primitive? name]
    exact h.imp_left (hdeclared name rfl)
  | generic name args => exact (congrArg (NameMap.get? · name) hbasis.generics).trans h

theorem Resolvable.mono (hdeclared : ∀ name, e.Has (.named name) → declared name → declared' name)
    (hbasis : t.SameBasis t') (h : e.Resolvable t declared) : e.Resolvable t' declared' :=
  fun part hpart => (h part hpart).mono (fun name heq => hdeclared name (heq ▸ hpart)) hbasis

theorem WellShaped.of_basis (hbasis : t.SameBasis t') (h : e.WellShaped t' declared) :
    e.WellShaped t declared :=
  h.mono (fun _ _ hname => hname) ⟨fun name => (hbasis.primitive? name).symm, hbasis.generics.symm⟩

theorem Resolvable.of_basis (hbasis : t.SameBasis t') (h : e.Resolvable t' declared) :
    e.Resolvable t declared := fun part hpart => (h part hpart).of_basis hbasis

/-! ## Denotation -/

/-- The written type means the type, where names mean what they are bound to. -/
inductive Denotes (names : Names) (t : TypeTable) : TypeExpr → TypeId → Prop
  | declared {name : String} {id : TypeId} (h : names.get? name = some id) :
      Denotes names t (.named name) id
  | primitive {name : String} {id : TypeId} (h : t.form? id = some (.primitive name)) :
      Denotes names t (.named name) id
  | compound {e : TypeExpr} {ids : List TypeId} {id : TypeId} {form : Form}
      (hids : e.form? ids = some form) (hform : t.form? id = some form)
      (hlength : e.parts.length = ids.length)
      (h : ∀ pair ∈ e.parts.zip ids, Denotes names t pair.1 pair.2) : Denotes names t e id

/-- The same for a list of types. -/
structure DenotesAll (names : Names) (t : TypeTable) (es : List TypeExpr) (ids : List TypeId) :
    Prop where
  length : es.length = ids.length
  pairs : ∀ pair ∈ es.zip ids, Denotes names t pair.1 pair.2

theorem DenotesAll.nil : DenotesAll names t [] [] := ⟨rfl, nofun⟩

theorem DenotesAll.cons {es : List TypeExpr} {ids : List TypeId} (hfirst : Denotes names t e id)
    (hrest : DenotesAll names t es ids) : DenotesAll names t (e :: es) (id :: ids) := by
  refine ⟨congrArg (· + 1) hrest.length, fun pair hpair => ?_⟩
  obtain rfl | hpair := List.mem_cons.mp hpair
  · exact hfirst
  · exact hrest.pairs pair hpair

theorem DenotesAll.append {es es' : List TypeExpr} {ids ids' : List TypeId}
    (h : DenotesAll names t es ids) (h' : DenotesAll names t es' ids') :
    DenotesAll names t (es ++ es') (ids ++ ids') := by
  refine ⟨by simp [h.length, h'.length], fun pair hpair => ?_⟩
  rw [List.zip_append h.length] at hpair
  obtain hpair | hpair := List.mem_append.mp hpair
  · exact h.pairs pair hpair
  · exact h'.pairs pair hpair

theorem DenotesAll.exists_id {es : List TypeExpr} {ids : List TypeId}
    (h : DenotesAll names t es ids) (he : e ∈ es) : ∃ id ∈ ids, Denotes names t e id := by
  obtain ⟨i, hi, rfl⟩ := List.mem_iff_getElem.mp he
  have hi' : i < ids.length := h.length ▸ hi
  refine ⟨ids[i], List.getElem_mem hi', h.pairs (es[i], ids[i]) ?_⟩
  exact List.mem_iff_getElem.mpr ⟨i, by simpa using ⟨hi, hi'⟩, by simp⟩

theorem DenotesAll.exists_type {es : List TypeExpr} {ids : List TypeId}
    (h : DenotesAll names t es ids) (hid : id ∈ ids) : ∃ e ∈ es, Denotes names t e id := by
  obtain ⟨i, hi, rfl⟩ := List.mem_iff_getElem.mp hid
  have hi' : i < es.length := h.length ▸ hi
  refine ⟨es[i], List.getElem_mem hi', h.pairs (es[i], ids[i]) ?_⟩
  exact List.mem_iff_getElem.mpr ⟨i, by simpa using ⟨hi', hi⟩, by simp⟩

/-- How the form of a compound type is made of the types of its parts. -/
structure Composes (e : TypeExpr) (ids : List TypeId) (form : Form) : Prop where
  declared : form.isDeclared = false
  components : form.components = ids ∨ form.components = ids ++ [.noValue]
  values : heldByValue form = ids ∧ e.values = e.parts ∨ heldByValue form = [] ∧ e.values = []

theorem composes_of_form? {ids : List TypeId} {form : Form} (h : e.form? ids = some form)
    (hlength : e.parts.length = ids.length) : Composes e ids form := by
  obtain ⟨hstructural, hcomponents⟩ := components_of_form? h hlength
  refine ⟨Form.isDeclared_eq_false hstructural, hcomponents, ?_⟩
  cases e with
  | auto | named => cases h
  | pointer base | slice element =>
    obtain _ | ⟨id, _ | _⟩ := ids <;> cases h
    exact .inr ⟨rfl, rfl⟩
  | generic name args =>
    cases h
    exact .inr ⟨rfl, rfl⟩
  | function params result =>
    cases result with
    | none =>
      cases h
      exact .inr ⟨rfl, rfl⟩
    | some result =>
      obtain ⟨last, -, rfl⟩ := Option.map_eq_some_iff.mp h
      exact .inr ⟨rfl, rfl⟩
  | record fields =>
    cases h
    exact .inl ⟨List.map_snd_zip (by simpa [parts] using hlength.ge), rfl⟩

namespace Denotes

/-- A type that is not a declared struct keeps its form, so it keeps its meaning. -/
theorem grows (hgrows : t.Grows t') (h : Denotes names t e id) : Denotes names t' e id := by
  induction h with
  | declared h => exact .declared h
  | primitive h => exact .primitive (hgrows.form? h rfl)
  | compound hids hform hlength _ ih =>
    exact .compound hids (hgrows.form? hform (composes_of_form? hids hlength).declared) hlength ih

/-- Only the names that a written type mentions matter to what it denotes. -/
theorem of_names {names' : Names} (hnames : ∀ name id, e.Has (.named name) →
      names.get? name = some id → names'.get? name = some id)
    (h : Denotes names t e id) : Denotes names' t e id := by
  induction h with
  | declared h => exact .declared (hnames _ _ .refl h)
  | primitive h => exact .primitive h
  | compound hids hform hlength _ ih =>
    refine .compound hids hform hlength fun pair hpair => ih pair hpair fun name id hhas => ?_
    exact hnames name id (.head (List.of_mem_zip hpair).1 hhas)

theorem issued (hnames : ∀ name id, names.get? name = some id → id.index < t.size)
    (h : Denotes names t e id) : id.index < t.size := by
  cases h with
  | declared h => exact hnames _ _ h
  | primitive h => exact form?_eq_some_lt h
  | compound _ hform => exact form?_eq_some_lt hform

/-- A declared name that is not that of a primitive type means what it is bound to. -/
theorem eq_of_named {name : String} {bound : TypeId} (h : Denotes names t (.named name) id)
    (hbound : names.get? name = some bound) (hfree : t.primitive? name = none) : id = bound := by
  cases h with
  | declared h => exact Option.some.inj (h.symm.trans hbound)
  | primitive h => exact absurd h ((find?_eq_none_iff rfl).mp hfree id)
  | compound hids => cases hids

/-- A written signature denotes the one that is made of what its parts denote. -/
theorem function {params : List TypeExpr} {result : Option TypeExpr} {ids : List TypeId}
    {last : TypeId} (hparams : DenotesAll names t params ids)
    (hresult : result = none ∧ last = .noValue ∨ ∃ e, result = some e ∧ Denotes names t e last)
    (hform : t.form? id = some (.function ids last)) :
    Denotes names t (.function params result) id := by
  obtain ⟨rfl, rfl⟩ | ⟨e, rfl, he⟩ := hresult
  · rw [← List.append_nil params] at hparams
    exact .compound rfl hform hparams.length hparams.pairs
  · have hall : DenotesAll names t (params ++ [e]) (ids ++ [last]) :=
      hparams.append (.cons he .nil)
    exact .compound (by simp [form?]) hform hall.length hall.pairs

/-- A written signature denotes one with as many parameters. -/
theorem length_params {params : List TypeExpr} {result : Option TypeExpr} {ids : List TypeId}
    {last : TypeId} (h : Denotes names t (.function params result) id)
    (hform : t.form? id = some (.function ids last)) : params.length = ids.length := by
  cases h with
  | @compound _ partIds _ form hids hform' hlength =>
    obtain rfl := Option.some.inj (hform.symm.trans hform')
    cases result with
    | none =>
      obtain ⟨rfl, -⟩ : partIds = ids ∧ TypeId.noValue = last := by simpa [form?] using hids
      simpa [parts] using hlength
    | some result =>
      obtain ⟨_, -, hids⟩ := Option.map_eq_some_iff.mp hids
      obtain ⟨rfl, -⟩ := Form.function.inj hids
      simp only [parts, Option.toList_some, List.length_append, List.length_singleton] at hlength
      rw [List.length_dropLast]
      omega

/-! What a written type is made of, the type is made of. -/

theorem mentions (h : Denotes names t e id) (hpart : part ∈ e.parts) :
    ∃ partId, t.Mentions id partId ∧ Denotes names t part partId := by
  cases h with
  | declared | primitive => cases hpart
  | compound hids hform hlength h =>
    obtain ⟨partId, hmem, hpart⟩ := DenotesAll.exists_id ⟨hlength, h⟩ hpart
    refine ⟨partId, ⟨_, hform, ?_⟩, hpart⟩
    obtain hcomponents | hcomponents := (composes_of_form? hids hlength).components
    · exact hcomponents ▸ hmem
    · exact hcomponents ▸ List.mem_append_left _ hmem

theorem holds (h : Denotes names t e id) (hpart : part ∈ e.values) :
    ∃ partId, t.HoldsByValue id partId ∧ Denotes names t part partId := by
  cases h with
  | declared | primitive => cases hpart
  | compound hids hform hlength h =>
    obtain ⟨hheld, hvalues⟩ | ⟨-, hvalues⟩ := (composes_of_form? hids hlength).values
    · obtain ⟨partId, hmem, hpart⟩ := DenotesAll.exists_id ⟨hlength, h⟩ (hvalues ▸ hpart)
      exact ⟨partId, ⟨_, hform, hheld ▸ hmem⟩, hpart⟩
    · rw [hvalues] at hpart
      cases hpart

theorem mentions_of_has (h : Denotes names t e id) (hpart : e.Has part) :
    ∃ partId, ReflTransGen t.Mentions id partId ∧ Denotes names t part partId := by
  induction hpart with
  | refl => exact ⟨id, .refl, h⟩
  | tail _ hpart ih =>
    obtain ⟨mid, hmid, hdenotes⟩ := ih
    obtain ⟨partId, hmentions, hdenotes⟩ := hdenotes.mentions hpart
    exact ⟨partId, hmid.tail hmentions, hdenotes⟩

theorem holds_of_hasByValue (h : Denotes names t e id) (hpart : e.HasByValue part) :
    ∃ partId, ReflTransGen t.HoldsByValue id partId ∧ Denotes names t part partId := by
  induction hpart with
  | refl => exact ⟨id, .refl, h⟩
  | tail _ hpart ih =>
    obtain ⟨mid, hmid, hdenotes⟩ := ih
    obtain ⟨partId, hholds, hdenotes⟩ := hdenotes.holds hpart
    exact ⟨partId, hmid.tail hholds, hdenotes⟩

/-! What a type is made of, its written type is made of, unless it is a declared struct. -/

theorem part_of_mentions (hnames : ∀ name id, names.get? name = some id →
      ∃ fields, t.form? id = some (.declared name fields)) (h : Denotes names t e id) {form : Form}
    (hform : t.form? id = some form) (hdeclared : form.isDeclared = false) {partId : TypeId}
    (hpart : partId ∈ form.components) :
    partId = .noValue ∨ ∃ part ∈ e.parts, Denotes names t part partId := by
  cases h with
  | declared h =>
    obtain ⟨fields, hfields⟩ := hnames _ _ h
    cases hform.symm.trans hfields
    cases hdeclared
  | primitive h =>
    cases hform.symm.trans h
    cases hpart
  | compound hids hform' hlength h =>
    cases hform.symm.trans hform'
    obtain hcomponents | hcomponents := (composes_of_form? hids hlength).components
    · exact .inr (DenotesAll.exists_type ⟨hlength, h⟩ (hcomponents ▸ hpart))
    · rw [hcomponents] at hpart
      obtain hpart | hpart := List.mem_append.mp hpart
      · exact .inr (DenotesAll.exists_type ⟨hlength, h⟩ hpart)
      · exact .inl (List.mem_singleton.mp hpart)

theorem value_of_holds (hnames : ∀ name id, names.get? name = some id →
      ∃ fields, t.form? id = some (.declared name fields)) (h : Denotes names t e id) {form : Form}
    (hform : t.form? id = some form) (hdeclared : form.isDeclared = false) {partId : TypeId}
    (hpart : partId ∈ heldByValue form) : ∃ part ∈ e.values, Denotes names t part partId := by
  cases h with
  | declared h =>
    obtain ⟨fields, hfields⟩ := hnames _ _ h
    cases hform.symm.trans hfields
    cases hdeclared
  | primitive h =>
    cases hform.symm.trans h
    cases hpart
  | compound hids hform' hlength h =>
    cases hform.symm.trans hform'
    obtain ⟨hheld, hvalues⟩ | ⟨hheld, -⟩ := (composes_of_form? hids hlength).values
    · rw [hvalues]
      exact DenotesAll.exists_type ⟨hlength, h⟩ (hheld ▸ hpart)
    · rw [hheld] at hpart
      cases hpart

end Denotes

theorem DenotesAll.grows {es : List TypeExpr} {ids : List TypeId} (hgrows : t.Grows t')
    (h : DenotesAll names t es ids) : DenotesAll names t' es ids :=
  ⟨h.length, fun pair hpair => (h.pairs pair hpair).grows hgrows⟩

theorem DenotesAll.of_names {names' : Names} {es : List TypeExpr} {ids : List TypeId}
    (hnames : ∀ e ∈ es, ∀ name id, e.Has (.named name) →
      names.get? name = some id → names'.get? name = some id)
    (h : DenotesAll names t es ids) : DenotesAll names' t es ids :=
  ⟨h.length, fun pair hpair =>
    (h.pairs pair hpair).of_names (hnames pair.1 (List.of_mem_zip hpair).1)⟩

/-! ## Resolution -/

/-- The types that resolution starts from were issued, and slices take one argument. -/
structure Grounded (names : Names) (t : TypeTable) : Prop where
  named : ∀ name id, names.get? name = some id → id.index < t.size
  noValue : TypeId.noValue.index < t.size
  slices : t.generics.get? Form.sliceName = some 1

theorem Grounded.extends (h : Grounded names t) (hextends : t.Extends t') :
    Grounded names t' where
  named name id hid := Nat.lt_of_lt_of_le (h.named name id hid) hextends.size_le
  noValue := Nat.lt_of_lt_of_le h.noValue hextends.size_le
  slices := hextends.generics ▸ h.slices

section Grounded

variable (h : Grounded names t)

include h

theorem Grounded.resolveConcrete (hok : e.resolveConcrete names t = .ok id t') :
    Grounded names t' :=
  h.extends ((resolveConcrete_moves _ _).ok hok)

theorem Grounded.resolveAll {es : List TypeExpr} {ids : List TypeId}
    (hok : resolveAll names es t = .ok ids t') : Grounded names t' :=
  h.extends ((resolveAll_moves _ _).ok hok)

theorem Grounded.resolveFields {fields : List (String × TypeExpr)} {ids : List (String × TypeId)}
    (hok : resolveFields names fields t = .ok ids t') : Grounded names t' :=
  h.extends ((resolveFields_moves _ _).ok hok)

end Grounded

/-- The names that mean something. -/
def Bound (names : Names) (name : String) : Prop := names.contains name = true

theorem resolveName_means {name : String} (h : resolveName names name t = .ok id t') :
    Denotes names t' (.named name) id ∧ (named name).Resolvable t (Bound names) := by
  have hresolvable : ∀ h : (named name).WellShaped t (Bound names),
      (named name).Resolvable t (Bound names) := fun h => resolvable_of_parts h nofun
  unfold resolveName at h
  cases hname : names.get? name with
  | some found =>
    simp only [hname, Option.some_or, EStateM.Result.ok.injEq] at h
    obtain ⟨rfl, rfl⟩ := h
    exact ⟨.declared hname, hresolvable (.inl (NameMap.contains_eq_true_iff.mpr ⟨_, hname⟩))⟩
  | none =>
    cases hprimitive : t.primitive? name with
    | none => simp [hname, hprimitive] at h
    | some found =>
      simp only [hname, hprimitive, Option.none_or, EStateM.Result.ok.injEq] at h
      obtain ⟨rfl, rfl⟩ := h
      exact ⟨.primitive (form?_of_find? hprimitive), hresolvable (.inr (by simp [hprimitive]))⟩

/-- A step that answers was asked for something that is put together as it should be. -/
theorem wellShaped_of_assemble {ids : List TypeId} (hlength : e.parts.length = ids.length)
    (h : e.assemble ids t = .ok id t') : e.WellShaped t declared := by
  cases e with
  | auto | named => exact (throw_eq_ok.mp h).elim
  | pointer | slice | function => trivial
  | generic name args =>
    have harity := (internGeneric_eq_ok (mapError_eq_ok.mp h)).1
    rw [← hlength] at harity
    exact harity
  | record fields =>
    have hnames := fieldNames_of_internRecord (mapError_eq_ok.mp h)
    rwa [List.map_fst_zip (by simpa [parts] using hlength.le)] at hnames

theorem resolution_means :
    (∀ (e : TypeExpr) (t t' : TypeTable) (id : TypeId), e.resolveConcrete names t = .ok id t' →
      Denotes names t' e id ∧ e.Resolvable t (Bound names)) ∧
    ∀ (es : List TypeExpr) (t t' : TypeTable) (ids : List TypeId),
      resolveAll names es t = .ok ids t' →
        DenotesAll names t' es ids ∧ ∀ e ∈ es, e.Resolvable t (Bound names) := by
  refine parts_induction ?auto ?named ?compound ?nil ?cons
  case auto =>
    intro t t' id h
    rw [resolveConcrete] at h
    exact (throw_eq_ok.mp h).elim
  case named =>
    intro name t t' id h
    rw [resolveConcrete] at h
    exact resolveName_means h
  case compound =>
    intro e he hparts t t' id h
    rw [resolveConcrete_compound names he] at h
    obtain ⟨ids, t₁, hids, h⟩ := bind_eq_ok.mp h
    obtain ⟨hdenotes, hresolvable⟩ := hparts t t₁ ids hids
    obtain ⟨form, hform, hid⟩ := form?_of_assemble hdenotes.length h
    have hdenotes' := hdenotes.grows ((assemble_moves e ids).ok h)
    have hbasis := (resolveAll_moves (R := SameBasis) names e.parts).ok hids
    refine ⟨.compound hform hid hdenotes'.length hdenotes'.pairs,
      resolvable_of_parts ?_ hresolvable⟩
    exact WellShaped.of_basis hbasis (wellShaped_of_assemble hdenotes.length h)
  case nil =>
    intro t t' ids h
    rw [resolveAll] at h
    obtain ⟨rfl, rfl⟩ := pure_eq_ok.mp h
    exact ⟨.nil, by simp⟩
  case cons =>
    intro e es he hes t t' ids h
    rw [resolveAll] at h
    obtain ⟨first, t₁, hfirst, h⟩ := bind_eq_ok.mp h
    obtain ⟨rest, t₂, hrest, h⟩ := bind_eq_ok.mp h
    obtain ⟨rfl, rfl⟩ := pure_eq_ok.mp h
    obtain ⟨hdenotes₁, hresolvable₁⟩ := he t t₁ first hfirst
    obtain ⟨hdenotes₂, hresolvable₂⟩ := hes t₁ t₂ rest hrest
    have hbasis := (resolveConcrete_moves (R := SameBasis) names e).ok hfirst
    refine ⟨.cons (hdenotes₁.grows ((resolveAll_moves _ _).ok hrest)) hdenotes₂,
      List.forall_mem_cons.mpr ⟨hresolvable₁, fun other hother => ?_⟩⟩
    exact (hresolvable₂ other hother).of_basis hbasis

/-- **A type that was resolved means what is written**, and could be resolved. -/
theorem resolveConcrete_means (e : TypeExpr) (h : e.resolveConcrete names t = .ok id t') :
    Denotes names t' e id ∧ e.Resolvable t (Bound names) := resolution_means.1 e t t' id h

theorem resolveAll_means (es : List TypeExpr) {ids : List TypeId}
    (h : resolveAll names es t = .ok ids t') :
    DenotesAll names t' es ids ∧ ∀ e ∈ es, e.Resolvable t (Bound names) :=
  resolution_means.2 es t t' ids h

theorem resolveFields_means (fields : List (String × TypeExpr)) {ids : List (String × TypeId)}
    (h : resolveFields names fields t = .ok ids t') :
    fields.map (·.1) = ids.map (·.1) ∧
      DenotesAll names t' (fields.map (·.2)) (ids.map (·.2)) ∧
      ∀ e ∈ fields.map (·.2), e.Resolvable t (Bound names) := by
  rw [resolveFields_eq] at h
  obtain ⟨types, t₁, htypes, h⟩ := bind_eq_ok.mp h
  obtain ⟨rfl, rfl⟩ := pure_eq_ok.mp h
  have hmeans := resolveAll_means _ htypes
  have hlength : fields.length = types.length := by simpa using hmeans.1.length
  rw [List.map_fst_zip (by simp [hlength]), List.map_snd_zip (by simp [hlength])]
  exact ⟨rfl, hmeans⟩

/-! ## Failures of resolution -/

/-- What resolution ends in: a problem of a type that cannot be resolved. -/
def Refused (names : Names) (t : TypeTable) (e : TypeExpr) (cause : LoadError) : Prop :=
  cause.IsProblem ∧ ¬ e.Resolvable t (Bound names)

theorem Refused.of_basis (hbasis : t.SameBasis t') {cause : LoadError}
    (h : Refused names t' e cause) : Refused names t e cause :=
  ⟨h.1, fun hresolvable => h.2 (hresolvable.mono (fun _ _ => id) hbasis)⟩

theorem Refused.of_part (hpart : part ∈ e.parts) {cause : LoadError}
    (h : Refused names t part cause) : Refused names t e cause :=
  ⟨h.1, fun hresolvable => h.2 (hresolvable.of_mem_parts hpart)⟩

theorem resolveName_safe (names : Names) (name : String) : Safe (resolveName names name) t := by
  intro cause t' h
  unfold resolveName at h
  cases hname : (names.get? name).or (t.primitive? name) <;> simp [hname] at h

theorem resolveName_refuses (names : Names) (name : String) :
    Refuses (Refused names t (.named name)) (resolveName names name) t := by
  intro cause t' h
  unfold resolveName at h
  cases hname : (names.get? name).or (t.primitive? name) with
  | some id => simp [hname] at h
  | none =>
    simp only [hname, EStateM.Result.error.injEq, Failure.error.injEq] at h
    refine ⟨⟨.unknownType name, h.1 ▸ rfl⟩, fun hresolvable => ?_⟩
    obtain ⟨hfree, hprimitive⟩ := Option.or_eq_none_iff.mp hname
    obtain hbound | hbound := hresolvable _ .refl
    · obtain ⟨id, hid⟩ := NameMap.contains_eq_true_iff.mp hbound
      cases hfree.symm.trans hid
    · simp [hprimitive] at hbound

/-- Only what is not put together as it should be is refused. -/
theorem assemble_refuses (he : e.isCompound = true) {ids : List TypeId}
    (hlength : e.parts.length = ids.length) (declared : String → Prop) :
    Refuses (fun cause => cause.IsProblem ∧ ¬ e.WellShaped t declared) (e.assemble ids) t := by
  cases e with
  | auto | named => cases he
  | pointer base =>
    obtain _ | ⟨base, _ | _⟩ := ids <;> cases hlength
    exact internPointer_refuses _
  | slice element =>
    obtain _ | ⟨element, _ | _⟩ := ids <;> cases hlength
    exact internSlice_refuses _
  | generic name args =>
    refine mapError_refuses (fun cause hcause => ⟨hcause.1, fun hshape => hcause.2 ?_⟩)
      (internGeneric_refuses name ids)
    rw [← hlength]
    exact hshape
  | function params result => cases result <;> exact internFunction_refuses _ _
  | record fields =>
    refine mapError_refuses (fun cause hcause => ⟨hcause.1, fun hshape => hcause.2 ?_⟩)
      (internRecord_refuses _)
    rw [List.map_fst_zip (by simpa [parts] using hlength.le)]
    exact hshape

theorem resolution_refuses :
    (∀ (e : TypeExpr) (t : TypeTable), Refuses (Refused names t e) (e.resolveConcrete names) t) ∧
    ∀ (es : List TypeExpr) (t : TypeTable),
      Refuses (fun cause => ∃ e ∈ es, Refused names t e cause) (resolveAll names es) t := by
  refine parts_induction ?auto ?named ?compound ?nil ?cons
  case auto =>
    intro t
    rw [resolveConcrete]
    exact .throw ⟨⟨_, rfl⟩, fun h => h _ .refl⟩
  case named =>
    intro name t
    rw [resolveConcrete]
    exact resolveName_refuses names name
  case compound =>
    intro e he hparts t
    rw [resolveConcrete_compound names he]
    refine .bind ((hparts t).mono fun cause hcause => ?_) fun ids t₁ hids => ?_
    · obtain ⟨part, hpart, hrefused⟩ := hcause
      exact .of_part hpart hrefused
    · have hbasis := (resolveAll_moves (R := SameBasis) names e.parts).ok hids
      refine (assemble_refuses he (length_of_resolveAll hids) (Bound names)).mono
        fun cause hcause => ?_
      exact Refused.of_basis hbasis ⟨hcause.1, fun h => hcause.2 (h e .refl)⟩
  case nil =>
    intro t
    rw [resolveAll]
    exact .pure _
  case cons =>
    intro e es he hes t
    rw [resolveAll]
    refine .bind ((he t).mono fun cause hrefused => ⟨e, List.mem_cons_self .., hrefused⟩)
      fun id t₁ hfirst => ?_
    have hbasis := (resolveConcrete_moves (R := SameBasis) names e).ok hfirst
    refine .bind ((hes t₁).mono fun cause hcause => ?_) fun _ _ _ => .pure _
    obtain ⟨other, hother, hrefused⟩ := hcause
    exact ⟨other, List.mem_cons_of_mem _ hother, hrefused.of_basis hbasis⟩

/-- **Resolution ends only in problems of types that cannot be resolved.** -/
theorem resolveConcrete_refuses (e : TypeExpr) :
    Refuses (Refused names t e) (e.resolveConcrete names) t := resolution_refuses.1 e t

theorem resolveAll_refuses (es : List TypeExpr) :
    Refuses (fun cause => ∃ e ∈ es, Refused names t e cause) (resolveAll names es) t :=
  resolution_refuses.2 es t

theorem resolveFields_refuses (fields : List (String × TypeExpr)) :
    Refuses (fun cause => ∃ e ∈ fields.map (·.2), Refused names t e cause)
      (resolveFields names fields) t := by
  rw [resolveFields_eq]
  exact .bind (resolveAll_refuses _) fun _ _ _ => .pure _

/-! The types that resolution starts from were issued, so it asks for no others. -/

theorem Grounded.issued (h : Grounded names t) (hdenotes : Denotes names t e id) :
    id.index < t.size := hdenotes.issued h.named

theorem Grounded.issuedAll (h : Grounded names t) {es : List TypeExpr} {ids : List TypeId}
    (hdenotes : DenotesAll names t es ids) : ∀ id ∈ ids, id.index < t.size := by
  intro id hid
  obtain ⟨e, -, he⟩ := hdenotes.exists_type hid
  exact h.issued he

theorem Grounded.assemble_safe (h : Grounded names t) (e : TypeExpr) {ids : List TypeId}
    (hids : ∀ id ∈ ids, id.index < t.size) : Safe (e.assemble ids) t := by
  unfold assemble
  split
  · exact internPointer_safe (hids _ (List.mem_singleton.mpr rfl))
  · exact internSlice_safe h.slices (hids _ (List.mem_singleton.mpr rfl))
  · exact mapError_safe (internGeneric_safe hids _)
  · exact internFunction_safe hids h.noValue
  · refine internFunction_safe (fun id hid => hids id (List.dropLast_subset _ hid)) ?_
    rw [List.getLastD_eq_getLast?]
    cases hlast : ids.getLast? with
    | none => exact h.noValue
    | some last => exact hids last (List.mem_of_getLast? hlast)
  · exact mapError_safe (internRecord_safe fun field hfield => hids _ (List.of_mem_zip hfield).2)
  · exact .throw _

theorem resolution_safe :
    (∀ (e : TypeExpr) (t : TypeTable), Grounded names t → Safe (e.resolveConcrete names) t) ∧
    ∀ (es : List TypeExpr) (t : TypeTable), Grounded names t → Safe (resolveAll names es) t := by
  refine parts_induction ?auto ?named ?compound ?nil ?cons
  case auto =>
    intro t _
    rw [resolveConcrete]
    exact .throw _
  case named =>
    intro name t _
    rw [resolveConcrete]
    exact resolveName_safe names name
  case compound =>
    intro e he hparts t hground
    rw [resolveConcrete_compound names he]
    refine .bind (hparts t hground) fun ids t₁ hids => ?_
    have hground₁ := hground.resolveAll hids
    exact hground₁.assemble_safe e (hground₁.issuedAll (resolveAll_means _ hids).1)
  case nil =>
    intro t _
    rw [resolveAll]
    exact .pure _
  case cons =>
    intro e es he hes t hground
    rw [resolveAll]
    exact .bind (he t hground) fun _ t₁ hfirst =>
      .bind (hes t₁ (hground.resolveConcrete hfirst)) fun _ _ _ => .pure _

theorem resolveConcrete_safe (e : TypeExpr) (h : Grounded names t) :
    Safe (e.resolveConcrete names) t := resolution_safe.1 e t h

theorem resolveAll_safe (es : List TypeExpr) (h : Grounded names t) :
    Safe (resolveAll names es) t := resolution_safe.2 es t h

theorem resolveFields_safe (fields : List (String × TypeExpr)) (h : Grounded names t) :
    Safe (resolveFields names fields) t := by
  rw [resolveFields_eq]
  exact .bind (resolveAll_safe _ h) fun _ _ _ => .pure _

/-- **A written type resolves exactly if every part of it is put together as it should be.** -/
theorem exists_resolveConcrete_iff (h : Grounded names t) :
    (∃ id t', e.resolveConcrete names t = .ok id t') ↔ e.Resolvable t (Bound names) := by
  constructor
  · rintro ⟨id, t', hok⟩
    exact (resolveConcrete_means e hok).2
  · intro hresolvable
    obtain hok | ⟨cause, t', herror⟩ := (resolveConcrete_safe e h).ends
    · exact hok
    · exact absurd hresolvable (resolveConcrete_refuses e cause t' herror).2

end TypeExpr

end RuleTypes
