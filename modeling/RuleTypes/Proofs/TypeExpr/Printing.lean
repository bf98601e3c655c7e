import RuleTypes.Proofs.TypeExpr.Identity
import RuleTypes.Proofs.TypeTable.RoundTrip

/-!
# A type prints as it was written

There are two printers. One walks through a written type; the other follows the ids of a table from
form to form, where a slice is a generic like others and a function that returns nothing has a
sentinel for its result. A written type and the type it resolves to have the same text
(`text_of_resolve`): the form of a type is printed like its written type if its parts are
(`Shapes.text`), and what a written type denotes is put together from what its parts denote.
-/

namespace RuleTypes

open TypeTable

namespace TypeExpr

variable {names : Names} {t t' : TypeTable} {e : TypeExpr} {id : TypeId} {ids : List TypeId}
  {form : Form} {textOf : TypeId → Except Fault String}

/-! ## One form -/

theorem mapM_textOf : ∀ {es : List TypeExpr} {ids : List TypeId}, es.length = ids.length →
    (∀ pair ∈ es.zip ids, textOf pair.2 = .ok pair.1.text) → ids.mapM textOf = .ok (texts es)
  | [], [], _, _ => by rw [texts]; rfl
  | e :: es, id :: ids, hlength, h => by
    have hfirst : textOf id = .ok e.text := h (e, id) (List.mem_cons_self ..)
    have hrest : ids.mapM textOf = .ok (texts es) :=
      mapM_textOf (Nat.succ.inj hlength) fun pair hpair => h pair (List.mem_cons_of_mem _ hpair)
    rw [List.mapM_cons, hfirst, texts]
    simp only [bind, Except.bind, hrest]
    rfl

theorem mapM_fieldText : ∀ {fields : List (String × TypeExpr)} {ids : List (String × TypeId)},
    fields.map (·.1) = ids.map (·.1) →
    (∀ pair ∈ (fields.map (·.2)).zip (ids.map (·.2)), textOf pair.2 = .ok pair.1.text) →
    (ids.mapM fun field => do return field.1 ++ " " ++ (← textOf field.2)) =
      .ok (fieldTexts fields)
  | [], [], _, _ => by rw [fieldTexts]; rfl
  | (name, e) :: fields, (name', id) :: ids, hnames, h => by
    obtain ⟨rfl, hothers⟩ : name = name' ∧ fields.map (·.1) = ids.map (·.1) := by
      simpa using hnames
    have hfirst : textOf id = .ok e.text := h (e, id) (List.mem_cons_self ..)
    have hrest := mapM_fieldText hothers fun pair hpair => h pair (List.mem_cons_of_mem _ hpair)
    rw [List.mapM_cons, fieldTexts]
    simp only [hfirst, bind, Except.bind, pure, Except.pure] at hrest ⊢
    rw [hrest]

/-- A form prints like the written type, if its parts do. That no part is without a value keeps
apart functions that return something from those that do not, and that slices are written as slices
keeps apart the two ways to print a generic. -/
theorem Shapes.text (h : Shapes e ids form) (hlength : e.parts.length = ids.length)
    (hslice : e.WritesSlices) (hvalue : .noValue ∉ ids)
    (hparts : ∀ pair ∈ e.parts.zip ids, textOf pair.2 = .ok pair.1.text) :
    form.text textOf = .ok e.text := by
  cases h with
  | pointer base id =>
    have hbase : textOf id = .ok base.text := hparts (base, id) (List.mem_singleton.mpr rfl)
    rw [Form.text, hbase, TypeExpr.text]
    rfl
  | slice element id =>
    have helement : textOf id = .ok element.text :=
      hparts (element, id) (List.mem_singleton.mpr rfl)
    rw [Form.text, if_pos rfl, helement, TypeExpr.text]
    rfl
  | generic name args =>
    have hname : name ≠ Form.sliceName := by
      rintro rfl
      exact hslice.ne args rfl
    have hargs : ids.mapM textOf = .ok (texts args) := mapM_textOf hlength hparts
    rw [TypeExpr.text]
    simp only [Form.text, if_neg hname, hargs]
    rfl
  | procedure params =>
    have hnone : (TypeExpr.function params none).parts = params := List.append_nil params
    rw [hnone] at hlength hparts
    rw [Form.text, TypeExpr.text, mapM_textOf hlength hparts]
    rfl
  | function params result ids id =>
    have hlength : params.length = ids.length := by simpa [parts] using hlength
    have hzip : (params ++ [result]).zip (ids ++ [id]) = params.zip ids ++ [(result, id)] :=
      List.zip_append hlength
    have hids : ids.mapM textOf = .ok (texts params) := by
      refine mapM_textOf hlength fun pair hpair => hparts pair ?_
      show pair ∈ (params ++ [result]).zip (ids ++ [id])
      exact hzip ▸ List.mem_append_left _ hpair
    have hresult : textOf id = .ok result.text := by
      refine hparts (result, id) ?_
      show (result, id) ∈ (params ++ [result]).zip (ids ++ [id])
      exact hzip ▸ List.mem_append_right _ (List.mem_singleton.mpr rfl)
    have hne : id ≠ .noValue := by
      rintro rfl
      exact hvalue (List.mem_append_right _ (List.mem_singleton.mpr rfl))
    rw [Form.text, TypeExpr.text, hids]
    simp only [bind, Except.bind, if_neg hne, hresult, pure, Except.pure]
    rw [show "):" = ")" ++ ":" from rfl]
    simp only [String.append_assoc]
  | record fields ids hnames =>
    rw [Form.text, TypeExpr.text, mapM_fieldText hnames hparts]
    rfl

/-! ## Types -/

/-- What a written type denotes has its text: by induction on what is denoted, since the parts of a
form are older than the form. -/
theorem Denotes.textAt (hcanonical : t.Canonical) (hnames : names.DeclaredIn t)
    (h : Denotes names t e id) (hslice : e.WritesSlices) :
    ∀ depth, id.index < depth → t.textAt depth id = .ok e.text := by
  induction h with
  | @declared name id hbound =>
    rintro (_ | depth) hdepth
    · omega
    · obtain ⟨fields, hform⟩ := hnames name id hbound
      rw [textAt_of_form? hform, TypeExpr.text]
      rfl
  | @primitive name id hform =>
    rintro (_ | depth) hdepth
    · omega
    · rw [textAt_of_form? hform, TypeExpr.text]
      rfl
  | @compound e ids id form hids hform hlength hparts ih =>
    rintro (_ | depth) hdepth
    · omega
    · rw [textAt_of_form? hform]
      have hcomposes := composes_of_form? hids hlength
      have holder : ∀ part ∈ ids, part.index < id.index := by
        intro part hpart
        apply hcanonical.older id form hform hcomposes.declared
        rcases hcomposes.components with hall | hall
        · exact hall ▸ hpart
        · exact hall ▸ List.mem_append_left _ hpart
      apply (shapes_of_form? hids hlength).text hlength hslice
        (noValue_notMem hcanonical hnames ⟨hlength, hparts⟩)
      intro pair hpair
      obtain ⟨hpart, hid⟩ := List.of_mem_zip hpair
      have := holder pair.2 hid
      exact ih pair hpair (hslice.of_mem_parts hpart) depth (by omega)

/-- **A type prints as it was written.** Let names be bound to declared structs that bear them, and
let a written type, in which slices are written as slices, resolve. The type that it resolves to has
the text of the written type. -/
theorem text_of_resolve (ht : t.Reachable) (hnames : names.DeclaredIn t) (hslice : e.WritesSlices)
    (hok : e.resolve names t = .ok id t') : t'.text id = .ok e.text := by
  have hextends : t.Extends t' := (resolve_moves names e).ok hok
  have hcanonical : t'.Canonical := ht.canonical.extends hextends
  have hnames' : names.DeclaredIn t' := fun name id hid => by
    obtain ⟨fields, hform⟩ := hnames name id hid
    exact ⟨fields, hextends.form? hform⟩
  obtain ⟨rfl, rfl, -⟩ | ⟨-, hconcrete⟩ := resolve_eq_ok hok
  · rw [TypeTable.text, textAt_of_form? hcanonical.auto, TypeExpr.text]
    rfl
  · exact (resolveConcrete_means e hconcrete).1.textAt hcanonical hnames' hslice _
      (Nat.lt_succ_self _)

/-- Functions from visitors of nodes, kept with lists of numbers, to nodes. -/
def nodeSearch : TypeExpr :=
  .function [.record [("keys", .slice (.slice (.named "f64"))),
    ("visit", .function [.pointer (.named "Node")] none)],
    .generic "Map" [.named "Node", nodeVisitor]] (some (.pointer (.named "Node")))

/-- Nodes, not yet with fields, numbers, and maps. -/
def mappedNode : TypeTable := Op.apply pendingNode (.declareGeneric "Map" 2)

theorem writesSlices_nodeSearch : nodeSearch.WritesSlices := by
  have hnamed : ∀ name, (named name).WritesSlices := fun name =>
    writesSlices_of_parts (by simp) (by simp [parts])
  have hpointer : (pointer (.named "Node")).WritesSlices :=
    writesSlices_of_parts (by simp) (by simpa [parts] using hnamed "Node")
  have hslice : (slice (.named "f64")).WritesSlices :=
    writesSlices_of_parts (by simp) (by simpa [parts] using hnamed "f64")
  have hslices : (slice (.slice (.named "f64"))).WritesSlices :=
    writesSlices_of_parts (by simp) (by simpa [parts] using hslice)
  have hvisit : (function [.pointer (.named "Node")] none).WritesSlices :=
    writesSlices_of_parts (by simp) (by simpa [parts] using hpointer)
  refine writesSlices_of_parts (by simp [nodeSearch]) ?_
  simp only [nodeSearch, parts, Option.toList, List.cons_append, List.nil_append,
    List.forall_mem_cons]
  refine ⟨writesSlices_of_parts (by simp) ?_, writesSlices_of_parts ?_ ?_, hpointer,
    List.forall_mem_nil _⟩
  · simpa [parts] using ⟨hslices, hvisit⟩
  · simp [Form.sliceName]
  · simpa [parts] using ⟨hnamed "Node", writesSlices_nodeVisitor⟩

theorem text_of_resolve_nodeSearch :
    nodeSearch.text =
      "func(struct\x7bkeys [][]f64;visit func(*Node)\x7d,Map<Node,func(*Node,[]f64)>):*Node" ∧
    mappedNode.Reachable ∧ Names.DeclaredIn ⟨[("Node", ⟨3⟩)]⟩ mappedNode ∧
    nodeSearch.WritesSlices ∧
    ∃ id t', nodeSearch.resolve ⟨[("Node", ⟨3⟩)]⟩ mappedNode = .ok id t' ∧
      t'.text id = .ok nodeSearch.text := by
  have hreachable : mappedNode.Reachable := ((Reachable.new _).foldl _).foldl [_]
  have hnames : Names.DeclaredIn ⟨[("Node", ⟨3⟩)]⟩ mappedNode := by
    intro name id hid
    obtain rfl | hne := eq_or_ne name "Node"
    · cases hid
      exact ⟨[], rfl⟩
    · simp [NameMap.get?, List.lookup_cons, beq_false_of_ne hne] at hid
  refine ⟨by decide +kernel, hreachable, hnames, writesSlices_nodeSearch, _, _, rfl, ?_⟩
  exact text_of_resolve hreachable hnames writesSlices_nodeSearch rfl

end TypeExpr

end RuleTypes
