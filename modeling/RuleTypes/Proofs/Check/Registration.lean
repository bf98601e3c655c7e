import Mathlib.Order.Bounds.Basic
import RuleTypes.Proofs.Check.Run
import RuleTypes.Proofs.Check.Survivors

/-!
# Registering a program

In a program without repeated items, registration always comes to an end (`registered_ends`). What
it binds does not depend on the order in which structs of different names are defined: it is the
greatest set of definitions that can stand together (`registered_isGreatest`).
-/

namespace RuleTypes.Check

open Relation TypeTable TypeExpr

variable {cx : Setting} {items : List Item} {ids : List NodeId} {table : TypeTable} {r : Roster}
  {names : Names} {p p' : Progress} {D D' : List StructDef} {S : Set StructDef}

/-! ## Rosters of programs -/

/-- The roster of a program without repeated items. -/
def Roster.ofItems (hcanonical : table.Canonical) (hids : ids.Nodup)
    (hitems : itemsFrom cx.arena 0 ids = .ok items) : Roster where
  table := table
  size := cx.arena.size
  defs := items.filterMap Item.structDef?
  canonical := hcanonical
  inRange d hd := by
    obtain ⟨item, hitem, hdef⟩ := List.mem_filterMap.mp hd
    rw [(node_of_structDef? hdef).2]
    exact index_lt_of_itemsFrom hitems hitem
  nodup := nodup_defs (fun h => (node_of_structDef? h).2) ((itemsFrom_eq_ok hitems).1 ▸ hids)
  places d hd e he := by
    obtain ⟨item, hitem, hdef⟩ := List.mem_filterMap.mp hd
    obtain ⟨other, hother, hdef'⟩ := List.mem_filterMap.mp he
    rw [(node_of_structDef? hdef).1, (node_of_structDef? hdef).2, (node_of_structDef? hdef').1,
      (node_of_structDef? hdef').2]
    exact position_eq_iff hids hitems hitem hother

section Ends

variable (hcanonical : table.Canonical) (hids : ids.Nodup)
  (hitems : itemsFrom cx.arena 0 ids = .ok items)

/-- Registration ends with the structs that are left, and with the functions after them. -/
theorem settled_of_registered (h : registered cx items table = .ok p') :
    ∃ names p, structsRegistered cx items table = .ok p ∧
      Settled (.ofItems hcanonical hids hitems) names p ∧
      p.registerFunctions cx (items.filterMap Item.functionDef?) = .ok p' := by
  obtain ⟨p, hstructs, hfunctions⟩ := except_bind_eq_ok.mp h
  obtain ⟨names, hsettled⟩ := (Roster.ofItems hcanonical hids hitems).settled rfl rfl hstructs
  exact ⟨names, p, hstructs, hsettled, hfunctions⟩

/-- Functions are registered after the structs, at nodes that were not looked at. -/
theorem free_of_functionDef? (h : Standing (.ofItems hcanonical hids hitems) names p)
    {d : Nat × FunctionDef} (hd : d ∈ items.filterMap Item.functionDef?) :
    p.state.annotations.get? d.2.node = none ∧ d.2.node.index < p.state.annotations.size := by
  obtain ⟨item, hitem, hdef⟩ := List.mem_filterMap.mp hd
  rw [(node_of_functionDef? hdef).2, h.steady.size]
  refine ⟨?_, index_lt_of_itemsFrom hitems hitem⟩
  by_contra hsome
  obtain ⟨e, he, heq⟩ := h.annotated _ hsome
  obtain ⟨position, he⟩ := Roster.mem_defs he
  exact node_ne_of_defs hitems he hd (heq.trans (node_of_functionDef? hdef).2.symm)

include hcanonical hids hitems in
/-- **Registration comes to an end.** -/
theorem registered_ends (hslices : table.generics.get? Form.sliceName = some 1) :
    ∃ q, registered cx items table = .ok q := by
  have hroster := (Roster.ofItems hcanonical hids hitems).structsRegistered_ends rfl rfl hslices
  obtain ⟨p, hstructs⟩ := hroster
  obtain ⟨names, hsettled⟩ := (Roster.ofItems hcanonical hids hitems).settled rfl rfl hstructs
  have hstanding := hsettled.built.standing
  have hregistrable : Registrable p.state := by
    refine ⟨hstanding.grounded hslices, fun name id hid => ?_⟩
    rw [hstanding.steady.members] at hid
    cases hid
  have hnodup := nodup_defs (fun h => (node_of_functionDef? h).2)
    ((itemsFrom_eq_ok hitems).1 ▸ hids)
  obtain ⟨q, hfunctions⟩ := registerFunctions_ends cx hregistrable hnodup fun d hd =>
    free_of_functionDef? hcanonical hids hitems hstanding hd
  exact ⟨q, except_bind_eq_ok.mpr ⟨p, hstructs, hfunctions⟩⟩

end Ends

/-! ## What registration binds -/

/-- The definitions of structs among the items. -/
def structDefs (items : List Item) : List StructDef := (items.filterMap Item.structDef?).map (·.2)

/-- The names that a check binds are those of the structs in the set, and of the definitions in `D`
the others have a finding. -/
structure Decides (items : List Item) (D : List StructDef) (S : Set StructDef) (p : Progress) :
    Prop where
  names : ∀ name, (∃ id, p.state.names.get? name = some id) ↔ ∃ d ∈ S, d.name = name
  found : ∀ position d, (position, d) ∈ items.filterMap Item.structDef? → d ∈ D →
    ((∃ finding, (position, finding) ∈ p.findings) ↔ d ∉ S)

theorem Settled.decides (h : Settled r names p) (hdefs : items.filterMap Item.structDef? = r.defs) :
    Decides items r.declared (survivors r p) p where
  names name := by
    constructor
    · rintro ⟨id, hid⟩
      obtain ⟨-, d, hd, rfl, hnew⟩ := (h.built.standing.bound name id).mp hid
      exact ⟨d, ⟨hd, hnew⟩, rfl⟩
    · rintro ⟨d, ⟨hd, hnew⟩, rfl⟩
      obtain ⟨id, howns⟩ := h.built.standing.owns d hd
      exact ⟨id, h.built.standing.get?_names hd hnew howns⟩
  found position d hd hdeclared := by
    rw [h.built.standing.recorded.found (position, d) (hdefs ▸ hd)]
    simp [survivors, hdeclared]

/-- Structs are not concerned: their names and their types stay, and findings are made at the places
of other items only. -/
structure PassesStructs (items : List Item) (p p' : Progress) : Prop where
  names : p'.state.names = p.state.names
  table : p.state.table.Extends p'.state.table
  findings : ∃ more, p'.findings = p.findings ++ more ∧
    ∀ f ∈ more, ∃ item ∈ items, item.position = f.1 ∧ item.structDef? = none

theorem FunctionsEntered.passesStructs
    (h : FunctionsEntered (items.filterMap Item.functionDef?) p p') : PassesStructs items p p' := by
  obtain ⟨more, hmore, hplaces⟩ := h.findings
  refine ⟨h.state.names, h.state.table, more, hmore, fun f hf => ?_⟩
  obtain ⟨d, hd, heq⟩ := hplaces f hf
  obtain ⟨item, hitem, hdef⟩ := List.mem_filterMap.mp hd
  exact ⟨item, hitem, (node_of_functionDef? hdef).1.symm.trans heq,
    structDef?_of_functionDef? hdef⟩

/-- A struct has been dealt with when the items are looked at. -/
theorem checkItem_of_structDef? {item : Item} (h : item.structDef? ≠ none) (s : State) :
    checkItem cx item s = .ok none s := by
  unfold Item.structDef? at h
  unfold checkItem
  cases hkind : item.node.kind with
  | struct name fields => rfl
  | _ => simp [hkind] at h

theorem passesStructs_of_checkItems (h : p.checkItems cx items = .ok p') :
    PassesStructs items p p' := by
  refine checkItems_invariant (P := fun _ q => PassesStructs items p q)
    (fun seen item rest q q' hsplit hq hstep => ?_)
    ⟨rfl, .refl _, [], (List.append_nil _).symm, nofun⟩ h
  have hmoves : Moves (Later fun _ => True) (checkItem cx item) := checkItem_forward item
  cases hstep with
  | skip => exact hq
  | done _ h =>
    have hlater := hmoves.ok h
    exact ⟨hlater.names.trans hq.names, hq.table.trans hlater.table, hq.findings⟩
  | @found finding state _ h =>
    obtain ⟨s₁, annotations, herror, -, rfl⟩ := attempt_eq_error h
    have hitem : item.structDef? = none := by
      by_contra hstruct
      rw [checkItem_of_structDef? hstruct] at herror
      cases herror
    obtain ⟨more, hmore, hplaces⟩ := hq.findings
    have hlater := hmoves.error herror
    refine ⟨hlater.names.trans hq.names, hq.table.trans hlater.table,
      more ++ [(item.position, finding)], ?_, fun f hf => ?_⟩
    · rw [← List.append_assoc, ← hmore]
    · obtain hf | hf := List.mem_append.mp hf
      · exact hplaces f hf
      · exact ⟨item, by simp [hsplit], congrArg Prod.fst (List.mem_singleton.mp hf).symm, hitem⟩

theorem PassesStructs.found_iff (h : PassesStructs items p p') (hids : ids.Nodup)
    (hitems : itemsFrom cx.arena 0 ids = .ok items) {position : Nat} {d : StructDef}
    (hd : (position, d) ∈ items.filterMap Item.structDef?) :
    (∃ finding, (position, finding) ∈ p'.findings) ↔
      ∃ finding, (position, finding) ∈ p.findings := by
  obtain ⟨more, hmore, hplaces⟩ := h.findings
  refine ⟨fun ⟨finding, hfinding⟩ => ?_, fun ⟨finding, hfinding⟩ => ?_⟩
  · rw [hmore] at hfinding
    obtain hold | hnew := List.mem_append.mp hfinding
    · exact ⟨finding, hold⟩
    obtain ⟨item, hitem, hdef⟩ := List.mem_filterMap.mp hd
    obtain ⟨other, hother, heq, hnone⟩ := hplaces _ hnew
    have hsame : item.position = other.position :=
      (node_of_structDef? hdef).1.symm.trans heq.symm
    obtain rfl := List.inj_on_of_nodup_map ((itemsFrom_eq_ok hitems).1 ▸ hids) hitem hother
      ((position_eq_iff hids hitems hitem hother).mp hsame)
    rw [hnone] at hdef
    cases hdef
  · exact ⟨finding, hmore ▸ List.mem_append_left _ hfinding⟩

theorem Decides.passes (h : Decides items D S p) (hids : ids.Nodup)
    (hitems : itemsFrom cx.arena 0 ids = .ok items) (hpasses : PassesStructs items p p') :
    Decides items D S p' where
  names := hpasses.names ▸ h.names
  found position d hd hdeclared :=
    (hpasses.found_iff hids hitems hd).trans (h.found position d hd hdeclared)

/-! ## The order of definitions -/

theorem Contains.congr (hD : ∀ d, d ∈ D ↔ d ∈ D') : Contains D = Contains D' := by
  funext d e
  exact propext (and_congr_left' (hD e))

theorem Viable.congr (hD : ∀ d, d ∈ D ↔ d ∈ D') (h : Viable table D S) : Viable table D' S where
  declared d hd := (hD d).mp (h.declared d hd)
  resolves d hd := by
    refine ⟨(h.resolves d hd).1, fun type htype => ?_⟩
    refine ((h.resolves d hd).2 type htype).mono (fun name _ hname => ?_) (refl_of SameBasis _)
    obtain ⟨e, he, heq⟩ := hname
    exact ⟨e, (hD e).mp he, heq⟩
  closed d hd type htype e he := h.closed d hd type htype e ((hD e).mpr he)
  acyclic := Contains.congr hD ▸ h.acyclic

/-- Which definitions declare a struct depends only on the order of those of one name. -/
theorem mem_declaring_congr {defs defs' : List StructDef}
    (h : ∀ name, defs'.filter (·.name = name) = defs.filter (·.name = name)) (d : StructDef) :
    d ∈ declaring table [] defs' ↔ d ∈ declaring table [] defs := by
  simp only [mem_declaring, ← List.head?_filter, h]

/-- Registration binds the greatest set that can stand, and so does the whole check. -/
theorem registered_decides (hcanonical : table.Canonical)
    (hslices : table.generics.get? Form.sliceName = some 1) (hids : ids.Nodup)
    (hitems : itemsFrom cx.arena 0 ids = .ok items) :
    ∃ q S, registered cx items table = .ok q ∧
      IsGreatest { S | Viable table (declaring table [] (structDefs items)) S } S ∧
      Decides items (declaring table [] (structDefs items)) S q ∧
      ∀ p, q.checkItems cx items = .ok p →
        Decides items (declaring table [] (structDefs items)) S p := by
  obtain ⟨q, hregistered⟩ := registered_ends hcanonical hids hitems hslices
  obtain ⟨names, p, -, hsettled, hfunctions⟩ :=
    settled_of_registered hcanonical hids hitems hregistered
  have hdecides := (hsettled.decides rfl).passes hids hitems
    (functionsEntered_of_ok hfunctions).passesStructs
  exact ⟨q, _, hregistered, hsettled.isGreatest, hdecides, fun p hp =>
    hdecides.passes hids hitems (passesStructs_of_checkItems hp)⟩

/-- **Which structs survive.** In a program without repeated items, whatever the table and as long
as slices take one argument, registration comes to an end. Of the definitions that declare a struct
it binds the names of the greatest set that can stand together, and the others are those with a
finding; and so it is at the end of the check. Programs that differ in the order of structs of
different names get the same structs. -/
theorem registered_isGreatest (cx : Setting) (htable : table.Reachable)
    (hslices : table.generics.get? Form.sliceName = some 1) (hids : ids.Nodup)
    (hitems : itemsFrom cx.arena 0 ids = .ok items) :
    ∃ q S, registered cx items table = .ok q ∧
      IsGreatest { S | Viable table (declaring table [] (structDefs items)) S } S ∧
      Decides items (declaring table [] (structDefs items)) S q ∧
      (∀ p, q.checkItems cx items = .ok p →
        Decides items (declaring table [] (structDefs items)) S p) ∧
      ∀ ids' items', ids'.Nodup → itemsFrom cx.arena 0 ids' = .ok items' →
        (∀ name, (structDefs items').filter (·.name = name) =
          (structDefs items).filter (·.name = name)) →
        ∃ q', registered cx items' table = .ok q' ∧
          Decides items' (declaring table [] (structDefs items')) S q' := by
  obtain ⟨q, S, hq, hS, hdecides, hrun⟩ := registered_decides htable.canonical hslices hids hitems
  refine ⟨q, S, hq, hS, hdecides, hrun, fun ids' items' hids' hitems' hsame => ?_⟩
  obtain ⟨q', S', hq', hS', hdecides', -⟩ :=
    registered_decides htable.canonical hslices hids' hitems'
  have hD : ∀ d, d ∈ declaring table [] (structDefs items') ↔
      d ∈ declaring table [] (structDefs items) := mem_declaring_congr hsame
  have hsets : { S | Viable table (declaring table [] (structDefs items')) S } =
      { S | Viable table (declaring table [] (structDefs items)) S } :=
    Set.ext fun S => ⟨.congr hD, .congr fun d => (hD d).symm⟩
  rw [hsets] at hS'
  exact ⟨q', hq', hS'.unique hS ▸ hdecides'⟩

/-- `Loop` holds itself by value through a struct without a name, `User` mentions it before it is
known to fail, and the second `Leaf` is not declared. -/
def tangledStructs : Program where
  arena := ⟨#[.struct "Node" [("next", .pointer (.named "Node")), ("tail", .named "Leaf")],
    .struct "User" [("all", .slice (.named "Loop"))],
    .struct "Loop" [("inner", .record [("again", .named "Loop")])],
    .struct "Leaf" [("value", .named "f64")],
    .struct "Leaf" []].map fun kind => ⟨kind, .nowhere⟩⟩
  items := [⟨0⟩, ⟨1⟩, ⟨2⟩, ⟨3⟩, ⟨4⟩]

/-- The table with the numbers. -/
def numberTable : TypeTable := Op.apply (TypeTable.new Generics.standard) (.primitive "f64")

theorem registered_isGreatest_tangledStructs : ∃ (items : List Item) (q : Progress)
    (S : Set StructDef), numberTable.Reachable ∧
      numberTable.generics.get? Form.sliceName = some 1 ∧ tangledStructs.items.Nodup ∧
      itemsFrom tangledStructs.arena 0 tangledStructs.items = .ok items ∧
      registered ⟨tangledStructs.arena, default, .permissive⟩ items numberTable = .ok q ∧
      IsGreatest { S | Viable numberTable (declaring numberTable [] (structDefs items)) S } S ∧
      (∃ d ∈ S, d.name = "Node") ∧ (∃ d ∈ S, d.name = "Leaf") ∧
      ¬ (∃ d ∈ S, d.name = "Loop") ∧ ¬ (∃ d ∈ S, d.name = "User") ∧
      q.findings.map (·.1) = [4, 2, 1] := by
  have heval : (do
      let items ← itemsFrom tangledStructs.arena 0 tangledStructs.items
      let q ← registered ⟨tangledStructs.arena, default, .permissive⟩ items numberTable
      return decide ((q.state.names.contains "Node" = true ∧ q.state.names.contains "Leaf" = true ∧
        q.state.names.contains "Loop" = false ∧ q.state.names.contains "User" = false) ∧
        q.findings.map (·.1) = [4, 2, 1])) = Except.ok true := by
    decide +kernel
  obtain ⟨items, hitems, heval⟩ := except_bind_eq_ok.mp heval
  obtain ⟨q, hq, heval⟩ := except_bind_eq_ok.mp heval
  have htable : numberTable.Reachable := .apply (.primitive "f64") (.new _)
  have hslices : numberTable.generics.get? Form.sliceName = some 1 := by decide +kernel
  have hids : tangledStructs.items.Nodup := by decide
  obtain ⟨q', S, hq', hS, hdecides, -⟩ := registered_isGreatest
    ⟨tangledStructs.arena, default, .permissive⟩ htable hslices hids hitems
  obtain rfl : q = q' := Except.ok.inj (hq.symm.trans hq')
  obtain ⟨⟨hnode, hleaf, hloop, huser⟩, hfindings⟩ := of_decide_eq_true (Except.ok.inj heval)
  have hbound : ∀ name, q.state.names.contains name = true ↔ ∃ d ∈ S, d.name = name := fun name =>
    NameMap.contains_eq_true_iff.trans (hdecides.names name)
  refine ⟨items, q, S, htable, hslices, hids, hitems, hq, hS, (hbound _).mp hnode,
    (hbound _).mp hleaf, fun h => ?_, fun h => ?_, hfindings⟩
  · simp [(hbound _).mpr h] at hloop
  · simp [(hbound _).mpr h] at huser

end RuleTypes.Check
