import RuleTypes.Proofs.Check.Discarded
import RuleTypes.Proofs.Check.Typing

/-!
# What definitions stand for

When registration is over, a struct or function among the items has failed or has the type that is
written there, and what can be looked up by name stands for exactly those that have not failed
(`dictionary_of_registered`). For structs this is read off what is left of their passes, and for
functions off the pass over them (`Enlisted`).
-/

namespace RuleTypes

open Relation

/-- The node defines a struct or a function. -/
def Arena.IsDefinition (arena : Arena) (d : NodeId) : Prop :=
  ∃ name, arena.IsStruct d name ∨ ∃ kind, arena.IsFunction d name kind

namespace Check

variable {cx : Setting} {s : State} {p q : Progress} {item : Item} {items : List Item}
  {ids : List NodeId} {table : TypeTable} {name : String} {kind : FunctionKind}
  {signature : TypeId}

/-! ## Structs -/

section Structs

variable {r : Roster} {names : Names} {e : StructDef} {id : TypeId}

/-- The struct that a definition stands for has the fields and the types that are written there. -/
theorem Settled.defines (h : Settled r names p) (he : e ∈ survivors r p) :
    ∃ id, p.state.annotations.get? e.node = some id ∧
      Defines p.state (.struct e.name e.fields) id := by
  obtain ⟨id, howns⟩ := h.built.standing.owns e he.1
  obtain ⟨fields, hform, -, hfields, hdenotes⟩ := h.built.fields he.1 he.2 howns
  refine ⟨id, howns.annotated, .struct (h.built.standing.get?_names he.1 he.2 howns) hform hfields
    (hdenotes.of_names fun type htype name found hhas hfound => ?_)⟩
  -- a struct that is named in a field has not failed either
  obtain ⟨other, hother, rfl⟩ := h.built.standing.named name found hfound
  have hsurvives := h.built.closed h.stands he htype hother hhas
  exact (h.built.standing.bound other.name found).mpr ⟨hfound, other, hother, rfl, hsurvives.2⟩

/-- The names that are bound are those of the structs that have not failed. -/
theorem Settled.get?_names_iff (h : Settled r names p) {name : String} :
    p.state.names.get? name = some id ↔
      ∃ e ∈ survivors r p, e.name = name ∧ p.state.annotations.get? e.node = some id := by
  constructor
  · intro hid
    obtain ⟨hnamed, e, he, rfl, hnew⟩ := (h.built.standing.bound name id).mp hid
    obtain ⟨found, howns⟩ := h.built.standing.owns e he
    obtain rfl : found = id := Option.some.inj (howns.named.symm.trans hnamed)
    exact ⟨e, ⟨he, hnew⟩, rfl, howns.annotated⟩
  · rintro ⟨e, he, rfl, hid⟩
    obtain ⟨found, howns⟩ := h.built.standing.owns e he.1
    obtain rfl : found = id := Option.some.inj (howns.annotated.symm.trans hid)
    exact h.built.standing.get?_names he.1 he.2 howns

end Structs

/-! ## Items -/

theorem isFunction_iff (hnode : cx.arena.node? item.id = some item.node) :
    cx.arena.IsFunction item.id name kind ↔
      ∃ d, item.functionDef? = some d ∧ d.2.name = name ∧ d.2.use = kind := by
  unfold Arena.IsFunction Item.functionDef? FunctionDef.use
  rw [hnode]
  simp only [Option.some.injEq, exists_eq_left']
  cases hkind : item.node.kind <;> simp [eq_comm, and_comm]

theorem isStruct_iff (hnode : cx.arena.node? item.id = some item.node) :
    cx.arena.IsStruct item.id name ↔ ∃ d, item.structDef? = some d ∧ d.2.name = name := by
  unfold Arena.IsStruct Item.structDef?
  rw [hnode]
  cases hkind : item.node.kind <;> simp [hkind, eq_comm]

theorem Item.IsRegistered.isDefinition (h : item.IsRegistered)
    (hnode : cx.arena.node? item.id = some item.node) : cx.arena.IsDefinition item.id := by
  obtain h | h := h
  · obtain ⟨d, hd⟩ := Option.isSome_iff_exists.mp h
    exact ⟨d.2.name, .inl ((isStruct_iff hnode).mpr ⟨d, hd, rfl⟩)⟩
  · obtain ⟨d, hd⟩ := Option.isSome_iff_exists.mp h
    exact ⟨d.2.name, .inr ⟨d.2.use, (isFunction_iff hnode).mpr ⟨d, hd, rfl, rfl⟩⟩⟩

theorem defines_of_functionDef? {d : Nat × FunctionDef} (hd : item.functionDef? = some d)
    (h : d.2.written.Denotes s.names s.table signature) :
    Defines s item.node.kind signature := by
  unfold Item.functionDef? at hd
  cases hkind : item.node.kind with
  | function =>
    rw [hkind] at hd
    cases hd
    exact .function h
  | foreign =>
    rw [hkind] at hd
    cases hd
    exact .foreign h
  | _ =>
    rw [hkind] at hd
    cases hd

/-- What can be looked up by name stands for the definitions among the items that have not failed,
and these have the types that are written there. -/
structure Dictionary (cx : Setting) (ids : List NodeId) (p : Progress) : Prop where
  defines : ∀ d ∈ ids, d ∉ p.failed → cx.arena.IsDefinition d → ∃ node type,
    cx.arena.node? d = some node ∧ HasType p.state d type ∧ Defines p.state node.kind type
  structs : ∀ name type, p.state.names.get? name = some type ↔
    ∃ d ∈ ids, d ∉ p.failed ∧ cx.arena.IsStruct d name ∧ HasType p.state d type
  /-- Names of the top level are left out here, since variables are among them. -/
  functions : ∀ name kind signature, kind ≠ .normal →
    (signature ∈ p.state.signatures name kind ↔
      ∃ f ∈ ids, f ∉ p.failed ∧ cx.arena.IsFunction f name kind ∧ HasType p.state f signature)

section Registered

variable (hcanonical : table.Canonical) (hids : ids.Nodup)
  (hitems : itemsFrom cx.arena 0 ids = .ok items) (h : registered cx items table = .ok q)

include hcanonical hids hitems h

/-- When registration is over, the signatures that can be looked up are those of the functions that
have not failed. -/
theorem mem_signatures_of_registered (hfinal : ∀ x, q.state.annotations.get? x ≠ some .auto)
    (name : String) (kind : FunctionKind) (signature : TypeId) :
    signature ∈ q.state.signatures name kind ↔
      ∃ f ∈ ids, f ∉ q.failed ∧ cx.arena.IsFunction f name kind ∧ HasType q.state f signature := by
  rw [(enlisted_of_registered hcanonical hids hitems h).listed, ← (itemsFrom_eq_ok hitems).1]
  constructor
  · rintro ⟨_, hmem, hnew, rfl, rfl, hsignature⟩
    obtain ⟨d, hd, rfl⟩ := List.mem_map.mp hmem
    obtain ⟨item, hitem, hdef⟩ := List.mem_filterMap.mp hd
    have hnode := node?_of_itemsFrom hitems hitem
    rw [(node_of_functionDef? hdef).2] at hnew hsignature
    exact ⟨item.id, List.mem_map_of_mem hitem, hnew,
      (isFunction_iff hnode).mpr ⟨d, hdef, rfl, rfl⟩, hsignature,
      fun heq => hfinal _ (heq ▸ hsignature)⟩
  · rintro ⟨_, hf, hnew, hfunction, hsignature, -⟩
    obtain ⟨item, hitem, rfl⟩ := List.mem_map.mp hf
    obtain ⟨d, hdef, rfl, rfl⟩ := (isFunction_iff (node?_of_itemsFrom hitems hitem)).mp hfunction
    rw [← (node_of_functionDef? hdef).2] at hnew hsignature
    exact ⟨d.2, List.mem_map_of_mem (List.mem_filterMap.mpr ⟨item, hitem, hdef⟩), hnew, rfl, rfl,
      hsignature⟩

/-- When registration is over, a struct that has not failed has its name and the type that is
written there. -/
theorem struct_of_registered :
    (∀ item ∈ items, ∀ d, item.structDef? = some d → item.id ∉ q.failed → ∃ type,
      q.state.annotations.get? item.id = some type ∧ Defines q.state item.node.kind type) ∧
    ∀ name type, q.state.names.get? name = some type ↔ ∃ item ∈ items, ∃ d,
      item.structDef? = some d ∧ d.2.name = name ∧ item.id ∉ q.failed ∧
        q.state.annotations.get? item.id = some type := by
  obtain ⟨names, p, -, hsettled, hfunctions⟩ :=
    settled_of_registered hcanonical hids hitems h
  have hentered := functionsEntered_of_ok hfunctions
  -- functions leave structs as they are
  have hsurvives : ∀ item ∈ items, ∀ d, item.structDef? = some d → (item.id ∉ q.failed ↔
      d.2 ∈ survivors (.ofItems hcanonical hids hitems) p) := by
    intro item hitem d hd
    have hmem : d ∈ items.filterMap Item.structDef? := List.mem_filterMap.mpr ⟨item, hitem, hd⟩
    rw [failed_iff_of_registerFunctions (fun e he => ?_) hfunctions, ← (node_of_structDef? hd).2]
    · exact ⟨fun hnew => ⟨hsettled.built.standing.skipped d hmem hnew, hnew⟩, fun hd => hd.2⟩
    · exact (node_of_structDef? hd).2 ▸ (node_ne_of_defs hitems hmem he).symm
  have hsame : ∀ item ∈ items, ∀ d, item.structDef? = some d →
      q.state.annotations.get? item.id = p.state.annotations.get? d.2.node := by
    intro item hitem d hd
    rw [hentered.get?_struct hitems hitem hd, (node_of_structDef? hd).2]
  refine ⟨fun item hitem d hd hnew => ?_, fun name type => ?_⟩
  · obtain ⟨id, hid, hdefines⟩ := hsettled.defines ((hsurvives item hitem d hd).mp hnew)
    rw [hsame item hitem d hd, (structDef?_eq_some.mp hd).1]
    exact ⟨id, hid, hdefines.extends hentered.state.names hentered.state.table⟩
  · rw [hentered.state.names, hsettled.get?_names_iff]
    constructor
    · rintro ⟨e, he, rfl, hid⟩
      obtain ⟨position, hmem⟩ := Roster.mem_defs he.1
      obtain ⟨item, hitem, hd⟩ := List.mem_filterMap.mp hmem
      exact ⟨item, hitem, (position, e), hd, rfl, (hsurvives item hitem _ hd).mpr he,
        (hsame item hitem _ hd).trans hid⟩
    · rintro ⟨item, hitem, d, hd, rfl, hnew, hid⟩
      exact ⟨d.2, (hsurvives item hitem d hd).mp hnew, rfl, (hsame item hitem d hd).symm.trans hid⟩

/-- **When registration is over**, what can be looked up by name stands for the definitions that
have not failed, and these have the types that are written there. -/
theorem dictionary_of_registered (hfinal : ∀ x, q.state.annotations.get? x ≠ some .auto) :
    Dictionary cx ids q := by
  obtain ⟨hstructs, hnames⟩ := struct_of_registered hcanonical hids hitems h
  have hhas : ∀ {id type}, q.state.annotations.get? id = some type → HasType q.state id type :=
    fun htype => ⟨htype, fun heq => hfinal _ (heq ▸ htype)⟩
  have hmap := (itemsFrom_eq_ok hitems).1
  refine ⟨?_, ?_, fun name kind signature _ =>
    mem_signatures_of_registered hcanonical hids hitems h hfinal name kind signature⟩
  · intro id hid hnew hdefinition
    rw [← hmap] at hid
    obtain ⟨item, hitem, rfl⟩ := List.mem_map.mp hid
    have hnode := node?_of_itemsFrom hitems hitem
    obtain ⟨name, hstruct | ⟨kind, hfunction⟩⟩ := hdefinition
    · obtain ⟨d, hd, -⟩ := (isStruct_iff hnode).mp hstruct
      obtain ⟨type, htype, hdefines⟩ := hstructs item hitem d hd hnew
      exact ⟨item.node, type, hnode, hhas htype, hdefines⟩
    · obtain ⟨d, hd, -⟩ := (isFunction_iff hnode).mp hfunction
      have hdef := (node_of_functionDef? hd).2
      obtain ⟨type, htype, -, hwritten⟩ := (enlisted_of_registered hcanonical hids hitems h).written
        d.2 (List.mem_map_of_mem (List.mem_filterMap.mpr ⟨item, hitem, hd⟩)) (hdef ▸ hnew)
      exact ⟨item.node, type, hnode, hhas (hdef ▸ htype), defines_of_functionDef? hd hwritten⟩
  · intro name type
    rw [hnames, ← hmap]
    constructor
    · rintro ⟨item, hitem, d, hd, hname, hnew, htype⟩
      exact ⟨item.id, List.mem_map_of_mem hitem, hnew,
        (isStruct_iff (node?_of_itemsFrom hitems hitem)).mpr ⟨d, hd, hname⟩, hhas htype⟩
    · rintro ⟨_, hid, hnew, hstruct, htype, -⟩
      obtain ⟨item, hitem, rfl⟩ := List.mem_map.mp hid
      obtain ⟨d, hd, hname⟩ := (isStruct_iff (node?_of_itemsFrom hitems hitem)).mp hstruct
      exact ⟨item, hitem, d, hd, hname, hnew, htype⟩

end Registered

end Check

end RuleTypes
