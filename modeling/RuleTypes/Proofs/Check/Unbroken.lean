import RuleTypes.Proofs.Check.Known
import RuleTypes.Proofs.Check.Registration

/-!
# Types without broken structs

The structs that survive registration are filled, have their names, and do not hold themselves by
value. A check gets at types by the names of structs, and by what it builds from types that it has
got at, so it leaves the others behind: whatever type a node has in the end is made of sound structs
only (`unbroken_of_run`). The nodes of the structs that failed are the exception. They keep the type
that was declared for them.
-/

namespace RuleTypes

open Relation

/-- Every declared struct that the type is made of is filled and is the one that its name means, and
the values in everything that it is made of come to an end. -/
structure TypeTable.Unbroken (t : TypeTable) (names : Names) (id : TypeId) : Prop where
  declared : ∀ part name fields, ReflTransGen t.Mentions id part →
    t.form? part = some (.declared name fields) →
    t.isSealed part = true ∧ names.get? name = some part
  acyclic : ∀ part, ReflTransGen t.Mentions id part → ¬ TransGen t.HoldsByValue part part
  hasLayout : ∀ part, ReflTransGen t.Mentions id part → t.HasLayout part

namespace Check

open TypeTable

variable {cx : Setting} {r : Roster} {names : Names} {p p' : Progress} {id : TypeId}
  {items : List Item} {ids : List NodeId} {table : TypeTable}

/-- A type is unbroken if it has no other structs than those that are bound, and none of these holds
itself by value. -/
theorem unbroken_of_clear {t : TypeTable} (hcanonical : t.Canonical)
    (hbound : ∀ name id, names.get? name = some id → ¬ TransGen t.HoldsByValue id id)
    (h : t.Clear (.unbroken names t.pending) id) : t.Unbroken names id := by
  have hdeclared : ∀ part name fields, ReflTransGen t.Mentions id part →
      t.form? part = some (.declared name fields) →
      t.isSealed part = true ∧ names.get? name = some part := by
    intro part name fields hpart hform
    obtain ⟨form, hform', hallows⟩ := h part hpart
    obtain ⟨hsealed, hname⟩ := hallows name fields (Option.some.inj (hform'.symm.trans hform))
    exact ⟨by simpa [isSealed] using hsealed, hname⟩
  have hmentions : ∀ {a b}, ReflTransGen t.HoldsByValue a b → ReflTransGen t.Mentions a b :=
    ReflTransGen.mono (fun _ _ => HoldsByValue.mentions) _ _
  have hacyclic : ∀ part, ReflTransGen t.Mentions id part →
      ¬ TransGen t.HoldsByValue part part := by
    intro part hpart hcycle
    obtain ⟨inner, name, fields, hform, hreached, hcycle⟩ := hcanonical.declared_of_cycle hcycle
    have hname := (hdeclared inner name fields (hpart.trans (hmentions hreached)) hform).2
    exact hbound name inner hname hcycle
  refine ⟨hdeclared, hacyclic, fun part hpart => ?_⟩
  obtain ⟨form, hform, -⟩ := h part hpart
  exact hcanonical.hasLayout_of_acyclic (form?_eq_some_lt hform) fun inner hinner =>
    hacyclic inner (hpart.trans (hmentions hinner))

namespace Settled

variable (h : Settled r names p)

include h

theorem stands_of_bound {name : String} (hid : p.state.names.get? name = some id) :
    Stands p.state.table p.state.names id := by
  obtain ⟨hnamed, d, hd, rfl, hnew⟩ := (h.built.standing.bound name id).mp hid
  obtain ⟨id', howns⟩ := h.built.standing.owns d hd
  obtain rfl : id' = id := Option.some.inj (howns.named.symm.trans hnamed)
  exact h.stands d ⟨hd, hnew⟩ id' howns

/-- After the passes over the structs, everything that can be named is sound. -/
theorem knows (hbuiltin : cx.builtin.ClearIn .plain p.state.table) :
    Knows (.unbroken p.state.names p.state.table.pending) p.failed cx p.state where
  builtin := hbuiltin.of_clear fun _ => Clear.of_plain
  sources := ⟨fun name id hid => (h.stands_of_bound hid).2,
    clear_of_form? h.built.standing.steady.canonical.noValue nofun nofun⟩
  operators symbol id hid := by
    rw [h.built.standing.steady.operators] at hid
    cases hid
  members name id hid := by
    rw [h.built.standing.steady.members] at hid
    cases hid
  bound binding hbinding := by
    rw [h.built.standing.steady.scope] at hbinding
    obtain ⟨_, hframe, -⟩ | ⟨_, hglobal⟩ := hbinding
    · cases hframe
    · cases hglobal
  results frame hframe := by
    rw [h.built.standing.steady.scope] at hframe
    cases hframe
  annotated node type htype hspared := by
    obtain ⟨d, hd, rfl⟩ := h.built.standing.annotated node (by simp [htype])
    obtain ⟨id, howns⟩ := h.built.standing.owns d hd
    obtain rfl : id = type := Option.some.inj (howns.annotated.symm.trans htype)
    exact .inl (h.stands d ⟨hd, hspared⟩ id howns).2

end Settled

theorem Knows.registerFunctions {A : Admission} {spared : List NodeId}
    {defs : List (Nat × FunctionDef)} (hp : Knows A spared cx p.state)
    (h : p.registerFunctions cx defs = .ok p') : Knows A spared cx p'.state := by
  induction defs generalizing p with
  | nil =>
    cases h
    exact hp
  | cons first defs ih =>
    obtain ⟨p₁, hfirst, hrest⟩ := except_bind_eq_ok.mp h
    exact ih (hp.register (registerFunction_carries _) hfirst) hrest

/-- The node is that of a struct among the items, and there is a finding in the struct. -/
def IsFailedStruct (arena : Arena) (ids : List NodeId) (p : Progress) (id : NodeId) : Prop :=
  ∃ position finding node name fields, ids[position]? = some id ∧ arena.node? id = some node ∧
    node.kind = .struct name fields ∧ (position, finding) ∈ p.findings

theorem isFailedStruct_of_mem {node : NodeId} (hitems : itemsFrom cx.arena 0 ids = .ok items)
    (hrecorded : Recorded r p) (hdefs : r.defs = items.filterMap Item.structDef?)
    (hfindings : p.findings ⊆ p'.findings) (hnode : node ∈ p.failed) :
    IsFailedStruct cx.arena ids p' node := by
  obtain ⟨d, hd, rfl⟩ := hrecorded.failed node hnode
  obtain ⟨finding, hfinding⟩ := (hrecorded.found d hd).mpr hnode
  obtain ⟨item, hitem, hdef⟩ := List.mem_filterMap.mp (hdefs ▸ hd)
  obtain ⟨hd₁, hd₂⟩ := node_of_structDef? hdef
  rw [hd₂]
  obtain ⟨name, fields, hkind⟩ : ∃ name fields, item.node.kind = .struct name fields := by
    unfold Item.structDef? at hdef
    split at hdef
    · exact ⟨_, _, ‹_›⟩
    · cases hdef
  exact ⟨item.position, finding, item.node, name, fields, getElem?_of_itemsFrom hitems hitem,
    node?_of_itemsFrom hitems hitem, hkind, hfindings (hd₁ ▸ hfinding)⟩

/-- **No node has a broken type**, other than the nodes of structs that failed. -/
theorem unbroken_of_run (hids : ids.Nodup) (hcanonical : table.Canonical)
    (hbuiltin : cx.builtin.ClearIn .plain table) (hrun : run cx ids table = .ok p)
    {node : NodeId} {type : TypeId} (htype : p.state.annotations.get? node = some type)
    (hnode : ¬ IsFailedStruct cx.arena ids p node) :
    p.state.table.Unbroken p.state.names type := by
  obtain ⟨items, q, hitems, hregistered, hcheck⟩ := run_eq_ok.mp hrun
  obtain ⟨names, q₀, hstructs, hsettled, hfunctions⟩ :=
    settled_of_registered hcanonical hids hitems hregistered
  have hsteady := hsettled.built.standing.steady
  -- functions and items leave the structs alone
  have hentered := (functionsEntered_of_ok hfunctions).passesStructs
  have hchecked := passesStructs_of_checkItems hcheck
  have hnames : p.state.names = q₀.state.names := hchecked.names.trans hentered.names
  have hextends : q₀.state.table.Extends p.state.table := hentered.table.trans hchecked.table
  have hfindings : q₀.findings ⊆ p.findings := by
    obtain ⟨more, hmore, -⟩ := hentered.findings
    obtain ⟨more', hmore', -⟩ := hchecked.findings
    rw [hmore', hmore, List.append_assoc]
    exact List.subset_append_left _ _
  have hspared : node ∉ q₀.failed := fun hmem =>
    hnode (isFailedStruct_of_mem hitems hsettled.built.standing.recorded rfl hfindings hmem)
  -- and what can be named is all that they get at
  have hgrows := (ready_of_steps (structsRegistered_steps hstructs)).table
  have hknows := (hsettled.knows (hbuiltin.of_clear fun _ hplain =>
    hplain.grows hgrows)).registerFunctions hfunctions
  have hknows := hknows.checkItems (fun item hitem => ?_) (fun item hitem hmem => ?_) hcheck
  · have hclear : p.state.table.Clear (.unbroken p.state.names p.state.table.pending) type := by
      rw [hnames, hextends.pending]
      obtain hclear | ⟨rfl, -⟩ := hknows.annotated node type htype hspared
      · exact hclear
      · exact clear_of_form? (hsteady.canonical.extends hextends).auto nofun nofun
    refine unbroken_of_clear (hsteady.canonical.extends hextends) (fun name id hid hcycle => ?_)
      hclear
    have hstands := hsettled.stands_of_bound (hnames ▸ hid)
    exact hstands.1 (hsteady.canonical.holds_of_extends hextends hstands.2.issued hcycle)
  · exact node?_of_itemsFrom hitems hitem
  · obtain ⟨d, hd, heq⟩ := hsettled.built.standing.recorded.failed item.id hmem
    obtain ⟨other, hother, hdef⟩ := List.mem_filterMap.mp hd
    have hsame : other.id = item.id := (node_of_structDef? hdef).2.symm.trans heq
    obtain rfl := List.inj_on_of_nodup_map ((itemsFrom_eq_ok hitems).1 ▸ hids) hother hitem hsame
    rw [hdef]
    rfl

end Check

end RuleTypes
