import RuleTypes.Proofs.Check.Complete
import RuleTypes.Proofs.Check.Registration

/-!
# What a failed item leaves behind

A step that ends in a finding is undone, but only that step: the types that an item got in earlier
passes stay. So below an item with a finding the report has what registration left there
(`discards_of_checkItems`). That is at most a type of the node itself: the signature of a function
that could be registered, or the id of a struct that could be declared
(`annotated_iff_of_registered`).
-/

namespace RuleTypes.Check

open Relation TypeTable

variable {cx : Setting} {s s' : State} {p p' q : Progress} {item : Item} {items : List Item}
  {ids : List NodeId} {table : TypeTable}

/-! ## Findings of registration -/

/-- Whatever the pass, a step of registration is about one of the items. -/
theorem RegisterStep.exists_register (h : RegisterStep cx items p p') :
    ∃ item ∈ items, ∃ x : Check Unit, p.register item.position item.id x = .ok p' := by
  cases h with
  | declare hd h | fill hd _ h | layout hd _ h =>
    obtain ⟨item, hitem, rfl, hid, -⟩ := mem_structDefs hd
    exact ⟨item, hitem, _, hid ▸ h⟩
  | function hd h =>
    obtain ⟨item, hitem, rfl, hid, -⟩ := mem_functionDefs hd
    exact ⟨item, hitem, _, hid ▸ h⟩

/-- Findings and failures go together, one for one: both are those of the items of one list. -/
def Tallies (items : List Item) (p : Progress) : Prop :=
  ∃ found ⊆ items, p.findings.map (·.1) = found.map (·.position) ∧
    p.failed.reverse = found.map (·.id)

theorem Tallies.step (h : Tallies items p) (hstep : RegisterStep cx items p p') :
    Tallies items p' := by
  obtain ⟨item, hitem, x, hregister⟩ := hstep.exists_register
  obtain ⟨found, hsub, hplaces, hfailed⟩ := h
  obtain ⟨hsame, hfindings⟩ | ⟨finding, hmore, hfindings⟩ := failed_of_register hregister
  · exact ⟨found, hsub, hfindings ▸ hplaces, hsame ▸ hfailed⟩
  · refine ⟨found ++ [item], by simp [hsub, hitem], ?_, ?_⟩
    · simp [hfindings, hplaces]
    · simp [hmore, hfailed]

theorem tallies_of_steps
    (h : ReflTransGen (RegisterStep cx items) ⟨State.start table cx.arena.size, [], [], []⟩ q) :
    Tallies items q := by
  induction h with
  | refl => exact ⟨[], List.nil_subset _, rfl, rfl⟩
  | tail _ hstep ih => exact ih.step hstep

/-- The items that registration left a finding in are those that failed. -/
def FailsAt (items : List Item) (p : Progress) : Prop :=
  ∀ f ∈ p.findings, ∃ item ∈ items, item.position = f.1 ∧ item.id ∈ p.failed

theorem failsAt_of_steps
    (h : ReflTransGen (RegisterStep cx items) ⟨State.start table cx.arena.size, [], [], []⟩ q) :
    FailsAt items q := by
  intro f hf
  obtain ⟨found, hsub, hplaces, hfailed⟩ := tallies_of_steps h
  have hposition : f.1 ∈ found.map (·.position) := hplaces ▸ List.mem_map_of_mem hf
  obtain ⟨item, hitem, heq⟩ := List.mem_map.mp hposition
  refine ⟨item, hsub hitem, heq, List.mem_reverse.mp ?_⟩
  rw [hfailed]
  exact List.mem_map_of_mem hitem

/-! ## Types that registration leaves -/

/-- The node has a signature exactly if it has not failed. -/
structure SignedUnlessFailed (p : Progress) (node : NodeId) : Prop where
  annotated : p.state.annotations.get? node ≠ none ↔ node ∉ p.failed
  signed : ∀ type, p.state.annotations.get? node = some type → p.state.table.IsSignature type

/-- The item is a function with a body that could be registered. -/
def Item.IsSigned (q : Progress) (item : Item) : Prop :=
  (∃ name kind params result body, item.node.kind = .function name kind params result body) ∧
    item.id ∉ q.failed

/-- The item is a struct that could be declared: its name is no word of the notation, not that of a
primitive type, and not that of a struct among the items before. -/
def Item.IsDeclared (table : TypeTable) (items : List Item) (item : Item) : Prop :=
  ∃ name fields, item.node.kind = .struct name fields ∧ isReserved name = false ∧
    table.primitive? name = none ∧ ∀ other ∈ items, other.position < item.position →
      ∀ fields, other.node.kind ≠ .struct name fields

theorem structDef?_eq_some {d : Nat × StructDef} : item.structDef? = some d ↔
    item.node.kind = .struct d.2.name d.2.fields ∧ d.1 = item.position ∧
      d.2.node = item.id ∧ d.2.span = item.node.span := by
  obtain ⟨position, node, span, name, fields⟩ := d
  unfold Item.structDef?
  cases item.node.kind <;> simp
  grind

theorem find?_structDefs_eq_none {name : String} :
    (structDefs items).find? (·.name = name) = none ↔
      ∀ item ∈ items, ∀ fields, item.node.kind ≠ .struct name fields := by
  simp only [List.find?_eq_none, structDefs, List.mem_map, List.mem_filterMap, decide_eq_true_eq]
  constructor
  · intro h item hitem fields hkind
    exact h ⟨item.id, item.node.span, name, fields⟩
      ⟨(item.position, _), ⟨item, hitem, structDef?_eq_some.mpr ⟨hkind, rfl, rfl, rfl⟩⟩, rfl⟩ rfl
  · rintro h _ ⟨d, ⟨item, hitem, hd⟩, rfl⟩ rfl
    exact h item hitem _ (structDef?_eq_some.mp hd).1

/-- Of all items that define a struct of a name that can be declared, the first declares it. -/
theorem mem_declared_iff {r : Roster} (hdefs : r.defs = items.filterMap Item.structDef?)
    (hplaces : items.Pairwise fun a b => a.position < b.position) (hitem : item ∈ items)
    {d : Nat × StructDef} (hd : item.structDef? = some d) :
    d.2 ∈ r.declared ↔ item.IsDeclared r.table items := by
  obtain ⟨before, after, rfl⟩ := List.append_of_mem hitem
  have hsplit : r.defs.map (·.2) = structDefs before ++ d.2 :: structDefs after := by
    simp [hdefs, structDefs, hd]
  have hfind : (r.defs.map (·.2)).find? (·.name = d.2.name) = some d.2 ↔
      (structDefs before).find? (·.name = d.2.name) = none := by
    rw [hsplit, List.find?_append, List.find?_cons_of_pos (by simp)]
    cases hfirst : (structDefs before).find? (·.name = d.2.name) with
    | none => simp
    | some e =>
      -- an earlier definition has another node
      have hnodup : ((r.defs.map (·.2)).map (·.node)).Nodup := by
        rw [List.map_map]
        exact r.nodup
      rw [hsplit, List.map_append, List.nodup_append] at hnodup
      have hne := hnodup.2.2 e.node (List.mem_map_of_mem (List.mem_of_find?_eq_some hfirst))
        d.2.node (by simp)
      simp only [Option.or_some, Option.some.injEq, reduceCtorEq, iff_false]
      exact fun heq => hne (heq ▸ rfl)
  have hearlier : ∀ other, other ∈ before ↔
      other ∈ before ++ item :: after ∧ other.position < item.position := by
    obtain ⟨-, hafter, hbefore⟩ := List.pairwise_append.mp hplaces
    refine fun other => ⟨fun hother => ?_, fun ⟨hother, hless⟩ => ?_⟩
    · exact ⟨List.mem_append_left _ hother, hbefore other hother item (by simp)⟩
    · refine (List.mem_append.mp hother).resolve_right fun hother => ?_
      obtain rfl | hother := List.mem_cons.mp hother
      · exact Nat.lt_irrefl _ hless
      · exact Nat.lt_asymm hless ((List.pairwise_cons.mp hafter).1 other hother)
  rw [Roster.mem_declared, hfind, find?_structDefs_eq_none]
  simp only [hearlier, and_imp]
  obtain ⟨hkind, -⟩ := structDef?_eq_some.mp hd
  unfold StructDef.Declares Item.IsDeclared
  constructor
  · rintro ⟨⟨hname, hprimitive, -⟩, hfirst⟩
    exact ⟨_, _, hkind, hname, hprimitive, hfirst⟩
  · rintro ⟨name, fields, hkind', hname, hprimitive, hfirst⟩
    obtain ⟨rfl, rfl⟩ := NodeKind.struct.inj (hkind.symm.trans hkind')
    exact ⟨⟨hname, hprimitive, List.forall_mem_nil _⟩, hfirst⟩

theorem pairwise_position {position : Nat} (h : itemsFrom cx.arena position ids = .ok items) :
    items.Pairwise fun a b => a.position < b.position := by
  rw [List.pairwise_iff_getElem]
  intro i j hi hj hij
  have hplaces := (itemsFrom_eq_ok h).2
  have hfirst := (hplaces i _ (List.getElem?_eq_getElem hi)).1
  have hsecond := (hplaces j _ (List.getElem?_eq_getElem hj)).1
  omega

theorem eq_of_position (h : items.Pairwise fun a b => a.position < b.position) {other : Item}
    (hitem : item ∈ items) (hother : other ∈ items) (heq : item.position = other.position) :
    item = other := by
  refine List.inj_on_of_nodup_map (f := Item.position) ?_ hitem hother heq
  rw [List.Nodup, List.pairwise_map]
  exact h.imp Nat.ne_of_lt

/-- Functions leave the nodes of structs alone. -/
theorem FunctionsEntered.get?_struct
    (h : FunctionsEntered (items.filterMap Item.functionDef?) p q)
    (hitems : itemsFrom cx.arena 0 ids = .ok items) (hitem : item ∈ items) {d : Nat × StructDef}
    (hd : item.structDef? = some d) :
    q.state.annotations.get? item.id = p.state.annotations.get? item.id := by
  refine h.outside item.id fun e he heq => ?_
  refine node_ne_of_defs hitems (List.mem_filterMap.mpr ⟨item, hitem, hd⟩) he ?_
  rw [heq, (node_of_structDef? hd).2]

section Registered

variable (hcanonical : table.Canonical) (hids : ids.Nodup)
  (hitems : itemsFrom cx.arena 0 ids = .ok items) (h : registered cx items table = .ok q)
  (hitem : item ∈ items)

include hcanonical hids hitems h hitem

/-- **Of the functions, those that have not failed have signatures.** -/
theorem signed_of_registered {d : Nat × FunctionDef} (hd : item.functionDef? = some d) :
    SignedUnlessFailed q item.id := by
  have henlisted := enlisted_of_registered hcanonical hids hitems h
  have hmem : d.2 ∈ (items.filterMap Item.functionDef?).map (·.2) :=
    List.mem_map_of_mem (List.mem_filterMap.mpr ⟨item, hitem, hd⟩)
  rw [← (node_of_functionDef? hd).2]
  by_cases hfailed : d.2.node ∈ q.failed
  · have hnone := henlisted.refused d.2 hmem hfailed
    exact ⟨by simp [hnone, hfailed], by simp [hnone]⟩
  · obtain ⟨signature, hget, hform, -⟩ := henlisted.written d.2 hmem hfailed
    refine ⟨by simp [hget, hfailed], fun type htype => ?_⟩
    exact Option.some.inj (hget.symm.trans htype) ▸ hform

/-- **Of the structs, those that could be declared have their ids.** -/
theorem declared_of_registered {d : Nat × StructDef} (hd : item.structDef? = some d) :
    (q.state.annotations.get? item.id ≠ none ↔ item.IsDeclared table items) ∧
      ∀ type, q.state.annotations.get? item.id = some type →
        ∃ fields, q.state.table.form? type = some (.declared d.2.name fields) := by
  obtain ⟨names, p, -, hsettled, hfunctions⟩ :=
    settled_of_registered hcanonical hids hitems h
  have hstanding := hsettled.built.standing
  have hnode := (node_of_structDef? hd).2
  have hmem : d ∈ (Roster.ofItems hcanonical hids hitems).defs :=
    List.mem_filterMap.mpr ⟨item, hitem, hd⟩
  have hentered := functionsEntered_of_ok hfunctions
  have hsame := hentered.get?_struct hitems hitem hd
  have hdeclared : p.state.annotations.get? item.id ≠ none ↔
      d.2 ∈ (Roster.ofItems hcanonical hids hitems).declared := by
    constructor
    · intro hne
      obtain ⟨e, he, heq⟩ := hstanding.annotated item.id hne
      obtain ⟨position, he'⟩ := Roster.mem_defs he
      have hsame : d = (position, e) := List.inj_on_of_nodup_map
        (Roster.ofItems hcanonical hids hitems).nodup hmem he' (hnode.trans heq.symm)
      exact hsame ▸ he
    · intro hin
      obtain ⟨id, howns⟩ := hstanding.owns d.2 hin
      simp [← hnode, howns.annotated]
  rw [hsame]
  refine ⟨hdeclared.trans (mem_declared_iff rfl (pairwise_position hitems) hitem hd),
    fun type htype => ?_⟩
  obtain ⟨id, howns⟩ := hstanding.owns d.2 (hdeclared.mp (by simp [htype]))
  obtain ⟨fields, hform, -⟩ := howns.declared
  obtain rfl : id = type := Option.some.inj (howns.annotated.symm.trans (hnode ▸ htype))
  exact ⟨fields, hentered.state.table.form? hform⟩

/-- When registration is over, the nodes that have types are those of the functions that have not
failed and of the structs that could be declared. -/
theorem annotated_iff_of_registered (hforeign : ∀ name params result,
      item.node.kind = .foreign name params result → item.id ∈ q.failed) :
    q.state.annotations.get? item.id ≠ none ↔ item.IsSigned q ∨ item.IsDeclared table items := by
  have hfunction := fun d hd => signed_of_registered hcanonical hids hitems h hitem (d := d) hd
  have hstruct := fun d hd => declared_of_registered hcanonical hids hitems h hitem (d := d) hd
  have hother : ¬ item.IsRegistered → q.state.annotations.get? item.id = none := by
    intro hnot
    by_contra hne
    obtain ⟨other, hother, heq, hregistered⟩ :=
      (ready_of_steps (registered_steps h)).annotated item.id hne
    obtain rfl :=
      List.inj_on_of_nodup_map ((itemsFrom_eq_ok hitems).1 ▸ hids) hother hitem heq
    exact hnot hregistered
  unfold Item.IsRegistered Item.functionDef? Item.structDef? at hother
  unfold Item.functionDef? at hfunction
  unfold Item.structDef? at hstruct
  unfold Item.IsSigned
  cases hkind : item.node.kind with
  | struct name fields =>
    simp only [hkind] at hstruct
    simpa using (hstruct _ rfl).1
  | function name kind params result body =>
    simp only [hkind] at hfunction
    simpa [Item.IsDeclared, hkind] using (hfunction _ rfl).annotated
  | foreign name params result =>
    simp only [hkind] at hfunction
    have hfailed := hforeign name params result hkind
    simpa [Item.IsDeclared, hkind, hfailed] using (hfunction _ rfl).annotated
  | _ =>
    simp only [hkind] at hother
    simpa [Item.IsDeclared, hkind] using hother

end Registered

/-! ## Items that end in a finding -/

/-- The check of the item can end in a finding. -/
def CanFail (cx : Setting) (item : Item) : Prop :=
  ∃ s finding s', checkItem cx item s = .error (.error finding) s'

/-- What holds while the items are looked at: below an item that has failed so far, and below one
that has not been looked at, everything is as registration left it. -/
structure Discards (cx : Setting) (items seen : List Item) (q p : Progress) : Prop where
  visited : Visited cx items seen p
  failed : p.failed = q.failed
  findings : ∀ f ∈ p.findings, f ∈ q.findings ∨ ∃ item ∈ seen, item.position = f.1 ∧ CanFail cx item
  same : ∀ item ∈ items,
    (item ∈ seen → item.id ∈ p.failed ∨ ∃ finding, (item.position, finding) ∈ p.findings) →
      ∀ id, cx.arena.Below item.id id →
        p.state.annotations.get? id = q.state.annotations.get? id

theorem Discards.step {program : Program} {seen rest : List Item}
    (h : Discards cx (seen ++ item :: rest) seen q p)
    (hitems : ItemsOf program (seen ++ item :: rest)) (harena : cx.arena = program.arena)
    (hplaces : (seen ++ item :: rest).Pairwise fun a b => a.position < b.position)
    (hfails : FailsAt (seen ++ item :: rest) q) (hstep : ItemStep cx item p p') :
    Discards cx (seen ++ item :: rest) (seen ++ [item]) q p' := by
  have hnode : cx.arena.node? item.id = some item.node := harena ▸ hitems.node item (by simp)
  have hmoves := checkItem_later (harena ▸ hitems.tree.isForest) hnode
  have hvisited := h.visited.step hitems harena hstep
  obtain ⟨-, hafter, hbefore⟩ := List.pairwise_append.mp hplaces
  have hnotSeen : item ∉ seen := fun hseen =>
    Nat.lt_irrefl _ (hbefore item hseen item (List.mem_cons_self ..))
  have hwider : ∀ f ∈ p.findings, f ∈ q.findings ∨
      ∃ item' ∈ seen ++ [item], item'.position = f.1 ∧ CanFail cx item' := fun f hf =>
    (h.findings f hf).imp_right fun ⟨other, hother, hfound⟩ =>
      ⟨other, List.mem_append_left _ hother, hfound⟩
  cases hstep with
  | skip hfailed =>
    refine ⟨hvisited, h.failed, hwider, fun other hother hother' => h.same other hother ?_⟩
    exact fun hseen => hother' (List.mem_append_left _ hseen)
  | @done function? state hnew hok =>
    refine ⟨hvisited, h.failed, hwider, fun other hother hother' id hid => ?_⟩
    by_cases heq : other = item
    · -- an item that goes through has no finding, since it has not failed before
      subst heq
      obtain hfailed | ⟨finding, hfinding⟩ := hother' (by simp)
      · exact absurd hfailed hnew
      · obtain hold | ⟨earlier, hearlier, hposition, -⟩ := h.findings _ hfinding
        · obtain ⟨failed, hfailed, hposition, hid'⟩ := hfails _ hold
          have hsame : failed = other := eq_of_position hplaces hfailed hother hposition
          exact absurd (h.failed ▸ hsame ▸ hid') hnew
        · exact absurd hposition (Nat.ne_of_lt (hbefore earlier hearlier other (by simp)))
    · have hapart : ¬ item.Inside cx id := fun hinside =>
        hitems.apart hother (by simp) heq (harena ▸ hid) (harena ▸ hinside.1)
      refine ((hmoves.ok hok).get?_eq hapart).trans (h.same other hother (fun hseen => ?_) id hid)
      exact hother' (List.mem_append_left _ hseen)
  | @found finding state hnew hfound =>
    have hkeeps := keeps_of_attempt_error hmoves
      (fun _ hid => by simp [h.visited.fresh hitems harena hid]) hfound
    have hfails' : CanFail cx item := by
      obtain ⟨_, _, herror, -⟩ := attempt_eq_error hfound
      exact ⟨_, _, _, herror⟩
    refine ⟨hvisited, h.failed, fun f hf => ?_, fun other hother hother' id hid => ?_⟩
    · obtain hf | hf := List.mem_append.mp hf
      · exact hwider f hf
      · obtain rfl := List.mem_singleton.mp hf
        exact .inr ⟨item, by simp, rfl, hfails'⟩
    · refine (hkeeps.annotations id trivial).trans (h.same other hother (fun hseen => ?_) id hid)
      obtain hfailed | ⟨found, hmem⟩ := hother' (List.mem_append_left _ hseen)
      · exact .inl hfailed
      · obtain hold | hnew' := List.mem_append.mp hmem
        · exact .inr ⟨found, hold⟩
        · have hposition := congrArg Prod.fst (List.mem_singleton.mp hnew')
          exact absurd hposition (Nat.ne_of_lt (hbefore other hseen item (by simp)))

/-- **A failed item leaves what registration left.** -/
theorem discards_of_checkItems {program : Program} (hitems : ItemsOf program items)
    (harena : cx.arena = program.arena)
    (hplaces : items.Pairwise fun a b => a.position < b.position)
    (hq : registered cx items table = .ok q) (h : q.checkItems cx items = .ok p) :
    Discards cx items items q p := by
  have hsteps := registered_steps hq
  have hready := ready_of_steps hsteps
  have hstart : Discards cx items [] q q :=
    ⟨fun id hid => .inr (hready.annotated id hid), rfl, fun _ => .inl, fun _ _ _ _ _ => rfl⟩
  refine checkItems_invariant (P := fun seen p => Discards cx items seen q p)
    (fun seen item rest p p' hsplit hp hstep => ?_) hstart h
  subst hsplit
  exact hp.step hitems harena hplaces (failsAt_of_steps hsteps) hstep

/-- A function that is defined elsewhere and has a finding could not be registered. -/
theorem Discards.failed_of_foreign (h : Discards cx items items q p)
    (hplaces : items.Pairwise fun a b => a.position < b.position) (hfails : FailsAt items q)
    (hitem : item ∈ items) {name : String} {params : List (String × TypeExpr)}
    {result : Option TypeExpr} (hkind : item.node.kind = .foreign name params result)
    {finding : Finding} (hfinding : (item.position, finding) ∈ p.findings) :
    item.id ∈ q.failed := by
  obtain hold | ⟨other, hother, hposition, s, cause, s', herror⟩ := h.findings _ hfinding
  · obtain ⟨other, hother, hposition, hfailed⟩ := hfails _ hold
    exact eq_of_position hplaces hother hitem hposition ▸ hfailed
  · obtain rfl := eq_of_position hplaces hother hitem hposition
    simp only [checkItem, hkind] at herror
    cases herror

/-- **What a failed item leaves behind.** Below an item with a finding, no node has a type but that
of the item itself, if it is a function that could be registered or a struct that could be declared.
It is the type that registration gave: a signature, or that of the struct. -/
theorem annotated_iff_of_run {program : Program} (htree : program.IsTree)
    (harena : cx.arena = program.arena) (hcanonical : table.Canonical)
    (hrun : run cx program.items table = .ok p) :
    ∃ items q, itemsFrom cx.arena 0 program.items = .ok items ∧
      registered cx items table = .ok q ∧ ∀ item ∈ items, ∀ finding,
        (item.position, finding) ∈ p.findings → ∀ id, cx.arena.Below item.id id →
          (p.state.annotations.get? id ≠ none ↔
            id = item.id ∧ (item.IsSigned q ∨ item.IsDeclared table items)) ∧
          ∀ type, p.state.annotations.get? id = some type →
            q.state.annotations.get? id = some type ∧
            (item.IsSigned q → p.state.table.IsSignature type) ∧
            ∀ name fields, item.node.kind = .struct name fields →
              ∃ filled, p.state.table.form? type = some (.declared name filled) := by
  obtain ⟨items, q, hfrom, hregistered, hcheck⟩ := run_eq_ok.mp hrun
  refine ⟨items, q, hfrom, hregistered, fun item hitem finding hfinding id hid => ?_⟩
  have hitems := itemsOf_of_itemsFrom htree (harena ▸ hfrom)
  have hplaces := pairwise_position hfrom
  have hdiscards := discards_of_checkItems hitems harena hplaces hregistered hcheck
  have hsteps := registered_steps hregistered
  have hready := ready_of_steps hsteps
  have hextends := extends_of_checkItems hcheck
  rw [hdiscards.same item hitem (fun _ => .inr ⟨finding, hfinding⟩) id hid]
  -- registration gives types to registered items only
  have honly : q.state.annotations.get? id ≠ none → id = item.id ∧ item.IsRegistered := by
    intro hne
    obtain ⟨other, hother, rfl, hother'⟩ := hready.annotated id hne
    have heq := htree.eq_of_below_item (hitems.mem_items hother) (harena ▸ hid)
    obtain rfl := hitems.eq_of_id hitem hother heq
    exact ⟨rfl, hother'⟩
  have hannotated : q.state.annotations.get? item.id ≠ none ↔
      item.IsSigned q ∨ item.IsDeclared table items :=
    annotated_iff_of_registered hcanonical htree.nodup_items hfrom hregistered hitem
      fun _ _ _ hkind => hdiscards.failed_of_foreign hplaces (failsAt_of_steps hsteps) hitem
        hkind hfinding
  refine ⟨⟨fun hne => ?_, ?_⟩, fun type htype => ?_⟩
  · obtain ⟨rfl, -⟩ := honly hne
    exact ⟨rfl, hannotated.mp hne⟩
  · rintro ⟨rfl, hkept⟩
    exact hannotated.mpr hkept
  · obtain ⟨rfl, -⟩ := honly (by simp [htype])
    refine ⟨htype, fun hsigned => ?_, fun name fields hkind => ?_⟩
    · obtain ⟨⟨name, kind, params, result, body, hkind⟩, -⟩ := hsigned
      have hdef : item.functionDef? = some (item.position,
          ⟨item.id, item.node.span, name, some kind, params, result⟩) := by
        simp only [Item.functionDef?, hkind]
      have hsigned :=
        signed_of_registered hcanonical htree.nodup_items hfrom hregistered hitem hdef
      exact (hsigned.signed type htype).grows hextends.grows
    · have hdef : item.structDef? = some (item.position,
          ⟨item.id, item.node.span, name, fields⟩) := by
        simp only [Item.structDef?, hkind]
      obtain ⟨filled, hform⟩ :=
        (declared_of_registered hcanonical htree.nodup_items hfrom hregistered hitem hdef).2
          type htype
      exact ⟨filled, hextends.form? hform⟩

end RuleTypes.Check
