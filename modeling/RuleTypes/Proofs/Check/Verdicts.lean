import RuleTypes.Proofs.Check.Discarded

/-!
# One verdict for each item

Five passes go over the items, and an item can come up in all of them. What keeps them from judging
an item twice is the list of those that have failed: in registration an item gets a finding exactly
when it is entered there (`Tallies.failed_iff`), and it is entered once
(`nodup_failed_of_registered`). The last pass looks at the others, each of which then has either a
finding or, if it is a function, an entry in the list of functions (`Judged`). So findings are those
of different items (`findings_of_run`), and sorting puts them in the order of the items.

The names in the report are those of the structs without a finding (`names_iff_of_run`).
-/

namespace RuleTypes.Check

open TypeTable

variable {cx : Setting} {s s' : State} {p p' q : Progress} {item : Item}
  {items seen rest : List Item} {ids : List NodeId} {table : TypeTable}

/-! ## Findings and failures -/

/-- The item has no finding. -/
def Item.passes (p : Progress) (item : Item) : Bool :=
  p.findings.all fun f => f.1 ≠ item.position

theorem Item.passes_iff : item.passes p = true ↔ item.position ∉ p.findings.map (·.1) := by
  simp only [Item.passes, List.all_eq_true, decide_eq_true_eq, List.mem_map, not_exists, not_and]

theorem Item.passes_eq_false_iff :
    item.passes p = false ↔ item.position ∈ p.findings.map (·.1) := by
  rw [← Bool.not_eq_true, Item.passes_iff, not_not]

theorem Tallies.failed_iff (h : Tallies items q) (hids : (items.map (·.id)).Nodup)
    (hplaces : items.Pairwise fun a b => a.position < b.position) (hitem : item ∈ items) :
    item.id ∈ q.failed ↔ item.passes q = false := by
  obtain ⟨found, hsub, hpositions, hfailed⟩ := h
  rw [Item.passes_eq_false_iff, hpositions, ← List.mem_reverse, hfailed]
  constructor
  · intro hmem
    obtain ⟨other, hother, heq⟩ := List.mem_map.mp hmem
    obtain rfl := List.inj_on_of_nodup_map hids (hsub hother) hitem heq
    exact List.mem_map_of_mem hother
  · intro hmem
    obtain ⟨other, hother, heq⟩ := List.mem_map.mp hmem
    obtain rfl := eq_of_position hplaces (hsub hother) hitem heq
    exact List.mem_map_of_mem hother

theorem nodup_failed_of_registerFunctions {defs : List (Nat × FunctionDef)}
    (hnodup : (defs.map (·.2.node)).Nodup) (hnew : ∀ d ∈ defs, d.2.node ∉ p.failed)
    (hp : p.failed.Nodup) (h : p.registerFunctions cx defs = .ok p') : p'.failed.Nodup := by
  induction defs generalizing p with
  | nil =>
    cases h
    exact hp
  | cons first defs ih =>
    obtain ⟨p₁, hregister, hrest⟩ := except_bind_eq_ok.mp h
    obtain ⟨hfirst, hdefs⟩ := List.forall_mem_cons.mp hnew
    rw [List.map_cons, List.nodup_cons] at hnodup
    obtain ⟨hfailed, -⟩ | ⟨_, hfailed, -⟩ := failed_of_register hregister
    · exact ih hnodup.2 (hfailed ▸ hdefs) (hfailed ▸ hp) hrest
    · refine ih hnodup.2 (fun d hd => ?_) (hfailed ▸ List.nodup_cons.mpr ⟨hfirst, hp⟩) hrest
      have hne : d.2.node ≠ first.2.node := fun heq => hnodup.1 (heq ▸ List.mem_map_of_mem hd)
      simp [hfailed, hne, hdefs d hd]

/-- No item fails twice. -/
theorem nodup_failed_of_registered (hcanonical : table.Canonical) (hids : ids.Nodup)
    (hitems : itemsFrom cx.arena 0 ids = .ok items) (h : registered cx items table = .ok q) :
    q.failed.Nodup := by
  obtain ⟨names, p, -, hsettled, hfunctions⟩ :=
    settled_of_registered hcanonical hids hitems h
  have hstanding := hsettled.built.standing
  have hnodup := nodup_defs (fun h => (node_of_functionDef? h).2)
    ((itemsFrom_eq_ok hitems).1 ▸ hids)
  exact nodup_failed_of_registerFunctions hnodup
    (fun d hd => notMem_failed_of_functionDef? hcanonical hids hitems hstanding hd)
    hstanding.recorded.nodup hfunctions

/-! ## The pass over the items -/

/-- The item is a function with a body. -/
def Item.isFunction (item : Item) : Bool :=
  match item.node.kind with
  | .function .. => true
  | _ => false

theorem nodes_of_checkItem {function? : Option CheckedFunction}
    (h : checkItem cx item s = .ok function? s') :
    function?.toList.map (·.node) = if item.isFunction then [item.id] else [] := by
  cases function? with
  | some f =>
    obtain ⟨name, kind, params, result, body, hkind, hfunction⟩ := checkItem_eq_some h
    obtain ⟨_, _, _, _, _, _, _, _, _, -, -, -, -, -, -, -, -, -, rfl⟩ :=
      checkFunction_eq_ok hfunction
    simp [Item.isFunction, hkind]
  | none =>
    unfold checkItem at h
    cases hkind : item.node.kind with
    | function name kind params result body =>
      simp only [hkind, bind_eq_ok, pure_eq_ok, reduceCtorEq, false_and, and_false,
        exists_false] at h
    | _ => simp [Item.isFunction, hkind]

/-- What holds while items are looked at, when `q` is where registration ended: there are findings
for some of the items that had not failed, and the functions among the others are listed. -/
structure Judged (q : Progress) (seen : List Item) (p : Progress) : Prop where
  failed : p.failed = q.failed
  findings : ∃ found : List Item, found.Sublist (seen.filter (·.id ∉ q.failed)) ∧
    p.findings.map (·.1) = q.findings.map (·.1) ++ found.map (·.position)
  functions : p.functions.map (·.node) =
    (seen.filter fun item => item.isFunction && item.passes p).map (·.id)

section Step

variable (hplaces : (seen ++ item :: rest).Pairwise fun a b => a.position < b.position)

include hplaces

theorem position_lt_of_mem {other : Item} (hother : other ∈ seen) :
    other.position < item.position :=
  (List.pairwise_append.mp hplaces).2.2 other hother item (List.mem_cons_self ..)

/-- An item that is looked at has no finding yet. -/
theorem Judged.passes (h : Judged q seen p) (hq : item.passes q = true) :
    item.passes p = true := by
  obtain ⟨found, hfound, hpositions⟩ := h.findings
  rw [Item.passes_iff] at hq ⊢
  rw [hpositions, List.mem_append, not_or]
  refine ⟨hq, fun hmem => ?_⟩
  obtain ⟨other, hother, heq⟩ := List.mem_map.mp hmem
  have hseen : other ∈ seen := List.mem_of_mem_filter (hfound.subset hother)
  exact absurd heq (Nat.ne_of_lt (position_lt_of_mem hplaces hseen))

/-- The step for one item. -/
theorem Judged.step (h : Judged q seen p)
    (hfailed : item.id ∈ q.failed ↔ item.passes q = false) (hstep : ItemStep cx item p p') :
    Judged q (seen ++ [item]) p' := by
  obtain ⟨found, hfound, hpositions⟩ := h.findings
  have hwider : found.Sublist ((seen ++ [item]).filter (·.id ∉ q.failed)) :=
    hfound.trans ((List.sublist_append_left seen [item]).filter _)
  cases hstep with
  | skip hskip =>
    refine ⟨h.failed, ⟨found, hwider, hpositions⟩, ?_⟩
    -- a failed item has its finding from registration
    have hpasses : item.passes p = false := by
      have hold := hfailed.mp (h.failed ▸ hskip)
      rw [Item.passes_eq_false_iff] at hold ⊢
      exact hpositions ▸ List.mem_append_left _ hold
    simpa [hpasses] using h.functions
  | @done function? state hnew hok =>
    refine ⟨h.failed, ⟨found, hwider, hpositions⟩, ?_⟩
    have hpasses : item.passes p = true :=
      h.passes hplaces (Bool.not_eq_false _ ▸ mt hfailed.mpr (h.failed ▸ hnew))
    have hsame : ∀ other : Item, other.passes
        { p with state, functions := p.functions ++ function?.toList } = other.passes p :=
      fun _ => rfl
    simp only [hsame, List.map_append, List.filter_append, h.functions, nodes_of_checkItem hok]
    cases hfunction : item.isFunction <;> simp [hfunction, hpasses]
  | @found finding state hnew _ =>
    have hnew' : item.id ∉ q.failed := h.failed ▸ hnew
    refine ⟨h.failed, ⟨found ++ [item], ?_, ?_⟩, ?_⟩
    · simpa [List.filter_append, hnew'] using hfound
    · simp [hpositions]
    · -- the items before keep their verdicts, since they stand in other places
      have hseen : ∀ other ∈ seen, other.passes
          { p with state, findings := p.findings ++ [(item.position, finding)] } =
            other.passes p := by
        intro other hother
        have hne := Nat.ne_of_gt (position_lt_of_mem hplaces hother)
        simp [Item.passes, hne]
      have hitem : item.passes
          { p with state, findings := p.findings ++ [(item.position, finding)] } = false := by
        simp [Item.passes]
      rw [List.filter_append, List.filter_cons_of_neg (by simp [hitem]), List.filter_nil,
        List.append_nil, List.filter_congr fun other hother => by rw [hseen other hother]]
      exact h.functions

end Step

section Run

variable (hcanonical : table.Canonical) (hids : ids.Nodup)
  (hitems : itemsFrom cx.arena 0 ids = .ok items) (hq : registered cx items table = .ok q)
  (h : q.checkItems cx items = .ok p)

include hids hitems hq h

theorem judged_of_checkItems : Judged q items p := by
  have hsteps := registered_steps hq
  have hplaces := pairwise_position hitems
  have hfailed : ∀ item ∈ items, (item.id ∈ q.failed ↔ item.passes q = false) := fun item =>
    (tallies_of_steps hsteps).failed_iff ((itemsFrom_eq_ok hitems).1 ▸ hids) hplaces
  have hstart : Judged q [] q :=
    ⟨rfl, ⟨[], List.nil_sublist _, by simp⟩, by simp [(ready_of_steps hsteps).functions]⟩
  refine checkItems_invariant (P := fun seen p => Judged q seen p)
    (fun seen item rest p p' hsplit hp hstep => ?_) hstart h
  subst hsplit
  exact hp.step hplaces (hfailed item (by simp)) hstep

include hcanonical

/-- **There is one finding for an item at most.** -/
theorem findings_of_run :
    ∃ found ⊆ items, found.Nodup ∧ p.findings.map (·.1) = found.map (·.position) := by
  obtain ⟨first, hfirst, hpositions, hfailed⟩ := tallies_of_steps (registered_steps hq)
  obtain ⟨second, hsecond, hpositions'⟩ := (judged_of_checkItems hids hitems hq h).findings
  have hnodup : items.Nodup := .of_map Item.id ((itemsFrom_eq_ok hitems).1 ▸ hids)
  have hnodup' := nodup_failed_of_registered hcanonical hids hitems hq
  refine ⟨first ++ second, ?_, List.nodup_append'.mpr ⟨?_, ?_, fun item hitem hitem' => ?_⟩, ?_⟩
  · exact List.append_subset.mpr ⟨hfirst, (hsecond.trans List.filter_sublist).subset⟩
  · exact .of_map Item.id (hfailed ▸ List.nodup_reverse.mpr hnodup')
  · exact hnodup.sublist (hsecond.trans List.filter_sublist)
  · -- the last pass passes over the items that have failed
    have hmem : item.id ∈ q.failed.reverse := hfailed ▸ List.mem_map_of_mem hitem
    have hnew : item ∈ items ∧ item.id ∉ q.failed := by simpa using hsecond.subset hitem'
    exact hnew.2 (List.mem_reverse.mp hmem)
  · rw [hpositions', hpositions, List.map_append]

/-- **A listed function has the type of its node as its signature.** -/
theorem signature_of_run {f : CheckedFunction} (hf : f ∈ p.functions) :
    p.state.annotations.get? f.node = some f.signature ∧ ∃ item ∈ items, item.id = f.node ∧
      ∃ params result body, item.node.kind = .function f.name f.kind params result body := by
  have hready := ready_of_steps (registered_steps hq)
  have hlisted := listed_of_checkItems hready.functions h
  obtain ⟨item, hitem, hlists⟩ := hlisted.lists f hf
  obtain ⟨params, result, body, hkind⟩ := hlists.kind
  refine ⟨?_, item, hitem, hlists.node, params, result, body, hkind⟩
  have hdef : item.functionDef? = some (item.position,
      ⟨item.id, item.node.span, f.name, some f.kind, params, result⟩) := by
    simp only [Item.functionDef?, hkind]
  have hsigned := signed_of_registered hcanonical hids hitems hq hitem hdef
  rw [hlists.node] at hsigned
  obtain ⟨type, htype⟩ := Option.ne_none_iff_exists'.mp (hsigned.annotated.mpr hlists.registered)
  have hne : type ≠ .auto :=
    (hsigned.signed type htype).ne_auto (hcanonical.grows hready.table)
  rw [hlists.signature type htype hne]
  exact hlisted.kept f.node type htype hne

/-- **The functions without a finding are listed**, in the order of the items. -/
theorem functions_of_run :
    List.Forall₂ (fun item f => item.id = f.node ∧
        (∃ params result body, item.node.kind = .function f.name f.kind params result body) ∧
        p.state.annotations.get? item.id = some f.signature)
      (items.filter fun item => item.isFunction && item.passes p) p.functions := by
  have hnodes : List.Forall₂ (fun item f => item.id = f.node)
      (items.filter fun item => item.isFunction && item.passes p) p.functions := by
    refine List.forall₂_map_left_iff.mp (List.forall₂_map_right_iff (R := Eq).mp ?_)
    rw [List.forall₂_eq_eq_eq]
    exact (judged_of_checkItems hids hitems hq h).functions.symm
  rw [List.forall₂_iff_zip] at hnodes ⊢
  refine ⟨hnodes.1, fun {item f} hmem => ?_⟩
  obtain ⟨hitem, hf⟩ := List.of_mem_zip hmem
  have hid : item.id = f.node := hnodes.2 hmem
  obtain ⟨htype, other, hother, hid', hkind⟩ := signature_of_run hcanonical hids hitems hq h hf
  obtain rfl := List.inj_on_of_nodup_map ((itemsFrom_eq_ok hitems).1 ▸ hids) hother
    (List.mem_of_mem_filter hitem) (hid'.trans hid.symm)
  exact ⟨hid, hkind, hid ▸ htype⟩

/-! ## Names -/

/-- **The names are those of the structs without a finding.** -/
theorem names_iff_of_run (name : String) (id : TypeId) :
    p.state.names.get? name = some id ↔
      ∃ item ∈ items, (∃ fields, item.node.kind = .struct name fields) ∧
        item.passes p = true ∧ p.state.annotations.get? item.id = some id := by
  obtain ⟨names, p₀, -, hsettled, hfunctions⟩ := settled_of_registered hcanonical hids hitems hq
  have hstanding := hsettled.built.standing
  have hentered := functionsEntered_of_ok hfunctions
  have hpasses := passesStructs_of_checkItems h
  have hready := ready_of_steps (registered_steps hq)
  have hlisted := listed_of_checkItems hready.functions h
  -- a struct passes if it has not failed, for later passes find nothing in it
  have hverdict : ∀ item ∈ items, ∀ d, item.structDef? = some d →
      (item.passes p = true ↔ d.2.node ∉ p₀.failed) := by
    intro item hitem d hd
    have hmem : d ∈ items.filterMap Item.structDef? := List.mem_filterMap.mpr ⟨item, hitem, hd⟩
    have hfound := (hpasses.found_iff hids hitems hmem).trans
      ((hentered.passesStructs.found_iff hids hitems hmem).trans (hstanding.recorded.found d hmem))
    rw [← hfound, Item.passes_iff, (node_of_structDef? hd).1]
    simp
  -- and a struct that is declared keeps its id
  have hkept : ∀ item ∈ items, ∀ d id, item.structDef? = some d →
      Owns (Roster.ofItems hcanonical hids hitems) names p₀.state d.2 id →
      p.state.annotations.get? item.id = some id := by
    intro item hitem d id hd howns
    obtain ⟨fields, hform, -⟩ := howns.declared
    refine hlisted.kept item.id id ?_ ?_
    · rw [hentered.get?_struct hitems hitem hd, ← (node_of_structDef? hd).2]
      exact howns.annotated
    · rintro rfl
      have hcanonical' := hcanonical.grows hready.table
      cases (hentered.state.table.form? hform).symm.trans hcanonical'.auto
  rw [hpasses.names, hentered.passesStructs.names, hstanding.bound]
  constructor
  · rintro ⟨hid, d, hd, rfl, hnew⟩
    obtain ⟨position, hmem⟩ := Roster.mem_defs hd
    obtain ⟨item, hitem, hdef⟩ := List.mem_filterMap.mp hmem
    obtain ⟨id', howns⟩ := hstanding.owns d hd
    obtain rfl : id' = id := Option.some.inj (howns.named.symm.trans hid)
    exact ⟨item, hitem, ⟨d.fields, (structDef?_eq_some.mp hdef).1⟩,
      (hverdict item hitem _ hdef).mpr hnew, hkept item hitem _ id' hdef howns⟩
  · rintro ⟨item, hitem, ⟨fields, hkind⟩, hitem', htype⟩
    have hdef : item.structDef? = some (item.position, ⟨item.id, item.node.span, name, fields⟩) :=
      structDef?_eq_some.mpr ⟨hkind, rfl, rfl, rfl⟩
    have hnew := (hverdict item hitem _ hdef).mp hitem'
    have hd := hstanding.skipped _ (List.mem_filterMap.mpr ⟨item, hitem, hdef⟩) hnew
    obtain ⟨id', howns⟩ := hstanding.owns _ hd
    obtain rfl : id' = id :=
      Option.some.inj ((hkept item hitem _ id' hdef howns).symm.trans htype)
    exact ⟨howns.named, _, hd, rfl, hnew⟩

end Run

/-! ## The report -/

/-- What the report of a run says of the items. -/
structure Verdicts (items : List Item) (p : Progress) : Prop where
  /-- An item has one finding at most, and the report has the findings in the order of the items. -/
  findings : ∃ found : List (Nat × Finding), found.Perm p.findings ∧
    found.Pairwise (fun a b => a.1 < b.1) ∧
    (∀ f ∈ found, ∃ item ∈ items, item.position = f.1) ∧ p.report.findings = found.map (·.2)
  /-- The functions are those without a finding, in order, with the types of their nodes. -/
  functions : List.Forall₂ (fun item f => item.id = f.node ∧
      (∃ params result body, item.node.kind = .function f.name f.kind params result body) ∧
      p.report.annotations.get? item.id = some f.signature)
    (items.filter fun item => item.isFunction && item.passes p) p.report.functions
  /-- The names are those of the structs without a finding, with the types of their nodes. -/
  names : ∀ name id, p.report.names.get? name = some id ↔
    ∃ item ∈ items, (∃ fields, item.node.kind = .struct name fields) ∧
      item.passes p = true ∧ p.report.annotations.get? item.id = some id

theorem pairwise_mergeSort_of_nodup {found : List (Nat × Finding)}
    (h : (found.map (·.1)).Nodup) :
    (found.mergeSort fun a b => decide (a.1 ≤ b.1)).Pairwise fun a b => a.1 < b.1 := by
  have hsorted : (found.mergeSort fun a b => decide (a.1 ≤ b.1)).Pairwise fun a b =>
      decide (a.1 ≤ b.1) := List.pairwise_mergeSort (fun a b c => by simpa using Nat.le_trans)
    (fun a b => by simpa using Nat.le_total a.1 b.1) found
  have hnodup := ((List.mergeSort_perm found fun a b => decide (a.1 ≤ b.1)).map _).nodup_iff.mpr h
  refine (hsorted.and (List.pairwise_map.mp hnodup)).imp fun hab => ?_
  have hle := of_decide_eq_true hab.1
  exact Nat.lt_of_le_of_ne hle hab.2

/-- **One verdict for each item.** -/
theorem verdicts_of_run (hcanonical : table.Canonical) (hids : ids.Nodup)
    (hrun : run cx ids table = .ok p) :
    ∃ items, itemsFrom cx.arena 0 ids = .ok items ∧ Verdicts items p := by
  obtain ⟨items, q, hitems, hq, h⟩ := run_eq_ok.mp hrun
  have hplaces := pairwise_position hitems
  refine ⟨items, hitems, ?_, functions_of_run hcanonical hids hitems hq h,
    names_iff_of_run hcanonical hids hitems hq h⟩
  obtain ⟨found, hsub, hnodup, hpositions⟩ := findings_of_run hcanonical hids hitems hq h
  have hperm := List.mergeSort_perm p.findings fun a b => decide (a.1 ≤ b.1)
  refine ⟨_, hperm, pairwise_mergeSort_of_nodup ?_, fun f hf => ?_, rfl⟩
  · rw [hpositions]
    exact hnodup.map_on fun item hitem other hother =>
      eq_of_position hplaces (hsub hitem) (hsub hother)
  · have hposition : f.1 ∈ found.map (·.position) :=
      hpositions ▸ List.mem_map_of_mem (hperm.mem_iff.mp hf)
    obtain ⟨item, hitem, heq⟩ := List.mem_map.mp hposition
    exact ⟨item, hsub hitem, heq⟩

end RuleTypes.Check
