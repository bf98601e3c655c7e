import RuleTypes.Proofs.Check.Confined
import RuleTypes.Proofs.Check.Registered

/-!
# A run over the items

The items of a program are registered first (`Ready`) and then looked at one after another
(`ItemStep`). On the way, a node that has a type lies below an item looked at before, or is the node
of a registered definition (`Visited`): an item that ends in a finding changes no annotation, and in
a program shaped as a row of trees no item changes what lies below another.
-/

namespace RuleTypes.Check

open Relation

variable {cx : Setting} {s s' : State} {p p' : Progress} {item : Item} {items : List Item}

/-! ## Items -/

theorem itemsFrom_cons_eq_ok {arena : Arena} {position : Nat} {id : NodeId} {ids : List NodeId} :
    itemsFrom arena position (id :: ids) = .ok items ↔ ∃ node rest, arena.node? id = some node ∧
      itemsFrom arena (position + 1) ids = .ok rest ∧ items = ⟨position, id, node⟩ :: rest := by
  constructor
  · intro h
    cases hnode : arena.node? id with
    | none => simp [itemsFrom, hnode] at h
    | some node =>
      rw [itemsFrom, hnode] at h
      obtain ⟨rest, hrest, h⟩ := except_bind_eq_ok.mp h
      exact ⟨node, rest, rfl, hrest, (Except.ok.inj h).symm⟩
  · rintro ⟨node, rest, hnode, hrest, rfl⟩
    rw [itemsFrom, hnode]
    exact except_bind_eq_ok.mpr ⟨rest, hrest, rfl⟩

theorem itemsFrom_eq_ok {arena : Arena} {position : Nat} {ids : List NodeId}
    (h : itemsFrom arena position ids = .ok items) : items.map (·.id) = ids ∧
      ∀ i item, items[i]? = some item → item.position = position + i ∧
        arena.node? item.id = some item.node := by
  induction ids generalizing position items with
  | nil =>
    cases h
    exact ⟨rfl, fun i item hi => by simp at hi⟩
  | cons id ids ih =>
    obtain ⟨node, rest, hnode, hrest, rfl⟩ := itemsFrom_cons_eq_ok.mp h
    obtain ⟨hids, hrest⟩ := ih hrest
    refine ⟨by rw [List.map_cons, hids], ?_⟩
    rintro (_ | i) item hi
    · cases hi
      exact ⟨rfl, hnode⟩
    · obtain ⟨hposition, hitem⟩ := hrest i item hi
      exact ⟨by omega, hitem⟩

theorem node?_of_itemsFrom {arena : Arena} {position : Nat} {ids : List NodeId}
    (h : itemsFrom arena position ids = .ok items) (hitem : item ∈ items) :
    arena.node? item.id = some item.node := by
  obtain ⟨i, hi⟩ := List.mem_iff_getElem?.mp hitem
  exact ((itemsFrom_eq_ok h).2 i item hi).2

/-- An item stands at its place in the program. -/
theorem getElem?_of_itemsFrom {arena : Arena} {ids : List NodeId}
    (h : itemsFrom arena 0 ids = .ok items) (hitem : item ∈ items) :
    ids[item.position]? = some item.id := by
  obtain ⟨hids, hplaces⟩ := itemsFrom_eq_ok h
  obtain ⟨i, hi⟩ := List.mem_iff_getElem?.mp hitem
  rw [(hplaces i item hi).1, Nat.zero_add, ← hids, List.getElem?_map, hi]
  rfl

theorem index_lt_of_itemsFrom {arena : Arena} {position : Nat} {ids : List NodeId}
    (h : itemsFrom arena position ids = .ok items) (hitem : item ∈ items) :
    item.id.index < arena.size := Arena.index_lt_of_node? (node?_of_itemsFrom h hitem)

/-- Different items stand in different places. -/
theorem position_eq_iff {arena : Arena} {ids : List NodeId} (hids : ids.Nodup)
    (h : itemsFrom arena 0 ids = .ok items) {other : Item} (hitem : item ∈ items)
    (hother : other ∈ items) : item.position = other.position ↔ item.id = other.id := by
  obtain ⟨hmap, hplaces⟩ := itemsFrom_eq_ok h
  obtain ⟨i, hi⟩ := List.mem_iff_getElem?.mp hitem
  obtain ⟨j, hj⟩ := List.mem_iff_getElem?.mp hother
  constructor
  · intro heq
    have hij : i = j := by
      have hposition := (hplaces i item hi).1
      have hposition' := (hplaces j other hj).1
      omega
    subst hij
    rw [Option.some.inj (hi.symm.trans hj)]
  · intro heq
    rw [List.inj_on_of_nodup_map (hmap ▸ hids) hitem hother heq]

/-- Definitions read off different items have different nodes. -/
theorem nodup_defs {β : Type} {f : Item → Option β} {node : β → NodeId}
    (hf : ∀ {item d}, f item = some d → node d = item.id) (h : (items.map (·.id)).Nodup) :
    ((items.filterMap f).map node).Nodup := by
  rw [List.Nodup, List.pairwise_map, List.pairwise_filterMap]
  refine (List.pairwise_map.mp h).imp fun hne d hd e he => ?_
  rw [hf hd, hf he]
  exact hne

/-- The item is registered before the items are looked at. -/
def Item.IsRegistered (item : Item) : Prop :=
  item.structDef?.isSome = true ∨ item.functionDef?.isSome = true

theorem node_of_structDef? {d : Nat × StructDef} (h : item.structDef? = some d) :
    d.1 = item.position ∧ d.2.node = item.id := by
  unfold Item.structDef? at h
  split at h <;> cases h
  exact ⟨rfl, rfl⟩

theorem node_of_functionDef? {d : Nat × FunctionDef} (h : item.functionDef? = some d) :
    d.1 = item.position ∧ d.2.node = item.id := by
  unfold Item.functionDef? at h
  split at h <;> cases h <;> exact ⟨rfl, rfl⟩

theorem structDef?_of_functionDef? {d : Nat × FunctionDef} (h : item.functionDef? = some d) :
    item.structDef? = none := by
  unfold Item.functionDef? at h
  unfold Item.structDef?
  split at h <;> simp_all

/-- No node defines both a struct and a function. -/
theorem node_ne_of_defs {arena : Arena} {position : Nat} {ids : List NodeId}
    (hitems : itemsFrom arena position ids = .ok items) {d : Nat × StructDef}
    {e : Nat × FunctionDef} (hd : d ∈ items.filterMap Item.structDef?)
    (he : e ∈ items.filterMap Item.functionDef?) : d.2.node ≠ e.2.node := by
  intro heq
  obtain ⟨item, hitem, hdef⟩ := List.mem_filterMap.mp hd
  obtain ⟨other, hother, hdef'⟩ := List.mem_filterMap.mp he
  have hid : item.id = other.id := by
    rw [← (node_of_structDef? hdef).2, heq, (node_of_functionDef? hdef').2]
  have hnode := node?_of_itemsFrom hitems hitem
  have hsame : item.node = other.node :=
    Option.some.inj ((hid ▸ hnode).symm.trans (node?_of_itemsFrom hitems hother))
  have hnone := structDef?_of_functionDef? hdef'
  unfold Item.structDef? at hnone hdef
  rw [hsame] at hdef
  split at hnone
  · cases hnone
  · simp_all

theorem mem_structDefs {position : Nat} {d : StructDef}
    (h : (position, d) ∈ items.filterMap Item.structDef?) :
    ∃ item ∈ items, item.position = position ∧ item.id = d.node ∧ item.IsRegistered := by
  obtain ⟨item, hitem, hdef⟩ := List.mem_filterMap.mp h
  obtain ⟨hposition, hnode⟩ := node_of_structDef? hdef
  exact ⟨item, hitem, hposition.symm, hnode.symm, .inl (by rw [hdef]; rfl)⟩

theorem mem_functionDefs {position : Nat} {d : FunctionDef}
    (h : (position, d) ∈ items.filterMap Item.functionDef?) :
    ∃ item ∈ items, item.position = position ∧ item.id = d.node ∧ item.IsRegistered := by
  obtain ⟨item, hitem, hdef⟩ := List.mem_filterMap.mp h
  obtain ⟨hposition, hnode⟩ := node_of_functionDef? hdef
  exact ⟨item, hitem, hposition.symm, hnode.symm, .inr (by rw [hdef]; rfl)⟩

/-! ## After registration -/

/-- What holds all through registration. -/
structure Ready (table : TypeTable) (items : List Item) (p : Progress) : Prop where
  basis : table.SameBasis p.state.table
  table : table.Grows p.state.table
  annotated : ∀ id, p.state.annotations.get? id ≠ none →
    ∃ item ∈ items, item.id = id ∧ item.IsRegistered
  failed : ∀ id ∈ p.failed, ∃ item ∈ items, item.id = id ∧
    ∃ finding, (item.position, finding) ∈ p.findings
  functions : p.functions = []

theorem Ready.register {table : TypeTable} {x : Check Unit} (hready : Ready table items p)
    (hitem : item ∈ items) (hregistered : item.IsRegistered)
    (hx : Moves (Enters (· = item.id)) x)
    (h : p.register item.position item.id x = .ok p') : Ready table items p' := by
  obtain ⟨r, state, hattempt, hresult⟩ := register_eq_ok h
  obtain ⟨hgrows, hannotated⟩ := attempt_enters hx hattempt
  have htable := hready.table.trans hgrows
  have hbasis := trans_of TypeTable.SameBasis hready.basis (attempt_sameBasis hx hattempt)
  have hnodes : ∀ id, state.annotations.get? id ≠ none →
      ∃ item ∈ items, item.id = id ∧ item.IsRegistered := by
    intro id hid
    obtain hold | rfl := hannotated id hid
    · exact hready.annotated id hold
    · exact ⟨item, hitem, rfl, hregistered⟩
  obtain ⟨rfl, rfl⟩ | ⟨finding, rfl, rfl⟩ := hresult
  · exact ⟨hbasis, htable, hnodes, hready.failed, hready.functions⟩
  · refine ⟨hbasis, htable, hnodes, ?_, hready.functions⟩
    rintro id (_ | ⟨_, hid⟩)
    · exact ⟨item, hitem, rfl, finding, List.mem_append_right _ (List.mem_singleton.mpr rfl)⟩
    · obtain ⟨other, hother, rfl, old, hold⟩ := hready.failed id hid
      exact ⟨other, hother, rfl, old, List.mem_append_left _ hold⟩

theorem Ready.step {table : TypeTable} (hready : Ready table items p)
    (h : RegisterStep cx items p p') : Ready table items p' := by
  cases h with
  | declare hd h =>
    obtain ⟨item, hitem, rfl, hid, hregistered⟩ := mem_structDefs hd
    rw [← hid] at h
    exact hready.register hitem hregistered (hid ▸ declareStruct_enters _) h
  | fill hd _ h =>
    obtain ⟨item, hitem, rfl, hid, hregistered⟩ := mem_structDefs hd
    rw [← hid] at h
    exact hready.register hitem hregistered (fillStruct_moves _) h
  | layout hd _ h =>
    obtain ⟨item, hitem, rfl, hid, hregistered⟩ := mem_structDefs hd
    rw [← hid] at h
    exact hready.register hitem hregistered (checkLayout_moves _) h
  | function hd h =>
    obtain ⟨item, hitem, rfl, hid, hregistered⟩ := mem_functionDefs hd
    rw [← hid] at h
    exact hready.register hitem hregistered (hid ▸ registerFunction_enters _) h

theorem ready_of_steps {table : TypeTable}
    (h : ReflTransGen (RegisterStep cx items) ⟨State.start table cx.arena.size, [], [], []⟩ p) :
    Ready table items p := by
  induction h with
  | refl =>
    refine ⟨refl_of TypeTable.SameBasis _, .refl, fun id hid => ?_,
      fun _ hid => absurd hid List.not_mem_nil, rfl⟩
    exact absurd (Annotations.get?_blank _ id) hid
  | tail _ hstep ih => exact ih.step hstep

/-! ## Looking at one item -/

/-- What the pass over the items does with one of them. -/
inductive ItemStep (cx : Setting) (item : Item) (p : Progress) : Progress → Prop
  | skip (hfailed : item.id ∈ p.failed) : ItemStep cx item p p
  | done {function? : Option CheckedFunction} {state : State} (hnew : item.id ∉ p.failed)
      (h : checkItem cx item p.state = .ok function? state) :
      ItemStep cx item p { p with state, functions := p.functions ++ function?.toList }
  | found {finding : Finding} {state : State} (hnew : item.id ∉ p.failed)
      (h : attempt (checkItem cx item) p.state = .ok (.error finding, state)) :
      ItemStep cx item p { p with state, findings := p.findings ++ [(item.position, finding)] }

theorem checkItems_cons_eq_ok (h : p.checkItems cx (item :: items) = .ok p') :
    ∃ q, ItemStep cx item p q ∧ q.checkItems cx items = .ok p' := by
  unfold Progress.checkItems at h
  by_cases hfailed : item.id ∈ p.failed
  · rw [if_pos (by simpa using hfailed)] at h
    exact ⟨p, .skip hfailed, h⟩
  · rw [if_neg (by simpa using hfailed)] at h
    obtain ⟨⟨r, state⟩, hattempt, h⟩ := except_bind_eq_ok.mp h
    cases r with
    | error finding => exact ⟨_, .found hfailed hattempt, h⟩
    | ok function? =>
      obtain ⟨_, heq, hok⟩ | ⟨_, _, _, heq, -⟩ := attempt_eq_ok hattempt
      · cases heq
        exact ⟨_, .done hfailed hok, h⟩
      · cases heq

/-- What every step keeps, given the items looked at before it, holds after the pass. -/
theorem checkItems_invariant {P : List Item → Progress → Prop}
    (hstep : ∀ seen item rest p p', items = seen ++ item :: rest → P seen p →
      ItemStep cx item p p' → P (seen ++ [item]) p')
    (hp : P [] p) (h : p.checkItems cx items = .ok p') : P items p' := by
  have hfrom : ∀ next seen p, items = seen ++ next → P seen p → p.checkItems cx next = .ok p' →
      P items p' := by
    intro next
    induction next with
    | nil =>
      intro seen p hsplit hseen h
      cases h
      rwa [hsplit, List.append_nil]
    | cons item next ih =>
      intro seen p hsplit hseen h
      obtain ⟨q, hq, hrest⟩ := checkItems_cons_eq_ok h
      have hnext := hstep seen item next p q hsplit hseen hq
      exact ih (seen ++ [item]) q (by simp [hsplit]) hnext hrest
  exact hfrom items [] p rfl hp h

/-- The nodes that the check of an item gives types to: those below it, but not the node of a
registered definition, which has its type. -/
def Item.Inside (cx : Setting) (item : Item) (id : NodeId) : Prop :=
  cx.arena.Below item.id id ∧ (item.IsRegistered → id ≠ item.id)

theorem inside_of_body (hforest : cx.arena.IsForest) {body id : NodeId}
    (hbody : cx.arena.IsChild item.id body) (hid : cx.arena.Below body id) : item.Inside cx id := by
  refine ⟨hbody.below.trans hid, ?_⟩
  rintro - rfl
  exact hforest.not_below_of_isChild hbody hid

theorem checkItem_moves {N : NodeId → Prop}
    (hwhole : ¬ item.IsRegistered → ∀ id, cx.arena.Below item.id id → N id)
    (hbody : ∀ body ∈ item.node.kind.children, ∀ id, cx.arena.Below body id → N id) :
    Moves (Later N) (checkItem cx item) := by
  have hinfer : ¬ item.IsRegistered → Moves (Later N) (infer cx item.id) := fun hnot =>
    (infer_later cx item.id).mono fun _ _ h => h.mono (hwhole hnot)
  unfold checkItem
  unfold Item.IsRegistered Item.structDef? Item.functionDef? at hinfer
  cases hkind : item.node.kind with
  | struct | foreign => exact .pure _
  | function name kind params result body =>
    refine .bind ((checkFunction_later _ _ _ _ _ _).mono fun _ _ h => h.mono ?_) fun _ => .pure _
    exact hbody body (by simp [hkind, NodeKind.children])
  | var name type start =>
    simp only [hkind] at hinfer
    exact .bind (hinfer (by simp)) fun _ => .pure _
  | _ =>
    simp only [hkind] at hinfer
    exact .bind (require_moves _ (.pure _) _) fun _ => .bind (hinfer (by simp)) fun _ => .pure _

theorem checkItem_forward (item : Item) : Moves (Later fun _ => True) (checkItem cx item) :=
  checkItem_moves (fun _ _ _ => trivial) fun _ _ _ _ => trivial

theorem checkItem_enters (item : Item) : Moves (Enters fun _ => True) (checkItem cx item) :=
  enters_of_later (checkItem_forward item)

theorem checkItem_later (hforest : cx.arena.IsForest)
    (hnode : cx.arena.node? item.id = some item.node) :
    Moves (Later (item.Inside cx)) (checkItem cx item) :=
  checkItem_moves (fun hnot _ hid => ⟨hid, fun hregistered => absurd hregistered hnot⟩)
    fun _ hbody _ hid => inside_of_body hforest ⟨item.node, hnode, hbody⟩ hid

/-! ## Looking at all items -/

/-- An item that ends in a finding leaves no annotation behind, unless it was provisional before. -/
theorem keeps_of_attempt_error {α : Type} {N : NodeId → Prop} {x : Check α} {finding : Finding}
    (hx : Moves (Later N) x) (hfinal : ∀ id, N id → s.annotations.get? id ≠ some .auto)
    (h : attempt x s = .ok (.error finding, s')) : Keeps (fun _ => True) s s' := by
  obtain ⟨s₁, annotations, herror, hback, rfl⟩ := attempt_eq_error h
  have hlater := hx.error herror
  obtain ⟨a, ha, -, -, hkept, houtside, -⟩ := hlater.annotations.rollback
  obtain rfl : annotations = a := Except.ok.inj (hback.symm.trans ha)
  refine ⟨hlater.table, hlater.names, hlater.operators, hlater.members, fun id _ => ?_⟩
  by_cases hN : N id
  · exact hkept id (hfinal id hN)
  · exact houtside id hN

/-- The items of a program whose rule code is a row of trees. -/
structure ItemsOf (program : Program) (items : List Item) : Prop where
  tree : program.IsTree
  ids : items.map (·.id) = program.items
  node : ∀ item ∈ items, program.arena.node? item.id = some item.node

namespace ItemsOf

variable {program : Program} {other : Item}

theorem mem_items (h : ItemsOf program items) (hitem : item ∈ items) : item.id ∈ program.items :=
  h.ids ▸ List.mem_map_of_mem hitem

theorem eq_of_id (h : ItemsOf program items) (hitem : item ∈ items) (hother : other ∈ items)
    (heq : item.id = other.id) : item = other :=
  List.inj_on_of_nodup_map (h.ids ▸ h.tree.nodup_items) hitem hother heq

theorem apart (h : ItemsOf program items) (hitem : item ∈ items) (hother : other ∈ items)
    (hne : item ≠ other) {id : NodeId} (hid : program.arena.Below item.id id) :
    ¬ program.arena.Below other.id id :=
  h.tree.not_below_of_item (h.mem_items hitem) (h.mem_items hother)
    (fun heq => hne (h.eq_of_id hitem hother heq)) hid

/-- What lies below an item lies below none of those before it. -/
theorem apart_of_seen {seen rest : List Item} (h : ItemsOf program (seen ++ item :: rest))
    (hother : other ∈ seen) {id : NodeId} (hid : program.arena.Below item.id id) :
    ¬ program.arena.Below other.id id := by
  have hnodup : (seen ++ item :: rest).Nodup := .of_map Item.id (h.ids ▸ h.tree.nodup_items)
  refine h.apart (by simp) (List.mem_append_left _ hother) ?_ hid
  rintro rfl
  exact (List.nodup_append.mp hnodup).2.2 item hother item (List.mem_cons_self ..) rfl

end ItemsOf

/-- A node that has a type lies below an item looked at before, or is that of a registered
definition. -/
def Visited (cx : Setting) (items seen : List Item) (p : Progress) : Prop :=
  ∀ id, p.state.annotations.get? id ≠ none →
    (∃ item ∈ seen, cx.arena.Below item.id id) ∨ ∃ item ∈ items, item.id = id ∧ item.IsRegistered

section Visiting

variable {program : Program} {seen rest : List Item}

/-- Nothing inside an item that has not been looked at has a type. -/
theorem Visited.fresh (hvisited : Visited cx (seen ++ item :: rest) seen p)
    (hitems : ItemsOf program (seen ++ item :: rest)) (harena : cx.arena = program.arena)
    {id : NodeId} (hid : item.Inside cx id) : p.state.annotations.get? id = none := by
  by_contra hannotated
  obtain ⟨other, hother, hbelow⟩ | ⟨other, hother, rfl, hregistered⟩ := hvisited id hannotated
  · exact hitems.apart_of_seen hother (harena ▸ hid.1) (harena ▸ hbelow)
  · have heq := hitems.tree.eq_of_below_item (hitems.mem_items hother) (harena ▸ hid.1)
    obtain rfl := hitems.eq_of_id (by simp) hother heq
    exact hid.2 hregistered rfl

theorem Visited.step (hvisited : Visited cx (seen ++ item :: rest) seen p)
    (hitems : ItemsOf program (seen ++ item :: rest)) (harena : cx.arena = program.arena)
    (h : ItemStep cx item p p') : Visited cx (seen ++ item :: rest) (seen ++ [item]) p' := by
  have hnode : cx.arena.node? item.id = some item.node := harena ▸ hitems.node item (by simp)
  have hmoves := checkItem_later (harena ▸ hitems.tree.isForest) hnode
  have hwider : Visited cx (seen ++ item :: rest) (seen ++ [item]) p := fun id hid =>
    (hvisited id hid).imp_left fun ⟨other, hother, hbelow⟩ =>
      ⟨other, List.mem_append_left _ hother, hbelow⟩
  cases h with
  | skip => exact hwider
  | done _ h =>
    intro id hid
    by_cases hinside : item.Inside cx id
    · exact .inl ⟨item, by simp, hinside.1⟩
    · exact hwider id ((hmoves.ok h).get?_eq hinside ▸ hid)
  | found _ h =>
    have hkeeps := keeps_of_attempt_error hmoves
      (fun _ hid => by simp [hvisited.fresh hitems harena hid]) h
    exact fun id hid => hwider id (hkeeps.annotations id trivial ▸ hid)

theorem Visited.checkItems (hvisited : Visited cx (seen ++ rest) [] p)
    (hitems : ItemsOf program (seen ++ rest)) (harena : cx.arena = program.arena)
    (h : p.checkItems cx seen = .ok p') : Visited cx (seen ++ rest) seen p' := by
  refine checkItems_invariant (fun before item after q q' hsplit hq hstep => ?_) hvisited h
  have hplace : seen ++ rest = before ++ item :: (after ++ rest) := by simp [hsplit]
  rw [hplace] at hitems hq ⊢
  exact hq.step hitems harena hstep

end Visiting

theorem itemsOf_of_itemsFrom {program : Program} (htree : program.IsTree)
    (h : itemsFrom program.arena 0 program.items = .ok items) : ItemsOf program items :=
  ⟨htree, (itemsFrom_eq_ok h).1, fun _ => node?_of_itemsFrom h⟩

theorem extends_of_checkItems (h : p.checkItems cx items = .ok p') :
    p.state.table.Extends p'.state.table := by
  refine checkItems_invariant (P := fun _ q => p.state.table.Extends q.state.table)
    (fun seen item rest q q' _ hq hstep => hq.trans ?_) (.refl _) h
  cases hstep with
  | skip => exact .refl _
  | done _ h => exact ((checkItem_forward item).ok h).table
  | found _ h =>
    obtain ⟨_, _, herror, -, rfl⟩ := attempt_eq_error h
    exact ((checkItem_forward item).error herror).table

theorem grows_of_checkItems (h : p.checkItems cx items = .ok p') :
    p.state.table.Grows p'.state.table := (extends_of_checkItems h).grows

/-- Whatever is checked, the table only grows. -/
theorem grows_of_run {ids : List NodeId} {table : TypeTable} (hrun : run cx ids table = .ok p) :
    table.Grows p.state.table := by
  obtain ⟨items, q, -, hregistered, hcheck⟩ := run_eq_ok.mp hrun
  exact (ready_of_steps (registered_steps hregistered)).table.trans (grows_of_checkItems hcheck)

/-- Whatever is checked, no primitive type is added. -/
theorem sameBasis_of_run {ids : List NodeId} {table : TypeTable}
    (hrun : run cx ids table = .ok p) : table.SameBasis p.state.table := by
  obtain ⟨items, q, -, hregistered, hcheck⟩ := run_eq_ok.mp hrun
  exact trans_of TypeTable.SameBasis (ready_of_steps (registered_steps hregistered)).basis
    (extends_of_checkItems hcheck).sameBasis

end RuleTypes.Check
