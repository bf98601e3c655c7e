import RuleTypes.Proofs.Check.Attribution
import RuleTypes.Proofs.Check.Complete
import RuleTypes.Proofs.Check.Verdicts

/-!
# Jumps in their places

Where control flow below a node is in its place, so is every jump below it: a `return` fits the
function around it, and another jump has a loop above it (`Flows.jump`). Items that are no
definitions have no function around them, so they have no `return` at all when they go through
(`Placed`). Together this says where the jumps of a whole run stand (`jump_of_run`).
-/

namespace RuleTypes.Check

open Relation

variable {cx : Setting} {s s' : State} {result : Option TypeId} {loop : Bool} {id x : NodeId}
  {node : Node} {kind : Jump} {value : Option NodeId} {item : Item} {items seen : List Item}
  {p p' : Progress}

/-! ## Below a node -/

/-- A jump below the node keeps to its rule, and a loop that is around it is around the node or
below it. -/
theorem Flows.jump (h : Flows cx s result loop id) (hx : cx.arena.Below id x)
    (hnode : cx.arena.node? x = some node) (hkind : node.kind = .jump kind value) :
    ∃ type inLoop, FlowRule cx s result inLoop type (.jump kind value) ∧
      (inLoop = true → loop = true ∨ cx.arena.Surrounded NodeKind.isLoop id x) := by
  induction h with
  | @intro loop top parent type hparent htype hfinal hrule hparts ih =>
    obtain rfl | ⟨child, ⟨parent', hparent', hmem⟩, hbelow⟩ := ReflTransGen.cases_head hx
    · obtain rfl := Option.some.inj (hparent.symm.trans hnode)
      exact ⟨type, loop, hkind ▸ hrule, .inl⟩
    · obtain rfl := Option.some.inj (hparent'.symm.trans hparent)
      obtain ⟨type, inLoop, hjump, haround⟩ := ih child hmem hbelow
      refine ⟨type, inLoop, hjump, fun hinLoop => ?_⟩
      obtain hloop | hsurrounded := haround hinLoop
      · refine (Bool.or_eq_true_iff.mp hloop).imp_right fun hisLoop =>
          ⟨top, _, hparent, hisLoop, .refl _, hx, ?_⟩
        rintro rfl
        obtain rfl := Option.some.inj (hparent.symm.trans hnode)
        simp [hkind, NodeKind.isLoop] at hisLoop
      · exact .inr (hsurrounded.above (Arena.IsChild.below ⟨_, hparent, hmem⟩))

/-! ## Items -/

/-- An item that is no definition goes through if its inference does. -/
theorem infer_of_checkItem_ok (hitem : ¬ item.IsRegistered) {function? : Option CheckedFunction}
    (h : checkItem cx item s = .ok function? s') :
    ∃ type, Check.infer cx item.id s = .ok type s' := by
  unfold checkItem at h
  unfold Item.IsRegistered Item.structDef? Item.functionDef? at hitem
  cases hkind : item.node.kind with
  | struct | foreign | function => simp [hkind] at hitem
  | var =>
    simp only [hkind, bind_eq_ok, pure_eq_ok] at h
    obtain ⟨type, s₁, hinfer, -, rfl⟩ := h
    exact ⟨type, hinfer⟩
  | _ =>
    simp only [hkind, bind_eq_ok, pure_eq_ok, require_eq_ok] at h
    obtain ⟨_, _, ⟨-, rfl⟩, type, s₁, hinfer, -, rfl⟩ := h
    exact ⟨type, hinfer⟩

theorem flows_of_checkItem (hs : Aware cx s) (hframes : s.scope.frames = [])
    (hitem : ¬ item.IsRegistered) {function? : Option CheckedFunction}
    (h : checkItem cx item s = .ok function? s') : Flows cx s' none false item.id := by
  obtain ⟨type, hinfer⟩ := infer_of_checkItem_ok hitem h
  have hflows := (inferAt_flows _ hs hinfer).2
  have hwithin := within_of_global hframes
  rwa [hwithin.result, hwithin.inLoop] at hflows

/-! ## Runs -/

/-- What holds between the items: no frame is open, and below the items that went through and are no
definitions, control flow is in its place. -/
structure Placed (cx : Setting) (items seen : List Item) (p : Progress) : Prop
    extends Complete cx items seen p where
  frames : p.state.scope.frames = []
  flows : ∀ item ∈ seen, ¬ item.IsRegistered → item.id ∉ p.failed →
    (∀ finding, (item.position, finding) ∉ p.findings) → Flows cx p.state none false item.id

/-- Between items, final types stay. -/
theorem Complete.lasts (h : Complete cx items seen p) (hstep : ItemStep cx item p p') :
    Lasts p.state p'.state := by
  cases hstep with
  | skip => exact fun _ _ htype _ => htype
  | done _ hok => exact ((checkItem_forward item).ok hok).lasts
  | found _ hfound =>
    intro x type htype _
    have hkeeps := keeps_of_attempt_error (checkItem_forward item) (fun x _ => h.final x) hfound
    exact (hkeeps.annotations x trivial).trans htype

theorem Placed.step (h : Placed cx items seen p) (hitem : item ∈ items)
    (hnode : cx.arena.node? item.id = some item.node) (hstep : ItemStep cx item p p') :
    Placed cx items (seen ++ [item]) p' := by
  have hlasts := h.toComplete.lasts hstep
  refine ⟨h.toComplete.step hitem hnode hstep, frames_of_itemStep h.frames hstep,
    fun other hother hplain hnew hclean => ?_⟩
  obtain hother | hother := List.mem_append.mp hother
  · refine (h.flows other hother hplain ?_ ?_).mono hlasts
    · cases hstep <;> exact hnew
    · intro finding hfinding
      refine hclean finding ?_
      cases hstep with
      | skip | done => exact hfinding
      | found => exact List.mem_append_left _ hfinding
  · obtain rfl := List.mem_singleton.mp hother
    cases hstep with
    | skip hfailed => exact absurd hfailed hnew
    | done _ hok => exact flows_of_checkItem h.aware h.frames hplain hok
    | @found finding _ _ _ =>
      exact absurd (List.mem_append_right _ (List.mem_singleton.mpr rfl)) (hclean finding)

/-- **Items without a finding have their control flow in its place.** -/
theorem placed_of_run {ids : List NodeId} {table : TypeTable} (hcanonical : table.Canonical)
    (hbuiltin : cx.builtin.ClearIn .known table) (hitems : itemsFrom cx.arena 0 ids = .ok items)
    (hrun : run cx ids table = .ok p) : Placed cx items items p := by
  obtain ⟨items', q, hitems', hregistered, hcheck⟩ := run_eq_ok.mp hrun
  obtain rfl := Except.ok.inj (hitems'.symm.trans hitems)
  have hnode : ∀ item ∈ items', cx.arena.node? item.id = some item.node := fun _ =>
    node?_of_itemsFrom hitems
  refine checkItems_invariant (fun seen item rest p p' hsplit hp hstep => ?_)
    ⟨complete_of_registered hcanonical hbuiltin hnode hregistered,
      frames_of_steps (registered_steps hregistered), nofun⟩ hcheck
  have hitem : item ∈ items' := by simp [hsplit]
  exact hp.step hitem (hnode item hitem) hstep

/-- The node lies in the body of the function, and the value has the type of the result. No value
stands for `noValue`. -/
def ReturnsFrom (cx : Setting) (s : State) (function id : NodeId) (value : Option NodeId) : Prop :=
  ∃ node name kind params written body signature paramTypes result,
    cx.arena.node? function = some node ∧
    node.kind = .function name kind params written body ∧ cx.arena.Below body id ∧
    s.annotations.get? function = some signature ∧
    s.table.form? signature = some (.function paramTypes result) ∧
    (value = none → result = .noValue) ∧
    ∀ v, value = some v → s.annotations.get? v = some result

/-- Definitions without a body have no nodes below them, so no jumps. -/
theorem exists_body_of_jump (hitem : cx.arena.node? item.id = some item.node)
    (hregistered : item.IsRegistered) (hx : cx.arena.Below item.id x)
    (hnode : cx.arena.node? x = some node) (hkind : node.kind = .jump kind value) :
    ∃ name kind params written body, item.node.kind = .function name kind params written body ∧
      cx.arena.IsChild item.id body ∧ cx.arena.Below body x := by
  obtain heq | ⟨child, ⟨parent, hparent, hmem⟩, hbelow⟩ := ReflTransGen.cases_head hx
  · subst heq
    obtain rfl := Option.some.inj (hitem.symm.trans hnode)
    simp [Item.IsRegistered, Item.structDef?, Item.functionDef?, hkind] at hregistered
  · obtain rfl := Option.some.inj (hparent.symm.trans hitem)
    unfold Item.IsRegistered Item.structDef? Item.functionDef? at hregistered
    cases hitemKind : item.node.kind with
    | struct | foreign => simp [hitemKind, NodeKind.children] at hmem
    | function name kind params written body =>
      obtain rfl : child = body := by simpa [hitemKind, NodeKind.children] using hmem
      exact ⟨name, kind, params, written, child, rfl, ⟨_, hitem, hmem⟩, hbelow⟩
    | _ => simp [hitemKind] at hregistered

/-- A function without a finding is listed. -/
theorem exists_function_of_run {ids : List NodeId} {table : TypeTable}
    (hcanonical : table.Canonical) (hids : ids.Nodup)
    (hitems : itemsFrom cx.arena 0 ids = .ok items) (hrun : run cx ids table = .ok p)
    (hitem : item ∈ items) (hfunction : item.isFunction = true)
    (hclean : ∀ finding, (item.position, finding) ∉ p.findings) :
    ∃ f ∈ p.functions, item.id = f.node ∧
      p.state.annotations.get? item.id = some f.signature := by
  obtain ⟨items', q, hitems', hregister, hcheck⟩ := run_eq_ok.mp hrun
  obtain rfl := Except.ok.inj (hitems'.symm.trans hitems)
  have hpasses : item.passes p = true := by
    rw [Item.passes_iff, List.mem_map]
    rintro ⟨⟨position, finding⟩, hfinding, rfl⟩
    exact hclean finding hfinding
  have hlisted := functions_of_run hcanonical hids hitems hregister hcheck
  have hmem : item ∈ items'.filter fun item => item.isFunction && item.passes p :=
    List.mem_filter.mpr ⟨hitem, by rw [hfunction, hpasses]; rfl⟩
  obtain ⟨i, hi, rfl⟩ := List.getElem_of_mem hmem
  have hi' := hi.trans_eq hlisted.length_eq
  obtain ⟨hid, -, hsignature⟩ := hlisted.get hi hi'
  exact ⟨_, List.getElem_mem hi', hid, hsignature⟩

/-- **The jumps of an item without a finding are in their places.** A `return` returns from the
function that the item is, and around another jump there is a loop of the item. -/
theorem jump_of_run {program : Program} (htree : program.IsTree)
    (harena : cx.arena = program.arena) {table : TypeTable} (hcanonical : table.Canonical)
    (hbuiltin : cx.builtin.ClearIn .known table)
    (hitems : itemsFrom cx.arena 0 program.items = .ok items)
    (hrun : run cx program.items table = .ok p) (hitem : item ∈ items)
    (hclean : ∀ finding, (item.position, finding) ∉ p.findings)
    (hx : cx.arena.Below item.id x) (hnode : cx.arena.node? x = some node)
    (hkind : node.kind = .jump kind value) :
    (kind = .toCaller → ReturnsFrom cx p.state item.id x value) ∧
      (kind ≠ .toCaller → cx.arena.Surrounded NodeKind.isLoop item.id x) := by
  have hplaced := placed_of_run hcanonical hbuiltin hitems hrun
  have hitemsOf := itemsOf_of_itemsFrom htree (harena ▸ hitems)
  have hitemNode : cx.arena.node? item.id = some item.node := harena ▸ hitemsOf.node item hitem
  by_cases hregistered : item.IsRegistered
  · obtain ⟨name, k, params, written, body, hitemKind, hbody, hbelow⟩ :=
      exists_body_of_jump hitemNode hregistered hx hnode hkind
    obtain ⟨f, hf, hid, hsignature⟩ := exists_function_of_run hcanonical htree.nodup_items hitems
      hrun hitem (by simp [Item.isFunction, hitemKind]) hclean
    obtain ⟨fnode, name', k', params', written', body', hfnode, hfkind, hflows⟩ :=
      hplaced.listed f hf
    obtain rfl : item.node = fnode := Option.some.inj (hitemNode.symm.trans (hid ▸ hfnode))
    cases hitemKind.symm.trans hfkind
    obtain ⟨paramTypes, result, -, hform, -, hflows, -⟩ := hflows
    obtain ⟨type, inLoop, hrule, haround⟩ := hflows.jump hbelow hnode hkind
    refine ⟨?_, fun hne => ?_⟩
    · rintro rfl
      refine ⟨_, name, k, params, written, body, _, paramTypes, result, hitemNode, hitemKind,
        hbelow, hsignature, hform, ?_, ?_⟩
      · rintro rfl
        exact Option.some.inj hrule
      · rintro v rfl
        exact hrule.2
    · have hloop : inLoop = true := by cases kind <;> first | exact hrule | exact absurd rfl hne
      exact ((haround hloop).resolve_left Bool.false_ne_true).above hbody.below
  · have hnew : item.id ∉ p.failed := fun hfailed => by
      obtain ⟨other, hother, heq, finding, hfinding⟩ := hplaced.failed item.id hfailed
      rw [hitemsOf.eq_of_id hother hitem heq] at hfinding
      exact hclean finding hfinding
    obtain ⟨type, inLoop, hrule, haround⟩ :=
      (hplaced.flows item hitem hregistered hnew hclean).jump hx hnode hkind
    refine ⟨?_, fun hne => ?_⟩
    · -- no function is around
      rintro rfl
      cases value with
      | none => cases hrule
      | some v => exact absurd rfl hrule.1
    · have hloop : inLoop = true := by cases kind <;> first | exact hrule | exact absurd rfl hne
      exact (haround hloop).resolve_left Bool.false_ne_true

end RuleTypes.Check
