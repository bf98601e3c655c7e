import RuleTypes.Proofs.Check.Faultless
import RuleTypes.Proofs.Check.Globals
import RuleTypes.Proofs.Check.Registration

/-!
# A check comes to an end

In a program shaped as a row of trees, the check of an item meets no fault (`checkItem_safe`): when
the pass comes to the item, nothing inside it has a type, and a function that was registered has its
signature. An item that ends in a finding is undone. So the pass goes on to the last item, and the
whole check ends with a report (`run_ends`).
-/

namespace RuleTypes

/-! ## Paths that return -/

/-- Whether all paths return can be told of rule code that fits the depth. -/
theorem Arena.Fits.exists_returnsAt {arena : Arena} {depth : Nat} {id : NodeId}
    (h : arena.Fits depth id) : ∃ returns, arena.returnsAt depth id = .ok returns := by
  induction h with
  | @intro depth id node hnode _ ih =>
    unfold returnsAt
    simp only [hnode]
    cases hkind : node.kind with
    | jump kind value => cases kind <;> exact ⟨_, rfl⟩
    | block statements =>
      rw [hkind] at ih
      dsimp only
      split
      · exact ih _ (List.mem_of_getLast? ‹_›)
      · exact ⟨_, rfl⟩
    | branch condition thenArm elseArm =>
      rw [hkind] at ih
      cases elseArm with
      | none => exact ⟨_, rfl⟩
      | some elseArm =>
        obtain ⟨thenReturns, hthen⟩ := ih thenArm (by simp [NodeKind.children])
        obtain ⟨elseReturns, helse⟩ := ih elseArm (by simp [NodeKind.children])
        cases thenReturns with
        | false => exact ⟨false, except_bind_eq_ok.mpr ⟨false, hthen, rfl⟩⟩
        | true => exact ⟨elseReturns, except_bind_eq_ok.mpr ⟨true, hthen, helse⟩⟩
    | _ => exact ⟨_, rfl⟩

namespace Check

open TypeTable

variable {cx : Setting} {s s' : State} {p p' q : Progress} {item : Item} {items : List Item}
  {table : TypeTable}

/-! ## Items -/

theorem Setting.size_le_depth (cx : Setting) : cx.arena.size ≤ cx.depth := by
  unfold Setting.depth
  omega

theorem bindParams_safe (span : Span) (params : List (String × TypeExpr)) (types : List TypeId) :
    Safe (bindParams span params types) s := by
  induction params generalizing s types with
  | nil => exact .pure _
  | cons param params ih =>
    cases types with
    | nil => exact .pure _
    | cons type types => exact .bind bindName_safe fun _ _ _ => ih types

/-- The body of a function is looked at in a frame of its own, in which the parameters are bound. -/
theorem Sane.awaits_body (hs : Sane cx s) {signature result : TypeId} {types : List TypeId}
    (hform : s.table.form? signature = some (.function types result))
    (hknown : s.table.Known signature) {depth : Nat} {body : NodeId}
    (hfits : cx.arena.Fits depth body) (hfresh : Fresh cx s body) {span : Span}
    {params : List (String × TypeExpr)} {u : Unit}
    (hparams : bindParams span params types (s.opened (.function result)) = .ok u s') :
    Awaits cx depth [body] [result, signature] s' := by
  have hresult := hknown.result hform
  have hopened : Knows .known [] cx (s.opened (.function result)) :=
    hs.knows.push (if_neg (by simp)) fun _ heq => by
      cases heq
      exact hresult
  have hcarries : Carries .known [] cx (s.opened (.function result))
      (endState (bindParams span params types (s.opened (.function result)))) :=
    bindParams_carries span params fun type htype =>
      hknown.component hform (List.mem_append_left _ htype)
  rw [hparams] at hcarries
  have hlater : Later (fun _ => False) s s' :=
    (Later.of_scope s _).trans ((bindParams_later span params types).ok hparams)
  exact {
    sane := hs.later (hcarries hopened) hlater
    fits := List.forall_mem_singleton.mpr hfits
    fresh := List.forall_mem_singleton.mpr (hfresh.keeps (hlater.keeps fun _ _ => not_false))
    apart := List.pairwise_singleton ..
    known := by simpa using ⟨hresult.extends hlater.table, hknown.extends hlater.table⟩ }

/-- A function that has its signature can be checked. -/
theorem Sane.checkFunction_safe (hs : Sane cx s) (hforest : cx.arena.IsForest) {id body : NodeId}
    {signature : TypeId} (hsignature : s.annotations.get? id = some signature)
    (hform : s.table.IsSignature signature) (hknown : s.table.Known signature)
    (hfits : cx.arena.Fits cx.arena.size body) (hfresh : Fresh cx s body) (span : Span)
    (name : String) (kind : FunctionKind) (params : List (String × TypeExpr)) :
    Safe (checkFunction cx id span name kind params body) s := by
  obtain ⟨types, result, hform⟩ := hform
  obtain ⟨bodyNode, hbodyNode⟩ := hfits.exists_node
  have hcopes : Copes cx cx.depth (inferAt cx cx.depth) := inferAt_copes hforest cx.depth
  refine .step (inspect_eq_ok.mpr ⟨by rw [hsignature], rfl⟩) (.step (formOf_ok hform) ?_)
  refine .step (openFrame_ok (by simp) s) (.bind (bindParams_safe _ _ _) fun _ s₁ hparams => ?_)
  have hs₁ := hs.awaits_body hform hknown (hfits.mono cx.size_le_depth) hfresh hparams
  refine .bind (hcopes.first hs₁) fun found s₂ hbody => ?_
  have hs₂ := hcopes.next hs₁ hbody
  obtain ⟨returns, hreturns⟩ : ∃ returns,
      (if found = .noValue then cx.arena.returns body else .ok false) = .ok returns := by
    split
    · exact (hfits.mono (Nat.le_succ _)).exists_returnsAt
    · exact ⟨_, rfl⟩
  refine .step (inspect_eq_ok.mpr ⟨hreturns, rfl⟩) (.step (nodeOf_ok hbodyNode s₂) ?_)
  refine .read (requireFit_moves _ _ _ _ _) ?_ fun _ _ => ?_
  · exact hs₂.sane.requireFit_safe (hs₂.known result (by simp)) hs₂.head _ _ _
  -- the frame of the function is still the innermost one
  have hgains : Scope.Gains (fun _ _ => True) (s.opened (.function result)).scope s₂.scope :=
    Scope.Gains.trans ((bindParams_binds span params types).ok hparams)
      ((hcopes.binds body).ok hbody)
  refine .step (closeFrame_eq_ok (u := ()).mpr ⟨s.scope, hgains.pop_eq_ok, rfl⟩) ?_
  obtain ⟨fingerprint, hfingerprint⟩ :=
    hs₂.sane.canonical.exists_fingerprint (hs₂.known signature (by simp)).issued
  exact .step (inspect_eq_ok.mpr ⟨hfingerprint, rfl⟩) (.pure _)

/-- **The check of an item meets no fault**, if nothing inside it has a type and a function has its
signature. -/
theorem checkItem_safe (hs : Sane cx s) (hforest : cx.arena.IsForest)
    (hnode : cx.arena.node? item.id = some item.node)
    (hfits : cx.arena.Fits cx.arena.size item.id)
    (hfresh : ∀ id, item.Inside cx id → s.annotations.get? id = none)
    (hsigned : ∀ name kind params result body,
      item.node.kind = .function name kind params result body →
      ∃ signature, s.table.IsSignature signature ∧
        s.annotations.get? item.id = some signature) : Safe (checkItem cx item) s := by
  have hinfer : ¬ item.IsRegistered → Safe (infer cx item.id) s := fun hnot =>
    (inferAt_copes hforest cx.depth).safe (hfits.mono cx.size_le_depth) hs fun id hid =>
      hfresh id ⟨hid, fun hregistered => absurd hregistered hnot⟩
  unfold Item.IsRegistered Item.structDef? Item.functionDef? at hinfer
  unfold checkItem
  cases hkind : item.node.kind with
  | struct | foreign => exact .pure _
  | function name kind params result body =>
    obtain ⟨signature, hform, hsignature⟩ := hsigned name kind params result body hkind
    have hbody : cx.arena.IsChild item.id body :=
      ⟨item.node, hnode, by simp [hkind, NodeKind.children]⟩
    -- a type that is no mark of a variable is known
    have hknown : s.table.Known signature :=
      (hs.knows.annotated item.id signature hsignature List.not_mem_nil).resolve_right <| by
        rintro ⟨-, node, hnode', hvar⟩
        obtain rfl := Option.some.inj (hnode'.symm.trans hnode)
        simp [hkind, NodeKind.isVar] at hvar
    refine .bind (hs.checkFunction_safe hforest hsignature hform hknown (hfits.of_isChild hbody)
      (fun id hid => hfresh id (inside_of_body hforest hbody hid)) _ _ _ _) fun _ _ _ => .pure _
  | var =>
    simp only [hkind] at hinfer
    exact .bind (hinfer (by simp)) fun _ _ _ => .pure _
  | _ =>
    simp only [hkind] at hinfer
    exact .read (require_moves _ (.pure _) _) (require_safe _ _ _) fun _ _ =>
      .bind (hinfer (by simp)) fun _ _ _ => .pure _

/-! ## The pass over the items -/

theorem checkItems_append (p : Progress) (seen rest : List Item) :
    p.checkItems cx (seen ++ rest) = p.checkItems cx seen >>= fun q => q.checkItems cx rest := by
  induction seen generalizing p with
  | nil => rfl
  | cons item seen ih =>
    simp only [List.cons_append, Progress.checkItems]
    split
    · exact ih p
    · cases attempt (checkItem cx item) p.state with
      | error cause => rfl
      | ok result =>
        obtain ⟨r, state⟩ := result
        cases r <;> exact ih _

theorem checkItems_singleton_ends (h : item.id ∉ p.failed → Safe (checkItem cx item) p.state) :
    ∃ p', p.checkItems cx [item] = .ok p' := by
  unfold Progress.checkItems
  split
  · exact ⟨p, rfl⟩
  · rename_i hnew
    obtain ⟨r, state, hattempt⟩ :=
      attempt_of_safe (checkItem_enters item) (h (by simpa using hnew))
    rw [hattempt]
    cases r <;> exact ⟨_, rfl⟩

/-- The pass goes on to the last item if no item that it comes to meets a fault. -/
theorem checkItems_ends (h : ∀ seen item rest p, items = seen ++ item :: rest →
      q.checkItems cx seen = .ok p → item.id ∉ p.failed → Safe (checkItem cx item) p.state) :
    ∃ p, q.checkItems cx items = .ok p := by
  induction items using List.reverseRecOn with
  | nil => exact ⟨q, rfl⟩
  | append_singleton seen item ih =>
    obtain ⟨p, hseen⟩ := ih fun before other after p hsplit =>
      h before other (after ++ [item]) p (by simp [hsplit])
    obtain ⟨p', hlast⟩ := checkItems_singleton_ends (h seen item [] p rfl hseen)
    exact ⟨p', by rw [checkItems_append, hseen]; exact hlast⟩

theorem size_of_checkItems (h : p.checkItems cx items = .ok p') :
    p'.state.annotations.size = p.state.annotations.size := by
  refine checkItems_invariant
    (P := fun _ q => q.state.annotations.size = p.state.annotations.size)
    (fun seen item rest q q' _ hq hstep => ?_) rfl h
  cases hstep with
  | skip => exact hq
  | done _ h => exact ((checkItem_enters item).ok h).annotations.size_eq.trans hq
  | found _ h => exact (attempt_outside (checkItem_enters item) h).1.trans hq

/-! ## Runs -/

theorem itemsFrom_ends {arena : Arena} {ids : List NodeId}
    (h : ∀ id ∈ ids, id.index < arena.size) (position : Nat) :
    ∃ items, itemsFrom arena position ids = .ok items := by
  induction ids generalizing position with
  | nil => exact ⟨[], rfl⟩
  | cons id ids ih =>
    obtain ⟨hid, hids⟩ := List.forall_mem_cons.mp h
    obtain ⟨node, hnode⟩ := Arena.exists_node?_of_lt hid
    obtain ⟨items, hitems⟩ := ih hids (position + 1)
    exact ⟨_, itemsFrom_cons_eq_ok.mpr ⟨node, items, hnode, hitems, rfl⟩⟩

/-- There is a slot for every node when registration has ended. -/
theorem size_of_registered {ids : List NodeId} (hcanonical : table.Canonical) (hids : ids.Nodup)
    (hitems : itemsFrom cx.arena 0 ids = .ok items) (h : registered cx items table = .ok q) :
    q.state.annotations.size = cx.arena.size := by
  obtain ⟨names, p, -, hsettled, hfunctions⟩ := settled_of_registered hcanonical hids hitems h
  exact (functionsEntered_of_ok hfunctions).size.trans hsettled.built.standing.steady.size

/-- A function that was registered still has its signature when the pass comes to it. -/
theorem exists_signature {ids : List NodeId} (hcanonical : table.Canonical) (hids : ids.Nodup)
    (hitems : itemsFrom cx.arena 0 ids = .ok items)
    (hregistered : registered cx items table = .ok q) {seen : List Item}
    (hseen : q.checkItems cx seen = .ok p) (hitem : item ∈ items) (hnew : item.id ∉ p.failed)
    {name : String} {kind : FunctionKind} {params : List (String × TypeExpr)}
    {result : Option TypeExpr} {body : NodeId}
    (hkind : item.node.kind = .function name kind params result body) :
    ∃ signature, p.state.table.IsSignature signature ∧
      p.state.annotations.get? item.id = some signature := by
  have hready := ready_of_steps (registered_steps hregistered)
  have hlisted : Listed q seen p := listed_of_checkItems hready.functions hseen
  have hdef : (⟨item.id, item.node.span, name, some kind, params, result⟩ : FunctionDef) ∈
      (items.filterMap Item.functionDef?).map (·.2) :=
    List.mem_map.mpr ⟨(item.position, _), List.mem_filterMap.mpr ⟨item, hitem, by
      simp only [Item.functionDef?, hkind]⟩, rfl⟩
  obtain ⟨signature, hsignature, hform, -⟩ :=
    (enlisted_of_registered hcanonical hids hitems hregistered).written _ hdef
      (hlisted.failed ▸ hnew)
  exact ⟨signature, hform.grows (grows_of_checkItems hseen),
    hlisted.kept _ signature hsignature (hform.ne_auto (hcanonical.grows hready.table))⟩

/-- **A check comes to an end.** Whatever is in the table, a program shaped as a row of trees gets
its report, as long as slices take one argument. -/
theorem run_ends {program : Program} (htree : program.IsTree) (harena : cx.arena = program.arena)
    (hcanonical : table.Canonical) (hslices : table.UnarySlices)
    (hbuiltin : cx.builtin.ClearIn .known table) : ∃ p, run cx program.items table = .ok p := by
  obtain ⟨items, hfrom⟩ : ∃ items, itemsFrom cx.arena 0 program.items = .ok items :=
    itemsFrom_ends (fun id hid => harena ▸ htree.index_lt_of_item hid) 0
  obtain ⟨q, hregistered⟩ := registered_ends hcanonical htree.nodup_items hfrom hslices.arity
  have hitems := itemsOf_of_itemsFrom htree (harena ▸ hfrom)
  suffices hends : ∃ p, q.checkItems cx items = .ok p by
    obtain ⟨p, hcheck⟩ := hends
    exact ⟨p, run_eq_ok.mpr ⟨items, q, hfrom, hregistered, hcheck⟩⟩
  refine checkItems_ends fun seen item rest p hsplit hseen hnew => ?_
  have hmem : item ∈ items := by simp [hsplit]
  have hcomes : ComesTo cx program.items table item p :=
    ⟨seen, rest, q, hsplit ▸ hfrom, hsplit ▸ hregistered, hseen⟩
  obtain ⟨-, hfresh, hcanonical', hknows⟩ := hcomes.reached htree harena hcanonical hbuiltin
  have hgrows := (ready_of_steps (registered_steps hregistered)).table
  have hsane : Sane cx p.state :=
    { knows := hknows
      canonical := hcanonical'
      slices := hslices.grows (hgrows.trans (grows_of_checkItems hseen))
      size := (size_of_checkItems hseen).trans
        (size_of_registered hcanonical htree.nodup_items hfrom hregistered) }
  refine checkItem_safe hsane (harena ▸ htree.isForest) (harena ▸ hitems.node item hmem) ?_ hfresh
    fun name kind params result body hkind => ?_
  · rw [harena]
    exact htree.fits (htree.index_lt_of_item (hitems.mem_items hmem)) (Nat.le_refl _)
  · exact exists_signature hcanonical htree.nodup_items hfrom hregistered hseen hmem hnew hkind

end Check

end RuleTypes
