import RuleTypes.Proofs.Check.Flow
import RuleTypes.Proofs.Check.Globals

/-!
# Items without a finding are finished

Every definition is given a type when it is registered, or fails (`Entered`). Then the items are
looked at, and between two of them no type is provisional: an item that goes through leaves final
types on all nodes below it, and one that ends in a finding leaves everything as it was. So in the
end everything below an item without a finding has a final type, and control flow in the bodies of
the functions that are listed is in its place (`complete_of_run`).
-/

namespace RuleTypes.Check

open Relation

variable {cx : Setting} {s s' : State} {p p' q : Progress} {item : Item} {items : List Item}
  {table : TypeTable}

/-! ## Definitions get their types -/

/-- The node failed to be registered, or it has a type. -/
def Entered (p : Progress) (id : NodeId) : Prop :=
  id ∈ p.failed ∨ p.state.annotations.get? id ≠ none

/-- However a step on an item ends, a node that has a type keeps one. -/
theorem ne_none_of_attempt {α : Type} {N : NodeId → Prop} {x : Check α} {r : Except Finding α}
    (hx : Moves (Enters N) x) (h : attempt x s = .ok (r, s')) {id : NodeId}
    (hid : s.annotations.get? id ≠ none) : s'.annotations.get? id ≠ none := by
  obtain ⟨_, -, hok⟩ | ⟨_, s₁, annotations, -, herror, hback, rfl⟩ := attempt_eq_ok h
  · exact (hx.ok hok).annotations.ne_none hid
  · have hgrows := (hx.error herror).annotations
    obtain ⟨a, ha, -, -, hkept, -, hmarked⟩ := hgrows.rollback
    obtain rfl : annotations = a := Except.ok.inj (hback.symm.trans ha)
    by_cases hauto : s.annotations.get? id = some .auto
    · exact (hmarked id hauto).symm ▸ hgrows.ne_none hid
    · exact (hkept id hauto).symm ▸ hid

theorem Entered.register {N : NodeId → Prop} {x : Check Unit} {position : Nat} {node id : NodeId}
    (hx : Moves (Enters N) x) (h : p.register position node x = .ok p') (hid : Entered p id) :
    Entered p' id := by
  obtain ⟨r, state, hattempt, hresult⟩ := register_eq_ok h
  obtain ⟨-, rfl⟩ | ⟨finding, -, rfl⟩ := hresult
  · exact hid.imp_right (ne_none_of_attempt hx hattempt)
  · exact hid.imp (List.mem_cons_of_mem _) (ne_none_of_attempt hx hattempt)

/-- A registration that writes down a type for its node enters it. -/
theorem entered_of_register {x : Check Unit} {position : Nat} {node : NodeId}
    (hx : ∀ {u s s'}, x s = .ok u s' → s'.annotations.get? node ≠ none)
    (h : p.register position node x = .ok p') : Entered p' node := by
  obtain ⟨r, state, hattempt, hresult⟩ := register_eq_ok h
  obtain ⟨rfl, rfl⟩ | ⟨finding, -, rfl⟩ := hresult
  · obtain ⟨u, -, hok⟩ | ⟨_, _, _, heq, -⟩ := attempt_eq_ok hattempt
    · exact .inr (hx hok)
    · cases heq
  · exact .inl (List.mem_cons_self ..)

theorem get?_of_annotate {node : NodeId} {type : TypeId} {u : Unit}
    (h : annotate node type s = .ok u s') : s'.annotations.get? node = some type := by
  obtain ⟨annotations, hset, rfl⟩ := annotate_eq_ok.mp h
  exact (Annotations.get?_of_set hset node).trans (if_pos rfl)

theorem ne_none_of_declareStruct {d : StructDef} {u : Unit} (h : declareStruct d s = .ok u s') :
    s'.annotations.get? d.node ≠ none := by
  simp only [declareStruct, bind_eq_ok] at h
  obtain ⟨_, _, -, _, _, -, _, _, -, id, _, -, _, _, -, h⟩ := h
  simp [get?_of_annotate h]

theorem ne_none_of_registerFunction {d : FunctionDef} {u : Unit}
    (h : registerFunction cx d s = .ok u s') : s'.annotations.get? d.node ≠ none := by
  simp only [registerFunction_eq, bind_eq_ok] at h
  obtain ⟨signature, _, -, _, _, -, h⟩ := h
  simp [get?_of_annotate h]

theorem Entered.step {id : NodeId} (h : RegisterStep cx items p p') (hid : Entered p id) :
    Entered p' id := by
  cases h with
  | declare _ h => exact hid.register (declareStruct_enters _) h
  | fill _ _ h => exact hid.register (N := fun _ => False) (fillStruct_moves _) h
  | layout _ _ h => exact hid.register (N := fun _ => False) (checkLayout_moves _) h
  | function _ h => exact hid.register (registerFunction_enters _) h

theorem Entered.steps {id : NodeId} (h : ReflTransGen (RegisterStep cx items) p p')
    (hid : Entered p id) : Entered p' id := by
  induction h with
  | refl => exact hid
  | tail _ hstep ih => exact ih.step hstep

theorem entered_of_declareStructs (cx : Setting) {defs : List (Nat × StructDef)}
    (h : p.declareStructs defs = .ok p') (hdefs : ∀ d ∈ defs, d ∈ items.filterMap Item.structDef?) :
    ∀ d ∈ defs, Entered p' d.2.node := by
  induction defs generalizing p with
  | nil => exact nofun
  | cons first defs ih =>
    obtain ⟨p₁, hfirst, hrest⟩ := except_bind_eq_ok.mp h
    have hsteps : ReflTransGen (RegisterStep cx items) p₁ p' :=
      declareStructs_steps (fun d hd => hdefs d (List.mem_cons_of_mem _ hd)) hrest
    refine List.forall_mem_cons.mpr ⟨?_, ih hrest fun d hd => hdefs d (List.mem_cons_of_mem _ hd)⟩
    exact (entered_of_register ne_none_of_declareStruct hfirst).steps hsteps

theorem entered_of_registerFunctions {defs : List (Nat × FunctionDef)}
    (h : p.registerFunctions cx defs = .ok p')
    (hdefs : ∀ d ∈ defs, d ∈ items.filterMap Item.functionDef?) :
    ∀ d ∈ defs, Entered p' d.2.node := by
  induction defs generalizing p with
  | nil => exact nofun
  | cons first defs ih =>
    obtain ⟨p₁, hfirst, hrest⟩ := except_bind_eq_ok.mp h
    have hsteps : ReflTransGen (RegisterStep cx items) p₁ p' :=
      registerFunctions_steps (fun d hd => hdefs d (List.mem_cons_of_mem _ hd)) hrest
    refine List.forall_mem_cons.mpr ⟨?_, ih hrest fun d hd => hdefs d (List.mem_cons_of_mem _ hd)⟩
    exact (entered_of_register ne_none_of_registerFunction hfirst).steps hsteps

/-- When registration is over, every definition has failed or has a type. -/
theorem entered_of_registered (h : registered cx items table = .ok q) (hitem : item ∈ items)
    (hregistered : item.IsRegistered) : Entered q item.id := by
  obtain ⟨p₃, hstructs, hfunctions⟩ := except_bind_eq_ok.mp h
  have hsteps : ReflTransGen (RegisterStep cx items) p₃ q :=
    registerFunctions_steps (fun _ hd => hd) hfunctions
  obtain hstruct | hfunction := hregistered
  · obtain ⟨d, hd⟩ := Option.isSome_iff_exists.mp hstruct
    obtain ⟨p₁, hdeclare, hstructs⟩ := except_bind_eq_ok.mp hstructs
    obtain ⟨p₂, hfill, hlayout⟩ := except_bind_eq_ok.mp hstructs
    have hrest : ReflTransGen (RegisterStep cx items) p₁ p₃ :=
      (registerStructs_steps (fun hd hnew h => .fill hd hnew h) hfill).trans
        (checkLayouts_steps hlayout)
    have hentered := entered_of_declareStructs cx hdeclare (fun _ hd => hd) d
      (List.mem_filterMap.mpr ⟨item, hitem, hd⟩)
    rw [(node_of_structDef? hd).2] at hentered
    exact (hentered.steps hrest).steps hsteps
  · obtain ⟨d, hd⟩ := Option.isSome_iff_exists.mp hfunction
    have hentered := entered_of_registerFunctions hfunctions (fun _ hd => hd) d
      (List.mem_filterMap.mpr ⟨item, hitem, hd⟩)
    rwa [(node_of_functionDef? hd).2] at hentered

/-! ## Items that go through -/

/-- Every node below the item has a final type. -/
def AllFinal (cx : Setting) (s : State) (item : Item) : Prop :=
  ∀ x, cx.arena.Below item.id x → ∃ type, s.annotations.get? x = some type ∧ type ≠ .auto

/-- The function has a signature, its body fits the result, and control flow in the body is in its
place. -/
def FunctionFlows (cx : Setting) (s : State) (signature : TypeId) (body : NodeId) : Prop :=
  ∃ params result found, s.table.form? signature = some (.function params result) ∧
    s.annotations.get? body = some found ∧ Flows cx s (some result) false body ∧
    (found = result ∨ found = .noValue ∧ cx.arena.returns body = .ok true)

theorem FunctionFlows.mono {signature : TypeId} {body : NodeId} (htable : s.table.Extends s'.table)
    (hlasts : Lasts s s') (h : FunctionFlows cx s signature body) :
    FunctionFlows cx s' signature body := by
  obtain ⟨params, result, found, hform, hfound, hflows, hfits⟩ := h
  obtain ⟨type, htype, hfinal⟩ := hflows.exists_type
  obtain rfl : found = type := Option.some.inj (hfound.symm.trans htype)
  exact ⟨params, result, found, htable.form? hform, hlasts body found hfound hfinal,
    hflows.mono hlasts, hfits⟩

/-- In the frame of a function, with its parameters bound, the check is as aware as before. -/
theorem aware_of_bindParams (hs : Aware cx s) {id : NodeId} {node : Node}
    (hnode : cx.arena.node? id = some node) (hvar : node.kind.isVar = false) {signature : TypeId}
    (hsignature : s.annotations.get? id = some signature) {paramTypes : List TypeId}
    {result : TypeId} (hform : s.table.form? signature = some (.function paramTypes result))
    {opened : Scope} (hpush : s.scope.push (.function result) = .ok opened) {span : Span}
    {params : List (String × TypeExpr)}
    (hparams : bindParams span params paramTypes { s with scope := opened } = .ok () s') :
    Later (fun _ => True) s s' ∧ Aware cx s' := by
  have hknown : s.table.Known signature :=
    (hs.annotated id signature hsignature nofun).resolve_right fun ⟨_, node', hnode', hvar'⟩ => by
      obtain rfl := Option.some.inj (hnode'.symm.trans hnode)
      simp [hvar] at hvar'
  have hopened : Knows .known [] cx { s with scope := opened } := by
    refine hs.toKnows.push hpush fun _ heq => ?_
    cases heq
    exact hknown.result hform
  have hlater : Later (fun _ => True) s s' :=
    (Later.of_scope s opened).trans ((bindParams_later span params paramTypes).ok hparams)
  have hcarries : Carries .known [] cx { s with scope := opened }
      (endState (bindParams span params paramTypes { s with scope := opened })) :=
    bindParams_carries span params fun _ htype =>
      hknown.component hform (List.mem_append_left _ htype)
  rw [hparams] at hcarries
  exact ⟨hlater, hcarries hopened, hlater.table.form? hs.auto⟩

/-- Control flow in the body of a function that goes through is in its place. -/
theorem flows_of_checkFunction (hs : Aware cx s) {id body : NodeId} {node : Node}
    (hnode : cx.arena.node? id = some node) (hvar : node.kind.isVar = false) {span : Span}
    {name : String} {kind : FunctionKind} {params : List (String × TypeExpr)} {f : CheckedFunction}
    (h : checkFunction cx id span name kind params body s = .ok f s') :
    f.node = id ∧ FunctionFlows cx s' f.signature body := by
  obtain ⟨signature, paramTypes, result, opened, s₁, found, s₂, closed, fingerprint, hsignature,
    hform, hpush, hparams, hbody, hfits, -, rfl, -, rfl⟩ := checkFunction_eq_ok h
  obtain ⟨hlater, hs₁⟩ := aware_of_bindParams hs hnode hvar hsignature hform hpush hparams
  -- in the frame of the function there is no loop around
  have hgains : Scope.Gains _ opened s₁.scope :=
    (bindParams_binds span params paramTypes).ok hparams
  obtain ⟨-, rfl⟩ := Scope.push_eq_ok.mp hpush
  obtain ⟨hfound, hflows⟩ := inferAt_flows _ hs₁ hbody
  rw [hgains.enclosingResult?_eq, hgains.inLoop_eq] at hflows
  change Flows cx s₂ (some result) false body at hflows
  have htable := hlater.table.trans ((infer_later cx body).ok hbody).table
  exact ⟨rfl, paramTypes, result, found, htable.form? hform, hfound,
    hflows.mono (Later.of_scope (N := fun _ => False) s₂ closed).lasts, hfits⟩

/-- An item that goes through leaves final types below it. -/
theorem allFinal_of_checkItem (hs : Aware cx s) (hnode : cx.arena.node? item.id = some item.node)
    (hentered : item.IsRegistered →
      ∃ type, s.annotations.get? item.id = some type ∧ type ≠ .auto)
    {function? : Option CheckedFunction} (h : checkItem cx item s = .ok function? s') :
    AllFinal cx s' item := by
  have hlasts : Lasts s s' := ((checkItem_forward item).ok h).lasts
  have hitself : item.IsRegistered → ∃ type, s'.annotations.get? item.id = some type ∧
      type ≠ .auto := fun hregistered =>
    have ⟨type, htype, hfinal⟩ := hentered hregistered
    ⟨type, hlasts item.id type htype hfinal, hfinal⟩
  have hwhole : ∀ {type}, infer cx item.id s = .ok type s' → AllFinal cx s' item :=
    fun hinfer _ hx => (inferAt_flows _ hs hinfer).2.exists_type_below hx
  -- below a definition there is nothing but the node itself and what lies below its parts
  have hparts : item.IsRegistered → (∀ child ∈ item.node.kind.children, ∀ x,
      cx.arena.Below child x → ∃ type, s'.annotations.get? x = some type ∧ type ≠ .auto) →
      AllFinal cx s' item := by
    intro hregistered hchildren x hx
    obtain rfl | ⟨child, ⟨node', hnode', hchild⟩, hbelow⟩ := ReflTransGen.cases_head hx
    · exact hitself hregistered
    · obtain rfl : node' = item.node := Option.some.inj (hnode'.symm.trans hnode)
      exact hchildren child hchild x hbelow
  unfold Item.IsRegistered Item.structDef? Item.functionDef? at hparts
  unfold checkItem at h
  cases hkind : item.node.kind with
  | struct name fields =>
    simp only [hkind, NodeKind.children] at hparts
    exact hparts (.inl rfl) (List.forall_mem_nil _)
  | foreign name params result =>
    simp only [hkind, NodeKind.children] at hparts
    exact hparts (.inr rfl) (List.forall_mem_nil _)
  | function name kind params result body =>
    simp only [hkind, NodeKind.children] at h hparts
    obtain ⟨f, s₁, hfunction, h⟩ := bind_eq_ok.mp h
    obtain ⟨-, rfl⟩ := pure_eq_ok.mp h
    obtain ⟨-, _, _, _, -, -, hflows, -⟩ :=
      flows_of_checkFunction hs hnode (by rw [hkind]; rfl) hfunction
    exact hparts (.inr rfl) (List.forall_mem_singleton.mpr fun _ => hflows.exists_type_below)
  | var name type start =>
    simp only [hkind, bind_eq_ok, pure_eq_ok] at h
    obtain ⟨type, s₁, hinfer, rfl, rfl⟩ := h
    exact hwhole hinfer
  | _ =>
    simp only [hkind, bind_eq_ok, pure_eq_ok, require_eq_ok] at h
    obtain ⟨_, _, ⟨-, rfl⟩, type, s₁, hinfer, rfl, rfl⟩ := h
    exact hwhole hinfer

/-! ## Runs -/

/-- The function is that of a node, and control flow in its body is in its place. -/
def ListedFlows (cx : Setting) (s : State) (f : CheckedFunction) : Prop :=
  ∃ node name kind params written body, cx.arena.node? f.node = some node ∧
    node.kind = .function name kind params written body ∧ FunctionFlows cx s f.signature body

theorem AllFinal.mono (hlasts : Lasts s s') (h : AllFinal cx s item) : AllFinal cx s' item := by
  intro x hx
  obtain ⟨type, htype, hfinal⟩ := h x hx
  exact ⟨type, hlasts x type htype hfinal, hfinal⟩

theorem ListedFlows.mono {f : CheckedFunction} (htable : s.table.Extends s'.table)
    (hlasts : Lasts s s') (h : ListedFlows cx s f) : ListedFlows cx s' f := by
  obtain ⟨node, name, kind, params, written, body, hnode, hkind, hflows⟩ := h
  exact ⟨node, name, kind, params, written, body, hnode, hkind, hflows.mono htable hlasts⟩

/-- What holds between the items; `seen` are those that were looked at. -/
structure Complete (cx : Setting) (items seen : List Item) (p : Progress) : Prop where
  aware : Aware cx p.state
  final : ∀ x, p.state.annotations.get? x ≠ some .auto
  entered : ∀ item ∈ items, item.IsRegistered → Entered p item.id
  failed : ∀ id ∈ p.failed, ∃ item ∈ items, item.id = id ∧
    ∃ finding, (item.position, finding) ∈ p.findings
  finished : ∀ item ∈ seen, item.id ∉ p.failed →
    (∀ finding, (item.position, finding) ∉ p.findings) → AllFinal cx p.state item
  listed : ∀ f ∈ p.functions, ListedFlows cx p.state f

theorem Complete.step {seen : List Item} (h : Complete cx items seen p) (hitem : item ∈ items)
    (hnode : cx.arena.node? item.id = some item.node) (hstep : ItemStep cx item p p') :
    Complete cx items (seen ++ [item]) p' := by
  have hcarries : Moves (Carries .known [] cx) (checkItem cx item) :=
    checkItem_carries hnode nofun
  cases hstep with
  | skip hfailed =>
    refine { h with finished := fun other hother hnew hclean => ?_ }
    obtain hother | hother := List.mem_append.mp hother
    · exact h.finished other hother hnew hclean
    · exact absurd (List.mem_singleton.mp hother ▸ hfailed) hnew
  | @done function? state hnew hok =>
    have hlater : Later (cx.arena.Below item.id) p.state state :=
      (checkItem_moves (fun _ _ hid => hid)
        fun body hbody _ hid => (Arena.IsChild.below ⟨item.node, hnode, hbody⟩).trans hid).ok hok
    have hfinished : AllFinal cx state item := by
      refine allFinal_of_checkItem h.aware hnode (fun hregistered => ?_) hok
      obtain ⟨type, htype⟩ := Option.ne_none_iff_exists'.mp
        ((h.entered item hitem hregistered).resolve_left hnew)
      exact ⟨type, htype, fun heq => h.final item.id (heq ▸ htype)⟩
    refine ⟨⟨hcarries.ok hok h.aware.toKnows, hlater.table.form? h.aware.auto⟩, fun x hx => ?_,
      fun other hother hregistered => ?_, h.failed, fun other hother hfailed hclean => ?_,
      fun f hf => ?_⟩
    · by_cases hbelow : cx.arena.Below item.id x
      · obtain ⟨type, htype, hfinal⟩ := hfinished x hbelow
        exact hfinal (Option.some.inj (htype.symm.trans hx))
      · exact h.final x (hlater.get?_eq hbelow ▸ hx)
    · exact (h.entered other hother hregistered).imp_right hlater.annotations.ne_none
    · obtain hother | hother := List.mem_append.mp hother
      · exact (h.finished other hother hfailed hclean).mono hlater.lasts
      · exact List.mem_singleton.mp hother ▸ hfinished
    · obtain hf | hf := List.mem_append.mp hf
      · exact (h.listed f hf).mono hlater.table hlater.lasts
      · obtain rfl := Option.mem_toList.mp hf
        obtain ⟨name, kind, params, written, body, hkind, hfunction⟩ := checkItem_eq_some hok
        obtain ⟨heq, hflows⟩ :=
          flows_of_checkFunction h.aware hnode (by rw [hkind]; rfl) hfunction
        exact ⟨item.node, name, kind, params, written, body, heq ▸ hnode, hkind, hflows⟩
  | @found finding state hnew hfound =>
    have hkeeps := keeps_of_attempt_error (checkItem_forward item) (fun x _ => h.final x) hfound
    have hsame : ∀ x, state.annotations.get? x = p.state.annotations.get? x := fun x =>
      hkeeps.annotations x trivial
    have hlasts : Lasts p.state state := fun x type htype _ => (hsame x).trans htype
    refine ⟨⟨h.aware.toKnows.attempt hcarries hfound, hkeeps.table.form? h.aware.auto⟩,
      fun x hx => h.final x (hsame x ▸ hx), fun other hother hregistered => ?_, fun id hid => ?_,
      fun other hother hfailed hclean => ?_, fun f hf => (h.listed f hf).mono hkeeps.table hlasts⟩
    · exact (h.entered other hother hregistered).imp_right fun hne => (hsame other.id).symm ▸ hne
    · obtain ⟨other, hother, heq, old, hold⟩ := h.failed id hid
      exact ⟨other, hother, heq, old, List.mem_append_left _ hold⟩
    · obtain hother | hother := List.mem_append.mp hother
      · refine (h.finished other hother hfailed fun old hold => ?_).mono hlasts
        exact hclean old (List.mem_append_left _ hold)
      · obtain rfl := List.mem_singleton.mp hother
        exact absurd (List.mem_append_right _ (List.mem_singleton.mpr rfl)) (hclean finding)

/-- When registration is over, no type is provisional. -/
theorem complete_of_registered (hcanonical : table.Canonical)
    (hbuiltin : cx.builtin.ClearIn .known table)
    (hnode : ∀ item ∈ items, cx.arena.node? item.id = some item.node)
    (h : registered cx items table = .ok q) : Complete cx items [] q := by
  have hsteps := registered_steps h
  have hready := ready_of_steps hsteps
  have hnoValue : table.Known .noValue :=
    TypeTable.known_of_form? hcanonical.noValue nofun nofun
  have haware : Aware cx q.state :=
    ⟨knows_of_steps (.start hbuiltin hnoValue _) hsteps, (hcanonical.grows hready.table).auto⟩
  refine ⟨haware, fun x hx => ?_, fun item hitem => entered_of_registered h hitem, hready.failed,
    nofun, by rw [hready.functions]; exact nofun⟩
  obtain ⟨item, hitem, rfl, hregistered⟩ := hready.annotated x (by simp [hx])
  obtain hknown | ⟨-, node, hnode', hvar⟩ := haware.annotated item.id .auto hx nofun
  · exact haware.ne_auto hknown rfl
  · -- a node that is registered is no variable
    obtain rfl := Option.some.inj (hnode'.symm.trans (hnode item hitem))
    unfold Item.IsRegistered Item.structDef? Item.functionDef? at hregistered
    cases hkind : item.node.kind <;> simp_all [NodeKind.isVar]

/-- **Items without a finding are finished.** -/
theorem complete_of_run {ids : List NodeId} (hcanonical : table.Canonical)
    (hbuiltin : cx.builtin.ClearIn .known table) (hrun : run cx ids table = .ok p) :
    ∃ items, itemsFrom cx.arena 0 ids = .ok items ∧ Complete cx items items p := by
  obtain ⟨items, q, hfrom, hregistered, hcheck⟩ := run_eq_ok.mp hrun
  have hnode : ∀ item ∈ items, cx.arena.node? item.id = some item.node := fun _ =>
    node?_of_itemsFrom hfrom
  have hstart := complete_of_registered hcanonical hbuiltin hnode hregistered
  refine ⟨items, hfrom, checkItems_invariant (fun seen item rest p p' hsplit hp hstep => ?_)
    hstart hcheck⟩
  have hitem : item ∈ items := by simp [hsplit]
  exact hp.step hitem (hnode item hitem) hstep

/-- Below an item of a row of trees that has no finding, all types are final. -/
theorem Complete.exists_type {program : Program} (htree : program.IsTree)
    (harena : cx.arena = program.arena) (hfrom : itemsFrom cx.arena 0 program.items = .ok items)
    (h : Complete cx items items p) {position : Nat} {id x : NodeId}
    (hid : program.items[position]? = some id)
    (hclean : ∀ finding, (position, finding) ∉ p.findings) (hx : cx.arena.Below id x) :
    ∃ type, p.state.annotations.get? x = some type ∧ type ≠ .auto := by
  have hitems := itemsOf_of_itemsFrom htree (harena ▸ hfrom)
  obtain ⟨hids, hplaces⟩ := itemsFrom_eq_ok hfrom
  rw [← hids, List.getElem?_map, Option.map_eq_some_iff] at hid
  obtain ⟨item, hget, rfl⟩ := hid
  have hitem := List.mem_of_getElem? hget
  obtain rfl : item.position = position := by simpa using (hplaces position item hget).1
  -- an item that failed to be registered has a finding at its place
  have hnew : item.id ∉ p.failed := fun hfailed => by
    obtain ⟨other, hother, heq, finding, hfinding⟩ := h.failed item.id hfailed
    rw [hitems.eq_of_id hother hitem heq] at hfinding
    exact hclean finding hfinding
  exact h.finished item hitem hnew hclean x hx

end RuleTypes.Check
