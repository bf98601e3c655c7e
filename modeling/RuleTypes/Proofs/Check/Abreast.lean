import RuleTypes.Proofs.Check.Parallel

/-!
# Runs over copied items

Two runs, one over some items and one over their copies, stay abreast: the same items fail, with the
same findings, and the states are related after every pass (`Abreast`). In the place of one item
there may be functions with the same head and different bodies. What the bodies do is not compared,
but a function leaves nothing behind that another item could see, whether its body is right or not
(`unaffected_of_body`). So the runs are abreast again after it (`run_echoes`).
-/

namespace RuleTypes.Check

open List (Forall₂)

variable {α β : Type} {cx cx' : Setting} {M : Copy cx cx'} {R R' : Renaming}
  {Q : Renaming → α → β → Prop} {N N' : NodeId → Prop} {s s' s₁ s₁' : State}
  {k : Option (Nat × NodeId)} {p p' : Progress}

/-! ## Items -/

theorem checkItem_mirrors {item : Item} (hid : M.copied item.id)
    (hnode : cx.arena.node? item.id = some item.node)
    (hfits : cx'.arena.Fits cx'.arena.size (M.place item.id)) :
    Mirrors (Mirrored M) (fun R => Option.Rel (SameFunction M R)) R (checkItem cx item)
      (checkItem cx' ⟨item.position, M.place item.id, item.node.rename M.place⟩) := by
  obtain ⟨position, id, kind, span⟩ := item
  have hinfer : ∀ {R}, Mirrors (Mirrored M) (fun R => Option.Rel (SameFunction M R)) R
      (do let _ ← infer cx id; return none) (do let _ ← infer cx' (M.place id); return none) :=
    ((inferAt_mirrors cx.depth hid (hfits.mono cx'.size_le_depth)).mirrors _).bind
      fun _ _ _ _ _ => .pure fun _ _ => .none
  have hexpression : Mirrors (Mirrored M) (fun R => Option.Rel (SameFunction M R)) R
      (do
        require cx.config.topLevelExpressions (pure .topLevelExpression) span
        let _ ← infer cx id
        return none)
      (do
        require cx'.config.topLevelExpressions (pure .topLevelExpression) span
        let _ ← infer cx' (M.place id)
        return none) :=
    (require_mirrors (by rw [M.config]) (.pure fun _ _ => rfl) span).bind fun _ _ _ _ _ => hinfer
  cases kind with
  | struct | foreign => exact .pure fun _ _ => .none
  | function name kind params result body =>
    have hbody : cx.arena.IsChild id body := ⟨_, hnode, List.mem_singleton.mpr rfl⟩
    refine (checkFunction_mirrors (M.shared_of_copied id hid) (M.part id body hid hbody)
      (hfits.of_isChild (M.isChild hid hbody)) span name kind params).bind fun _ _ _ _ hfunction =>
        .pure fun _ hR => .some ?_
    exact { hfunction with signature := hR _ _ hfunction.signature }
  | var => exact hinfer
  | _ => exact hexpression

/-! ## Steps that are undone -/

/-- The same outcome of a step on an item. -/
inductive SameOutcome (r : α → β → Prop) : Except Finding α → Except Finding β → Prop
  | ok {a : α} {b : β} (h : r a b) : SameOutcome r (.ok a) (.ok b)
  | error (finding : Finding) : SameOutcome r (.error finding) (.error finding)

/-- States that were related stay related when both go back. A slot that was not provisional is
restored on both sides; a provisional one keeps what it was given, which is related too. -/
theorem Mirrored.rollback (hs : Mirrored M R s s') (hR : R ≤ R') (hs₁ : Mirrored M R' s₁ s₁')
    (hgrows : s.annotations.Grows N s₁.annotations)
    (hgrows' : s'.annotations.Grows N' s₁'.annotations) {a a' : Annotations}
    (hback : s₁.annotations.rollback s.annotations.mark = .ok a)
    (hback' : s₁'.annotations.rollback s'.annotations.mark = .ok a') :
    Mirrored M R' { s₁ with annotations := a, scope := s₁.scope.unwind }
      { s₁' with annotations := a', scope := s₁'.scope.unwind } := by
  obtain ⟨_, heq, -, hsize, hkept, -, hauto⟩ := hgrows.rollback
  obtain rfl := Except.ok.inj (hback.symm.trans heq)
  obtain ⟨_, heq, -, hsize', hkept', -, hauto'⟩ := hgrows'.rollback
  obtain rfl := Except.ok.inj (hback'.symm.trans heq)
  refine { hs₁ with
    scope := hs₁.scope.unwind, annotations := fun n hn => ?_, slots := fun n hn hlt => ?_ }
  · change Option.Rel R'.rel (a.get? n) (a'.get? (M.place n))
    have hiff := hs.get?_eq_auto_iff hn
    by_cases hn' : s.annotations.get? n = some .auto
    · rw [hauto n hn', hauto' _ (hiff.mp hn')]
      exact hs₁.annotations n hn
    · rw [hkept n hn', hkept' _ (mt hiff.mpr hn')]
      exact optionRel_imp hR (hs.annotations n hn)
  · change (M.place n).index < a'.size
    rw [hsize']
    exact hs.slots n hn (hsize ▸ hlt)

/-- A step on an item is followed by the step on its copy, whether it goes through or is undone. -/
theorem attempt_echoes {x : Check α} {y : Check β} (hxy : Mirrors (Mirrored M) Q R x y)
    (hx : Moves (Enters N) x) (hy : Moves (Enters N') y) (hs : Mirrored M R s s') :
    Echoes (fun r r' => ∃ R', R ≤ R' ∧ SameOutcome (Q R') r.1 r'.1 ∧ Mirrored M R' r.2 r'.2)
      (attempt x s) (attempt y s') := by
  rintro ⟨r, s₁⟩ h
  have hagree := hxy R le_rfl s s' hs
  obtain ⟨a, rfl, hok⟩ | ⟨finding, s₂, annotations, rfl, herror, hback, rfl⟩ := attempt_eq_ok h
  · obtain ⟨R', b, s₁', hR, hok', hs₁, hab⟩ := (hok ▸ hagree).exists_ok
    exact ⟨(.ok b, s₁'), attempt_of_ok hok', R', hR, .ok hab, hs₁⟩
  · obtain ⟨R', s₂', hR, herror', hs₂⟩ := (herror ▸ hagree).exists_error
    have hgrows' := (hy.error herror').annotations
    obtain ⟨annotations', hback', -⟩ := hgrows'.rollback
    exact ⟨_, attempt_of_undone herror' hback', R', hR, .error finding,
      hs.rollback hR hs₂ (hx.error herror).annotations hgrows' hback hback'⟩

/-! ## Registration -/

/-- The two runs are related, apart from the results of the item `k`, if there is one. -/
structure Abreast (M : Copy cx cx') (k : Option (Nat × NodeId)) (R : Renaming) (p p' : Progress) :
    Prop where
  state : Mirrored M R p.state p'.state
  failed : ∀ n, M.shared n → (n ∈ p.failed ↔ M.place n ∈ p'.failed)
  failures : p'.failed.length = p.failed.length
  findings : p'.findings.filter (fun found => k.map (·.1) ≠ some found.1) =
    p.findings.filter fun found => k.map (·.1) ≠ some found.1
  functions : Forall₂ (SameFunction M R) (p.functions.filter fun f => k.map (·.2) ≠ some f.node)
    (p'.functions.filter fun f => k.map (fun x => M.place x.2) ≠ some f.node)

theorem SameFunction.mono {f g : CheckedFunction} (hR : R ≤ R') (h : SameFunction M R f g) :
    SameFunction M R' f g := { h with signature := hR _ _ h.signature }

theorem Abreast.contains_failed (h : Abreast M k R p p') {n : NodeId} (hn : M.shared n) :
    p'.failed.contains (M.place n) = p.failed.contains n := by
  rw [Bool.eq_iff_iff, List.contains_iff_mem, List.contains_iff_mem]
  exact (h.failed n hn).symm

theorem register_echoes (hp : Abreast M k R p p') {id : NodeId} (hid : M.shared id)
    (position : Nat) {x y : Check Unit}
    (hxy : ∀ R, Mirrors (Mirrored M) (fun _ _ _ => True) R x y) (hx : Moves (Enters N) x)
    (hy : Moves (Enters N') y) : Echoes (fun q q' => ∃ R, Abreast M k R q q')
      (p.register position id x) (p'.register position (M.place id) y) := by
  refine (attempt_echoes (hxy R) hx hy hp.state).bind fun r r' hr => ?_
  obtain ⟨outcome, s₁⟩ := r
  obtain ⟨outcome', s₁'⟩ := r'
  obtain ⟨R', hR, houtcome, hs₁⟩ := hr
  have hfunctions := hp.functions.imp fun _ _ => SameFunction.mono hR
  cases houtcome with
  | ok _ => exact .ok ⟨R', { hp with state := hs₁, functions := hfunctions }⟩
  | error finding =>
    refine .ok ⟨R', hs₁, fun n hn => ?_, congrArg (· + 1) hp.failures, ?_, hfunctions⟩
    · rw [List.mem_cons, List.mem_cons, hp.failed n hn]
      refine or_congr_left ⟨congrArg M.place, M.injective n id hn hid⟩
    · simp only [List.filter_append, hp.findings]

section Passes

variable {structs : List (Nat × StructDef)} {functions : List (Nat × FunctionDef)}

theorem declareStructs_echoes (hstructs : ∀ d ∈ structs, M.shared d.2.node)
    (hp : Abreast M k R p p') : Echoes (fun q q' => ∃ R, Abreast M k R q q')
      (p.declareStructs structs)
      (p'.declareStructs (structs.map fun d => (d.1, M.structDef d.2))) := by
  induction structs generalizing R p p' with
  | nil => exact .ok ⟨R, hp⟩
  | cons d structs ih =>
    obtain ⟨position, d⟩ := d
    obtain ⟨hd, hstructs⟩ := List.forall_mem_cons.mp hstructs
    refine (register_echoes hp hd position (fun _ => declareStruct_mirrors hd)
      (declareStruct_enters d) (declareStruct_enters _)).bind fun q q' hq => ?_
    obtain ⟨R', hq⟩ := hq
    exact ih hstructs hq

theorem registerStructs_echoes (step : StructDef → Check Unit)
    (hstep : ∀ d, M.shared d.node → ∀ R,
      Mirrors (Mirrored M) (fun _ _ _ => True) R (step d) (step (M.structDef d)))
    (henters : ∀ d, Moves (Enters fun _ => True) (step d))
    (hstructs : ∀ d ∈ structs, M.shared d.2.node) (hp : Abreast M k R p p') :
    Echoes (fun q q' => ∃ R, Abreast M k R q q') (p.registerStructs step structs)
      (p'.registerStructs step (structs.map fun d => (d.1, M.structDef d.2))) := by
  induction structs generalizing R p p' with
  | nil => exact .ok ⟨R, hp⟩
  | cons d structs ih =>
    obtain ⟨position, d⟩ := d
    obtain ⟨hd, hstructs⟩ := List.forall_mem_cons.mp hstructs
    change M.shared d.node at hd
    change Echoes _ (ite (p.failed.contains d.node = true) _ _)
      (ite (p'.failed.contains (M.place d.node) = true) _ _)
    rw [hp.contains_failed hd]
    by_cases hfailed : p.failed.contains d.node
    · rw [if_pos hfailed, if_pos hfailed]
      exact ih hstructs hp
    · rw [if_neg hfailed, if_neg hfailed]
      refine (register_echoes hp hd position (hstep d hd) (henters d) (henters _)).bind
        fun q q' hq => ?_
      obtain ⟨R', hq⟩ := hq
      exact ih hstructs hq

theorem checkLayouts_echoes (hstructs : ∀ d ∈ structs, M.shared d.2.node) (rounds : Nat)
    (hp : Abreast M k R p p') : Echoes (fun q q' => ∃ R, Abreast M k R q q')
      (p.checkLayouts structs rounds)
      (p'.checkLayouts (structs.map fun d => (d.1, M.structDef d.2)) rounds) := by
  induction rounds generalizing R p p' with
  | zero => exact .ok ⟨R, hp⟩
  | succ rounds ih =>
    refine (registerStructs_echoes checkLayout (fun _ hd _ => checkLayout_mirrors hd)
      checkLayout_moves hstructs hp).bind fun q q' hq => ?_
    obtain ⟨R', hq⟩ := hq
    rw [hq.failures, hp.failures]
    split
    · exact .ok ⟨R', hq⟩
    · exact ih hq

theorem registerFunctions_echoes (hfunctions : ∀ d ∈ functions, M.shared d.2.node)
    (hp : Abreast M k R p p') : Echoes (fun q q' => ∃ R, Abreast M k R q q')
      (p.registerFunctions cx functions)
      (p'.registerFunctions cx' (functions.map fun d => (d.1, M.functionDef d.2))) := by
  induction functions generalizing R p p' with
  | nil => exact .ok ⟨R, hp⟩
  | cons d functions ih =>
    obtain ⟨position, d⟩ := d
    obtain ⟨hd, hfunctions⟩ := List.forall_mem_cons.mp hfunctions
    refine (register_echoes hp hd position (fun _ => registerFunction_mirrors hd)
      (registerFunction_enters d) (registerFunction_enters _)).bind fun q q' hq => ?_
    obtain ⟨R', hq⟩ := hq
    exact ih hfunctions hq

end Passes

/-! ## Functions with other bodies -/

/-- What one item can have changed in a state so that no other item could tell. -/
structure Unaffected (N : NodeId → Prop) (s s' : State) : Prop where
  table : s.table.Extends s'.table
  names : s'.names = s.names
  operators : s'.operators = s.operators
  members : s'.members = s.members
  frames : s'.scope.frames = []
  globals : ∀ name, s'.scope.globals.get? name = s.scope.globals.get? name
  slots : s'.annotations.size = s.annotations.size
  annotations : ∀ n, ¬ N n → s'.annotations.get? n = s.annotations.get? n

/-- **A function is closed off.** Whether its body is right or not, only nodes of the body get
types, and no name is bound. -/
theorem unaffected_of_body {item : Item} {name : String} {kind : FunctionKind}
    {params : List (String × TypeExpr)} {result : Option TypeExpr} {body : NodeId}
    (hkind : item.node.kind = .function name kind params result body)
    (hframes : s.scope.frames = []) {r : Except Finding (Option CheckedFunction)}
    (h : attempt (checkItem cx item) s = .ok (r, s')) :
    Unaffected (cx.arena.Below body) s s' := by
  have hlater : Moves (Later (cx.arena.Below body)) (checkItem cx item) := by
    unfold checkItem
    rw [hkind]
    exact .bind (checkFunction_later _ _ _ _ _ _) fun _ => .pure _
  have hbinds : Goes (Binds fun _ _ => False) (Abandons fun _ _ => False) (checkItem cx item) := by
    unfold checkItem
    rw [hkind]
    exact .bind (checkFunction_binds _ _ _ _ _ _) fun _ => .pure _
  obtain ⟨function?, -, hok⟩ | ⟨finding, s₁, annotations, -, herror, hback, rfl⟩ := attempt_eq_ok h
  · have hs' := hlater.ok hok
    have hgains : Scope.Gains _ _ _ := hbinds.ok hok
    exact ⟨hs'.table, hs'.names, hs'.operators, hs'.members, hgains.frames_eq_nil hframes,
      hgains.get?_globals_eq, hs'.annotations.size_eq, fun n hn => hs'.get?_eq hn⟩
  · have hs₁ := hlater.error herror
    obtain ⟨mid, opened, hgains, heq⟩ : Scope.Leaves _ _ _ := hbinds.error herror
    obtain ⟨_, hback', -, hsize, hkept, -, hauto⟩ := hs₁.annotations.rollback
    obtain rfl := Except.ok.inj (hback.symm.trans hback')
    refine ⟨hs₁.table, hs₁.names, hs₁.operators, hs₁.members, rfl, fun key => ?_, hsize,
      fun n hn => ?_⟩
    · change s₁.scope.globals.get? key = _
      rw [heq]
      exact hgains.get?_globals_eq key
    · by_cases hn' : s.annotations.get? n = some .auto
      · exact (hauto n hn').trans (hs₁.get?_eq hn)
      · exact hkept n hn'

theorem Mirrored.of_unaffected (hs : Mirrored M R s s') (h : Unaffected N s s₁)
    (h' : Unaffected N' s' s₁') (hN : ∀ n, M.shared n → ¬ N n)
    (hN' : ∀ n, M.shared n → ¬ N' (M.place n)) : Mirrored M R s₁ s₁' where
  table := hs.table.of_extends h.table h'.table
  builtin := hs.builtin
  scope := by
    refine ⟨by rw [h.frames, h'.frames]; exact .nil, fun name => ?_⟩
    rw [h.globals, h'.globals]
    exact hs.scope.globals name
  names := by
    rw [h.names, h'.names]
    exact hs.names
  operators := by
    rw [h.operators, h'.operators]
    exact hs.operators
  members := by
    rw [h.members, h'.members]
    exact hs.members
  annotations n hn := by
    rw [h.annotations n (hN n hn), h'.annotations _ (hN' n hn)]
    exact hs.annotations n hn
  slots n hn hlt := by
    rw [h'.slots]
    exact hs.slots n hn (h.slots ▸ hlt)

/-! ## Items side by side -/

/-- The two items are the same to every other item: one is the copy of the other, or they are the
item `k` and are functions with the same head, whose bodies hold no shared nodes. -/
inductive SameItem (M : Copy cx cx') (k : Option (Nat × NodeId)) : Item → Item → Prop
  | copied {item : Item}
      (hk : ∀ x, k = some x → item.position ≠ x.1 ∧ M.place item.id ≠ M.place x.2)
      (hid : M.copied item.id) (hnode : cx.arena.node? item.id = some item.node)
      (hfits : cx'.arena.Fits cx'.arena.size (M.place item.id)) :
      SameItem M k item ⟨item.position, M.place item.id, item.node.rename M.place⟩
  | body {position : Nat} {id : NodeId} (hk : k = some (position, id)) (hid : M.shared id)
      {span : Span} {name : String} {kind : FunctionKind} {params : List (String × TypeExpr)}
      {result : Option TypeExpr} {body body' : NodeId}
      (hbody : ∀ n, M.shared n → ¬ cx.arena.Below body n)
      (hbody' : ∀ n, M.shared n → ¬ cx'.arena.Below body' (M.place n)) :
      SameItem M k ⟨position, id, .function name kind params result body, span⟩
        ⟨position, M.place id, .function name kind params result body', span⟩

namespace SameItem

variable {item item' : Item} {items items' : List Item}

theorem shared (h : SameItem M k item item') : M.shared item.id := by
  cases h with
  | copied _ hid => exact M.shared_of_copied _ hid
  | body _ hid => exact hid

theorem structDef? (h : SameItem M k item item') :
    item'.structDef? = item.structDef?.map fun d => (d.1, M.structDef d.2) := by
  cases h with
  | @copied item _ _ _ _ =>
    obtain ⟨position, id, kind, span⟩ := item
    cases kind <;> rfl
  | body => rfl

theorem functionDef? (h : SameItem M k item item') :
    item'.functionDef? = item.functionDef?.map fun d => (d.1, M.functionDef d.2) := by
  cases h with
  | @copied item _ _ _ _ =>
    obtain ⟨position, id, kind, span⟩ := item
    cases kind <;> rfl
  | body => rfl

theorem structDefs (h : Forall₂ (SameItem M k) items items') :
    items'.filterMap Item.structDef? =
      (items.filterMap Item.structDef?).map fun d => (d.1, M.structDef d.2) := by
  induction h with
  | nil => rfl
  | cons hitem _ ih =>
    rw [List.filterMap_cons, List.filterMap_cons, hitem.structDef?, ih]
    cases Item.structDef? _ <;> rfl

theorem functionDefs (h : Forall₂ (SameItem M k) items items') :
    items'.filterMap Item.functionDef? =
      (items.filterMap Item.functionDef?).map fun d => (d.1, M.functionDef d.2) := by
  induction h with
  | nil => rfl
  | cons hitem _ ih =>
    rw [List.filterMap_cons, List.filterMap_cons, hitem.functionDef?, ih]
    cases Item.functionDef? _ <;> rfl

theorem shared_of_mem (h : Forall₂ (SameItem M k) items items') (hitem : item ∈ items) :
    M.shared item.id := by
  obtain ⟨i, hi⟩ := List.mem_iff_getElem?.mp hitem
  obtain ⟨hlt, rfl⟩ := List.getElem?_eq_some_iff.mp hi
  exact (h.get hlt (h.length_eq ▸ hlt)).shared

end SameItem

/-- Two rows of items side by side, the ids of the one renamed. -/
theorem forall₂_of_itemsFrom {arena arena' : Arena} {f : NodeId → NodeId} {ids : List NodeId}
    {items items' : List Item} {position : Nat} {P : Item → Item → Prop}
    (hfrom : itemsFrom arena position ids = .ok items)
    (hfrom' : itemsFrom arena' position (ids.map f) = .ok items')
    (hP : ∀ i id node node', ids[i]? = some id → arena.node? id = some node →
      arena'.node? (f id) = some node' →
      P ⟨position + i, id, node⟩ ⟨position + i, f id, node'⟩) : Forall₂ P items items' := by
  induction ids generalizing position items items' with
  | nil =>
    cases hfrom
    cases hfrom'
    exact .nil
  | cons id ids ih =>
    obtain ⟨node, rest, hnode, hrest, rfl⟩ := itemsFrom_cons_eq_ok.mp hfrom
    obtain ⟨node', rest', hnode', hrest', rfl⟩ := itemsFrom_cons_eq_ok.mp hfrom'
    refine .cons (hP 0 id node node' rfl hnode hnode') (ih hrest hrest' ?_)
    intro i other m m' hother hm hm'
    have hnext := hP (i + 1) other m m' hother hm hm'
    rwa [← Nat.add_assoc, Nat.add_right_comm] at hnext

section Run

variable {item item' : Item} {items items' : List Item} {q q' : Progress} {t t' : TypeTable}

theorem Mirrored.start (htable : TypeTable.Matches R t t')
    (hbuiltin : cx.builtin.Renames R cx'.builtin)
    (hslots : ∀ n, M.shared n → n.index < cx.arena.size → (M.place n).index < cx'.arena.size) :
    Mirrored M R (State.start t cx.arena.size) (State.start t' cx'.arena.size) where
  table := htable
  builtin := hbuiltin
  scope := ⟨.nil, fun _ => .none⟩
  names _ := .none
  operators _ := .none
  members _ := .none
  annotations n _ := by
    change Option.Rel R.rel ((Annotations.blank _).get? n) ((Annotations.blank _).get? _)
    rw [Annotations.get?_blank, Annotations.get?_blank]
    exact .none
  slots n hn hlt := by
    simp only [State.start, Annotations.size, Annotations.blank, Array.size_replicate] at hlt ⊢
    exact hslots n hn hlt

theorem registered_echoes (hitems : Forall₂ (SameItem M k) items items')
    (hstart : Mirrored M R (State.start t cx.arena.size) (State.start t' cx'.arena.size)) :
    Echoes (fun q q' => ∃ R, Abreast M k R q q') (registered cx items t)
      (registered cx' items' t') := by
  have hstructs : ∀ d ∈ items.filterMap Item.structDef?, M.shared d.2.node := fun d hd => by
    obtain ⟨item, hitem, -, hid, -⟩ := mem_structDefs hd
    exact hid ▸ SameItem.shared_of_mem hitems hitem
  have hfunctions : ∀ d ∈ items.filterMap Item.functionDef?, M.shared d.2.node := fun d hd => by
    obtain ⟨item, hitem, -, hid, -⟩ := mem_functionDefs hd
    exact hid ▸ SameItem.shared_of_mem hitems hitem
  have hp₀ : Abreast M k R ⟨State.start t cx.arena.size, [], [], []⟩
      ⟨State.start t' cx'.arena.size, [], [], []⟩ := ⟨hstart, by simp, rfl, rfl, .nil⟩
  unfold registered structsRegistered
  rw [SameItem.structDefs hitems, SameItem.functionDefs hitems]
  refine Echoes.bind (Q := fun q q' => ∃ R, Abreast M k R q q') ?_ fun p p' hp =>
    hp.elim fun _ => registerFunctions_echoes hfunctions
  refine (declareStructs_echoes hstructs hp₀).bind fun p p' hp => ?_
  obtain ⟨R₁, hp⟩ := hp
  refine (registerStructs_echoes fillStruct (fun _ hd _ => fillStruct_mirrors hd) fillStruct_moves
    hstructs hp).bind fun p p' hp => ?_
  obtain ⟨R₂, hp⟩ := hp
  simp only [List.length_map]
  exact checkLayouts_echoes hstructs _ hp

/-- The step on an item is the first of the pass over the items. -/
theorem ItemStep.checkItems_cons (h : ItemStep cx item p q) (items : List Item) :
    p.checkItems cx (item :: items) = q.checkItems cx items := by
  conv_lhs => unfold Progress.checkItems
  cases h with
  | skip hfailed => rw [if_pos (by simpa using hfailed)]
  | done hnew h =>
    rw [if_neg (by simpa using hnew), attempt_of_ok h]
    rfl
  | found hnew h =>
    rw [if_neg (by simpa using hnew), h]
    rfl

theorem node_of_checkItem {f : CheckedFunction} (h : checkItem cx item s = .ok (some f) s') :
    f.node = item.id := by
  obtain ⟨_, _, _, _, _, -, hfunction⟩ := checkItem_eq_some h
  obtain ⟨_, _, _, _, _, _, _, _, _, -, -, -, -, -, -, -, -, -, rfl⟩ :=
    checkFunction_eq_ok hfunction
  rfl

/-- The step on a copied item. -/
theorem Abreast.copied (hp : Abreast M k R p p')
    (hk : ∀ x, k = some x → item.position ≠ x.1 ∧ M.place item.id ≠ M.place x.2)
    (hid : M.copied item.id) (hnode : cx.arena.node? item.id = some item.node)
    (hfits : cx'.arena.Fits cx'.arena.size (M.place item.id)) (hstep : ItemStep cx item p q) :
    ∃ R' q', ItemStep cx' ⟨item.position, M.place item.id, item.node.rename M.place⟩ p' q' ∧
      Abreast M k R' q q' := by
  have hfailed := hp.failed item.id (M.shared_of_copied _ hid)
  have hmirrors := checkItem_mirrors (R := R) hid hnode hfits
  cases hstep with
  | skip hmem => exact ⟨R, p', .skip (hfailed.mp hmem), hp⟩
  | @done function? state hnew h =>
    obtain ⟨R', function?', state', hR, hok, hs, hfunction⟩ :=
      (h ▸ hmirrors R le_rfl _ _ hp.state).exists_ok
    refine ⟨R', _, .done (mt hfailed.mpr hnew) hok, { hp with state := hs, functions := ?_ }⟩
    simp only [List.filter_append]
    refine List.rel_append (hp.functions.imp fun _ _ => SameFunction.mono hR) ?_
    cases hfunction with
    | none => exact .nil
    | @some f g hfg =>
      have hf : k.map (·.2) ≠ some f.node := by
        rw [node_of_checkItem h]
        rintro heq
        obtain ⟨x, hx, hid⟩ := Option.map_eq_some_iff.mp heq
        exact (hk x hx).2 (congrArg M.place hid.symm)
      have hg : k.map (fun x => M.place x.2) ≠ some g.node := by
        rw [hfg.node, node_of_checkItem h]
        rintro heq
        obtain ⟨x, hx, hid⟩ := Option.map_eq_some_iff.mp heq
        exact (hk x hx).2 hid.symm
      rw [Option.toList_some, Option.toList_some, List.filter_cons_of_pos (by simpa using hf),
        List.filter_cons_of_pos (by simpa using hg)]
      exact .cons hfg .nil
  | found hnew h =>
    obtain ⟨⟨_, state'⟩, hattempt, R', hR, houtcome, hs⟩ :=
      attempt_echoes hmirrors (checkItem_enters item) (checkItem_enters _) hp.state _ h
    cases houtcome
    refine ⟨R', _, .found (mt hfailed.mpr hnew) hattempt, { hp with
      state := hs, findings := ?_, functions := hp.functions.imp fun _ _ => SameFunction.mono hR }⟩
    simp only [List.filter_append, hp.findings]

/-- The step on a function leaves the other results alone. -/
theorem ItemStep.unaffected {name : String} {kind : FunctionKind}
    {params : List (String × TypeExpr)} {result : Option TypeExpr} {body : NodeId}
    (hkind : item.node.kind = .function name kind params result body)
    (hframes : p.state.scope.frames = []) (hnew : item.id ∉ p.failed) (h : ItemStep cx item p q) :
    Unaffected (cx.arena.Below body) p.state q.state ∧ q.failed = p.failed ∧
      q.findings.filter (fun found => some item.position ≠ some found.1) =
        p.findings.filter (fun found => some item.position ≠ some found.1) ∧
      q.functions.filter (fun f => some item.id ≠ some f.node) =
        p.functions.filter fun f => some item.id ≠ some f.node := by
  cases h with
  | skip hfailed => exact absurd hfailed hnew
  | done _ h =>
    refine ⟨unaffected_of_body hkind hframes (attempt_of_ok h), rfl, rfl, ?_⟩
    rw [List.filter_append, List.append_right_eq_self, List.filter_eq_nil_iff]
    intro f hf
    obtain rfl := Option.mem_toList.mp hf
    simp [node_of_checkItem h]
  | found _ h =>
    refine ⟨unaffected_of_body hkind hframes h, rfl, ?_, rfl⟩
    simp [List.filter_append]

theorem Mirrored.frames_eq_nil (h : Mirrored M R s s') (hframes : s.scope.frames = []) :
    s'.scope.frames = [] := by
  have hlength := h.scope.frames.length_eq
  rw [hframes] at hlength
  exact List.eq_nil_of_length_eq_zero hlength.symm

/-- The step on the item that may differ. -/
theorem Abreast.body {position : Nat} {id : NodeId} (hp : Abreast M (some (position, id)) R p p')
    (hframes : p.state.scope.frames = []) (hid : M.shared id) {span : Span} {name : String}
    {kind : FunctionKind} {params : List (String × TypeExpr)} {result : Option TypeExpr}
    {body body' : NodeId} (hbody : ∀ n, M.shared n → ¬ cx.arena.Below body n)
    (hbody' : ∀ n, M.shared n → ¬ cx'.arena.Below body' (M.place n))
    (hstep : ItemStep cx ⟨position, id, .function name kind params result body, span⟩ p q)
    (hstep' : ItemStep cx' ⟨position, M.place id, .function name kind params result body', span⟩
      p' q') : Abreast M (some (position, id)) R q q' := by
  have hfailed := hp.failed id hid
  have hframes' := hp.state.frames_eq_nil hframes
  by_cases hmem : id ∈ p.failed
  · cases hstep with
    | skip => cases hstep' with
      | skip => exact hp
      | done hnew | found hnew => exact absurd (hfailed.mp hmem) hnew
    | done hnew | found hnew => exact absurd hmem hnew
  · obtain ⟨hs, hsame, hfindings, hfunctions⟩ := hstep.unaffected rfl hframes hmem
    obtain ⟨hs', hsame', hfindings', hfunctions'⟩ :=
      hstep'.unaffected rfl hframes' (mt hfailed.mpr hmem)
    exact
      { state := hp.state.of_unaffected hs hs' hbody hbody'
        failed := hsame ▸ hsame' ▸ hp.failed
        failures := hsame ▸ hsame' ▸ hp.failures
        findings := hfindings'.trans (hp.findings.trans hfindings.symm)
        functions := by
          change Forall₂ _ (q.functions.filter fun f => some id ≠ some f.node)
            (q'.functions.filter fun f => some (M.place id) ≠ some f.node)
          rw [hfunctions, hfunctions']
          exact hp.functions }

/-- **Runs stay abreast.** If the pass over the items ends, so does the pass over the other items,
with related results. Only where the two items `k` differ does it have to be known that the step on
the other one ends. -/
theorem checkItems_echoes (hitems : Forall₂ (SameItem M k) items items')
    (hp : Abreast M k R p p') (hframes : p.state.scope.frames = [])
    (h : p.checkItems cx items = .ok q)
    (hends : k ≠ none → ∃ q', p'.checkItems cx' items' = .ok q') :
    ∃ R' q', p'.checkItems cx' items' = .ok q' ∧ Abreast M k R' q q' := by
  induction hitems generalizing R p p' with
  | nil =>
    cases h
    exact ⟨R, p', rfl, hp⟩
  | @cons item item' items items' hitem _ ih =>
    obtain ⟨p₁, hstep, hrest⟩ := checkItems_cons_eq_ok h
    have hframes₁ : p₁.state.scope.frames = [] :=
      frames_of_checkItems hframes (hstep.checkItems_cons [])
    obtain ⟨R₁, p₁', hstep', hp₁⟩ :
        ∃ R₁ p₁', ItemStep cx' item' p' p₁' ∧ Abreast M k R₁ p₁ p₁' := by
      cases hitem with
      | copied hk hid hnode hfits => exact hp.copied hk hid hnode hfits hstep
      | body hk hid hbody hbody' =>
        -- the bodies need not end alike, so the step of the second run is taken from its result
        subst hk
        obtain ⟨q', hq'⟩ := hends (by simp)
        obtain ⟨p₁', hstep', -⟩ := checkItems_cons_eq_ok hq'
        exact ⟨R, p₁', hstep', hp.body hframes hid hbody hbody' hstep hstep'⟩
    rw [hstep'.checkItems_cons] at hends ⊢
    exact ih hp₁ hframes₁ hrest hends

/-- **Runs side by side.** If a run over items ends, so does the run over copies of them, and the
two have the same results apart from those of the item `k`. -/
theorem run_echoes {ids ids' : List NodeId} (hfrom : itemsFrom cx.arena 0 ids = .ok items)
    (hfrom' : itemsFrom cx'.arena 0 ids' = .ok items')
    (hitems : Forall₂ (SameItem M k) items items')
    (hstart : Mirrored M R (State.start t cx.arena.size) (State.start t' cx'.arena.size))
    (h : run cx ids t = .ok q) (hends : k ≠ none → ∃ q', run cx' ids' t' = .ok q') :
    ∃ R' q', run cx' ids' t' = .ok q' ∧ Abreast M k R' q q' := by
  obtain ⟨_, p, hfrom₁, hregistered, hcheck⟩ := run_eq_ok.mp h
  obtain rfl := Except.ok.inj (hfrom₁.symm.trans hfrom)
  obtain ⟨p', hregistered', R₁, hp⟩ := registered_echoes hitems hstart p hregistered
  have hrun' : run cx' ids' t' = p'.checkItems cx' items' := by
    rw [run_eq, hfrom']
    change registered cx' items' t' >>= _ = _
    rw [hregistered']
    rfl
  rw [hrun'] at hends ⊢
  exact checkItems_echoes hitems hp (frames_of_steps (registered_steps hregistered)) hcheck hends

end Run

/-! ## What shows -/

/-- Shared nodes have types that appear the same. -/
theorem Mirrored.appearance_of_node (hs : Mirrored M R s s') {n : NodeId} (hn : M.shared n) :
    (s'.annotations.get? (M.place n)).map s'.table.appearance =
      (s.annotations.get? n).map s.table.appearance :=
  optionRel_map_eq (fun _ _ h => hs.table.appearance_eq h) (hs.annotations n hn)

/-- Global names have types that appear the same. -/
theorem Mirrored.appearance_of_global (hs : Mirrored M R s s') (name : String) :
    (s'.scope.globals.get? name).map (fun binding => s'.table.appearance binding.type) =
      (s.scope.globals.get? name).map fun binding => s.table.appearance binding.type :=
  optionRel_map_eq (fun _ _ h => hs.table.appearance_eq h.1) (hs.scope.globals name)

/-- Declared structs appear the same. -/
theorem Mirrored.appearance_of_name (hs : Mirrored M R s s') (name : String) :
    (s'.names.get? name).map s'.table.appearance = (s.names.get? name).map s.table.appearance :=
  optionRel_map_eq (fun _ _ h => hs.table.appearance_eq h) (hs.names name)

/-- The lists of checked functions tell the same of each. -/
theorem SameFunction.map_eq {fs gs : List CheckedFunction}
    (h : Forall₂ (SameFunction M R) fs gs) :
    (gs.map fun g => (g.name, g.kind, g.node, g.symbol)) =
      fs.map fun f => (f.name, f.kind, M.place f.node, f.symbol) := by
  induction h with
  | nil => rfl
  | cons hfg _ ih =>
    rw [List.map_cons, List.map_cons, ih, hfg.name, hfg.kind, hfg.node, hfg.symbol]

end RuleTypes.Check
