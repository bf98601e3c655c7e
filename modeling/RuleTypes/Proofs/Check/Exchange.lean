import Mathlib.Logic.Equiv.Basic
import RuleTypes.Proofs.Check.Discarded
import RuleTypes.Proofs.Check.Enrolment

/-!
# Runs with two functions exchanged

Two runs look at the same items, but two neighbouring functions stand in either order. Up to the
first of them the runs are the same. After the second one the states are related, and the findings
and functions are the same up to their places (`Swapped`). This is so when the functions are
registered (`Swapped.of_registered`), since neither is defined already, and when their bodies are
checked (`Swapped.exchange`), since a body cannot influence other items. From there on the runs stay
related item by item.
-/

namespace RuleTypes

/-- Definitions of functions, whether here or elsewhere. -/
def NodeKind.definesFunction : NodeKind → Bool
  | function .. | foreign .. => true
  | _ => false

/-- What a list of functions tells of one. -/
def CheckedFunction.entry (f : CheckedFunction) : String × FunctionKind × NodeId × String :=
  (f.name, f.kind, f.node, f.symbol)

namespace Check

open Relation

variable {α : Type} {cx : Setting} {R R' : Renaming} {s s' : State} {p p' q q' p₁ p₁' : Progress}
  {d e : FunctionDef} {k position : Nat} {base : TypeTable} {hbase : base.Canonical}
  {item : Item} {items : List Item}

/-- The two runs are related, with the items `k` and `k + 1` exchanged. Their tables grew from one
table. -/
structure Swapped (cx : Setting) {base : TypeTable} (hbase : base.Canonical) (k : Nat)
    (R : Renaming) (p p' : Progress) : Prop where
  state : Mirrored (.same rfl rfl : Copy cx cx) R p.state p'.state
  shared : hbase.same ≤ R
  left : base.Extends p.state.table
  right : base.Extends p'.state.table
  frames : p.state.scope.frames = []
  failed : ∀ n, n ∈ p.failed ↔ n ∈ p'.failed
  findings : p'.findings.Perm (p.findings.map fun f => (Equiv.swap k (k + 1) f.1, f.2))
  functions : (p'.functions.map (·.entry)).Perm (p.functions.map (·.entry))

theorem Swapped.mem_findings_swap (h : Swapped cx hbase k R p p') (finding : Finding) :
    (Equiv.swap k (k + 1) position, finding) ∈ p'.findings ↔ (position, finding) ∈ p.findings := by
  rw [h.findings.mem_iff, List.mem_map]
  constructor
  · rintro ⟨⟨i, found⟩, hfound, heq⟩
    obtain ⟨hi, rfl⟩ := Prod.mk.inj heq
    obtain rfl := (Equiv.swap k (k + 1)).injective hi
    exact hfound
  · exact fun hfound => ⟨_, hfound, rfl⟩

/-- Findings at other places stay where they are. -/
theorem map_swap_of_forall {found : List (Nat × Finding)}
    (h : ∀ f ∈ found, f.1 ≠ k ∧ f.1 ≠ k + 1) :
    found.map (fun f => (Equiv.swap k (k + 1) f.1, f.2)) = found := by
  refine (List.map_congr_left fun f hf => ?_).trans (List.map_id found)
  rw [Equiv.swap_apply_of_ne_of_ne (h f hf).1 (h f hf).2]
  rfl

/-! ## Registration -/

/-- No failure and no finding is taken back. -/
structure Progress.Keeps (p q : Progress) : Prop where
  failed : p.failed ⊆ q.failed
  findings : p.findings ⊆ q.findings

theorem Progress.Keeps.clashes {n : NodeId} (h : p.Keeps q) (hclash : p.Clashes position n) :
    q.Clashes position n := by
  obtain ⟨hn, name, span, hfinding⟩ := hclash
  exact ⟨h.failed hn, name, span, h.findings hfinding⟩

theorem keeps_of_register {id : NodeId} {x : Check Unit}
    (h : p.register position id x = .ok q) : p.Keeps q := by
  obtain ⟨hfailed, hfindings⟩ | ⟨finding, hfailed, hfindings⟩ := failed_of_register h
  · exact ⟨hfailed ▸ List.Subset.refl _, hfindings ▸ List.Subset.refl _⟩
  · exact ⟨hfailed ▸ List.subset_cons_self .., hfindings ▸ List.subset_append_left ..⟩

/-- The finding that a step ends in. -/
def finding? : Except Finding α → Option Finding
  | .ok _ => none
  | .error finding => some finding

theorem SameOutcome.finding?_eq {β : Type} {rel : α → β → Prop} {r : Except Finding α}
    {r' : Except Finding β} (h : SameOutcome rel r r') : finding? r' = finding? r := by
  cases h <;> rfl

/-- The finding of a step with the place of the item. -/
def notes (position : Nat) (found : Option Finding) : List (Nat × Finding) :=
  found.toList.map (position, ·)

theorem map_notes (g : Nat → Nat) (position : Nat) (found : Option Finding) :
    (notes position found).map (fun f => (g f.1, f.2)) = notes (g position) found := by
  rw [notes, List.map_map]
  rfl

theorem SameOutcome.mono {r r' : Except Finding TypeId} (h : SameOutcome R.rel r r')
    (hR : R ≤ R') : SameOutcome R'.rel r r' := by
  cases h with
  | ok hab => exact .ok (hR _ _ hab)
  | error finding => exact .error finding

theorem Received.table {table : TypeTable} {r : Except Finding TypeId}
    (h : Received position d table p r p') : p'.state.table = table := by
  cases h <;> rfl

theorem Received.results {table : TypeTable} {r : Except Finding TypeId}
    (h : Received position d table p r p') :
    (∀ n, n ∈ p'.failed ↔ (n = d.node ∧ finding? r ≠ none) ∨ n ∈ p.failed) ∧
      p'.findings = p.findings ++ notes position (finding? r) ∧ p'.functions = p.functions := by
  cases h with
  | accepted => exact ⟨fun n => by simp [finding?], (List.append_nil _).symm, rfl⟩
  | refused finding => exact ⟨fun n => by simp [finding?], rfl, rfl⟩

/-- A global function that has been received is bound under its name. -/
theorem Received.bound {table : TypeTable} {signature : TypeId}
    (h : Received position d table p (.ok signature) p') (hframes : p.state.scope.frames = [])
    (hglobal : d.isGlobal = true) : p'.state.scope.current.get? d.name ≠ none := by
  cases h with
  | accepted hset =>
    rw [enrolled_eq, if_pos hglobal]
    simp [Scope.current, Scope.withBinding, hframes]

/-- Global functions that have both been received have different names. -/
theorem Receives.name_ne {table table' : TypeTable} {r r' : Except Finding TypeId}
    (h : Received position d table p r p') (hframes : p.state.scope.frames = [])
    (h' : Receives cx e p'.state r' table') {a b : TypeId} (ha : r' = .ok a) (hb : r = .ok b)
    (he : e.isGlobal = true) (hd : d.isGlobal = true) : e.name ≠ d.name := by
  subst ha hb
  intro hname
  cases h' with
  | accepted _ _ hfree => exact h.bound hframes hd (hname ▸ hfree he)

theorem frames_of_registerFunction (hframes : p.state.scope.frames = [])
    (h : p.register position d.node (registerFunction cx d) = .ok p') :
    p'.state.scope.frames = [] :=
  frames_of_register (registerFunction_staysGlobal d) hframes h

/-- The registration of a function adds types and renames none. -/
theorem sameTypes_of_register
    (hs : Mirrored (.same rfl rfl : Copy cx cx) hbase.same p.state p.state)
    (h : p.register position d.node (registerFunction cx d) = .ok p') :
    SameTypes hbase.same p.state p'.state ∧ SameTypes hbase.same p'.state p.state := by
  obtain ⟨hnames, htable, -⟩ := (functionsEntered_of_register h).state
  exact ⟨⟨hs.table.of_extends (.refl _) htable, hnames ▸ hs.names⟩,
    ⟨hs.table.of_extends htable (.refl _), hnames ▸ hs.names⟩⟩

/-- **Two functions are registered in either order.** If neither is defined already in either order,
the runs are related afterwards. -/
theorem Swapped.of_registered (hs : Knows .known [] cx p.state) (hbase : p.state.table.Canonical)
    (hframes : p.state.scope.frames = []) (hnode : d.node ≠ e.node)
    (hplaces : ∀ f ∈ p.findings, f.1 ≠ k ∧ f.1 ≠ k + 1)
    (hd : p.register k d.node (registerFunction cx d) = .ok p₁)
    (he : p₁.register (k + 1) e.node (registerFunction cx e) = .ok q)
    (he' : p.register k e.node (registerFunction cx e) = .ok p₁')
    (hd' : p₁'.register (k + 1) d.node (registerFunction cx d) = .ok q')
    (hnew : ¬ q.Clashes k d.node ∧ ¬ q.Clashes (k + 1) e.node)
    (hnew' : ¬ q'.Clashes k e.node ∧ ¬ q'.Clashes (k + 1) d.node) :
    ∃ R, Swapped cx hbase k R q q' := by
  have hframes₁ := frames_of_registerFunction hframes hd
  have hframes₁' := frames_of_registerFunction hframes he'
  have hnew₁ := mt (keeps_of_register he).clashes hnew.1
  have hnew₁' := mt (keeps_of_register hd').clashes hnew'.1
  obtain ⟨rd, t₁, hrd, hext, h₁⟩ := (receives_of_register hframes hd).resolve_left hnew₁
  obtain ⟨re, t₂, hre, hext₂, h₂⟩ := (receives_of_register hframes₁ he).resolve_left hnew.2
  obtain ⟨re', t₁', hre', hext', h₁'⟩ := (receives_of_register hframes he').resolve_left hnew₁'
  obtain ⟨rd', t₂', hrd', hext₂', h₂'⟩ :=
    (receives_of_register hframes₁' hd').resolve_left hnew'.2
  obtain rfl := h₁.table
  obtain rfl := h₂.table
  obtain rfl := h₁'.table
  obtain rfl := h₂'.table
  -- either function is received from the same types in both orders
  have hself := Mirrored.self hs hbase hframes
  obtain ⟨R₁, hR₁, htables₁, hsame₁⟩ := hrd.sameOutcome (sameTypes_of_register hself he').1 hrd'
  obtain ⟨R₂, hR₂, htables₂, hsame₂⟩ := hre.sameOutcome (sameTypes_of_register hself hd).2 hre'
  obtain ⟨R, hR, htables, hgreatest⟩ :=
    TypeTable.Matches.exists_greatest hbase (hext.trans hext₂) (hext'.trans hext₂')
  have hsame₁ := hsame₁.mono (hgreatest R₁ hR₁ (htables₁.of_extends hext₂ (.refl _)))
  have hsame₂ := hsame₂.mono (hgreatest R₂ hR₂ (htables₂.of_extends (.refl _) hext₂'))
  obtain ⟨hfailed₁, hfindings₁, hfunctions₁⟩ := h₁.results
  obtain ⟨hfailed₂, hfindings₂, hfunctions₂⟩ := h₂.results
  obtain ⟨hfailed₁', hfindings₁', hfunctions₁'⟩ := h₁'.results
  obtain ⟨hfailed₂', hfindings₂', hfunctions₂'⟩ := h₂'.results
  refine ⟨R, ?_, hR, hext.trans hext₂, hext'.trans hext₂', frames_of_registerFunction hframes₁ he,
    fun n => ?_, ?_, ?_⟩
  · exact .of_received hs hbase hframes hnode h₁ h₂ h₁' h₂' htables hR hsame₁ hsame₂
      fun _ _ => hrd'.name_ne h₁' hframes
  · rw [hfailed₂, hfailed₁, hfailed₂', hfailed₁', hsame₁.finding?_eq, hsame₂.finding?_eq]
    exact or_left_comm
  · simp only [hfindings₁, hfindings₂, hfindings₁', hfindings₂', List.map_append, map_notes,
      hsame₁.finding?_eq, hsame₂.finding?_eq, Equiv.swap_apply_left, Equiv.swap_apply_right,
      List.append_assoc, map_swap_of_forall hplaces]
    exact List.perm_append_comm.append_left _
  · rw [hfunctions₂, hfunctions₁, hfunctions₂', hfunctions₁']

/-- A function that is registered in both runs. -/
theorem Swapped.register (h : Swapped cx hbase k R p p') (hplace : position ≠ k ∧ position ≠ k + 1)
    (hq : p.register position d.node (registerFunction cx d) = .ok q)
    (hq' : p'.register position d.node (registerFunction cx d) = .ok q') :
    ∃ R', Swapped cx hbase k R' q q' := by
  have hleft := h.left.trans (functionsEntered_of_register hq).state.table
  have hright := h.right.trans (functionsEntered_of_register hq').state.table
  have hframes := frames_of_registerFunction h.frames hq
  obtain ⟨r, state, hattempt, hresult⟩ := register_eq_ok hq
  obtain ⟨r', state', hattempt', hresult'⟩ := register_eq_ok hq'
  have hmirrors : Mirrors (Mirrored (.same rfl rfl : Copy cx cx)) (fun _ _ _ => True) R
      (registerFunction cx d) (registerFunction cx d) := registerFunction_mirrors trivial
  obtain ⟨⟨_, _⟩, hok, R', hR, houtcome, hs⟩ := attempt_echoes hmirrors
    (registerFunction_enters d) (registerFunction_enters d) h.state _ hattempt
  obtain ⟨rfl, rfl⟩ := Prod.mk.inj (Except.ok.inj (hok.symm.trans hattempt'))
  dsimp only at houtcome hs
  obtain ⟨rfl, rfl⟩ | ⟨finding, rfl, rfl⟩ := hresult
  · obtain ⟨-, rfl⟩ | ⟨_, rfl, -⟩ := hresult'
    · exact ⟨R', { h with
        state := hs
        shared := h.shared.trans hR
        left := hleft
        right := hright
        frames := hframes }⟩
    · cases houtcome
  · obtain ⟨rfl, -⟩ | ⟨_, rfl, rfl⟩ := hresult'
    · cases houtcome
    · cases houtcome
      refine ⟨R', { h with
        state := hs
        shared := h.shared.trans hR
        left := hleft
        right := hright
        frames := hframes
        failed := fun n => by rw [List.mem_cons, List.mem_cons, h.failed]
        findings := ?_ }⟩
      rw [List.map_append, List.map_singleton, Equiv.swap_apply_of_ne_of_ne hplace.1 hplace.2]
      exact h.findings.append_right _

theorem Swapped.registerFunctions {defs : List (Nat × FunctionDef)}
    (hdefs : ∀ d ∈ defs, d.1 ≠ k ∧ d.1 ≠ k + 1) (h : Swapped cx hbase k R p p')
    (hq : p.registerFunctions cx defs = .ok q) (hq' : p'.registerFunctions cx defs = .ok q') :
    ∃ R', Swapped cx hbase k R' q q' := by
  induction defs generalizing R p p' with
  | nil =>
    cases hq
    cases hq'
    exact ⟨R, h⟩
  | cons d defs ih =>
    obtain ⟨hd, hdefs⟩ := List.forall_mem_cons.mp hdefs
    obtain ⟨p₁, hfirst, hq⟩ := except_bind_eq_ok.mp hq
    obtain ⟨p₁', hfirst', hq'⟩ := except_bind_eq_ok.mp hq'
    obtain ⟨R₁, h₁⟩ := h.register hd hfirst hfirst'
    exact ih hdefs h₁ hq hq'

/-! ## Looking at items -/

/-- What a step on an item adds to the results. -/
structure Adds (position : Nat) (found : Option Finding)
    (entries : List (String × FunctionKind × NodeId × String)) (p q : Progress) : Prop where
  failed : q.failed = p.failed
  findings : q.findings = p.findings ++ notes position found
  functions : q.functions.map (·.entry) = p.functions.map (·.entry) ++ entries

theorem Adds.none (position : Nat) (p : Progress) : Adds position none [] p p :=
  ⟨rfl, (List.append_nil _).symm, (List.append_nil _).symm⟩

theorem Adds.function (position : Nat) (p : Progress) (state : State)
    (function? : Option CheckedFunction) : Adds position .none (function?.toList.map (·.entry)) p
      { p with state, functions := p.functions ++ function?.toList } :=
  ⟨rfl, (List.append_nil _).symm, List.map_append ..⟩

theorem Adds.finding (position : Nat) (p : Progress) (state : State) (finding : Finding) :
    Adds position (some finding) [] p
      { p with state, findings := p.findings ++ [(position, finding)] } :=
  ⟨rfl, rfl, (List.append_nil _).symm⟩

theorem entries_eq {M : Copy cx cx} (hplace : M.place = id) {f? g? : Option CheckedFunction}
    (h : Option.Rel (SameFunction M R) f? g?) :
    g?.toList.map (·.entry) = f?.toList.map (·.entry) := by
  cases h with
  | none => rfl
  | some hfg =>
    simp only [Option.toList_some, List.map_singleton, CheckedFunction.entry, hfg.name, hfg.kind,
      hfg.node, hfg.symbol, hplace, id_eq]

/-- **The same item, wherever it stands.** From related states the steps on an item have the same
results. -/
theorem ItemStep.follows {M : Copy cx cx} (hplace : M.place = id)
    (hs : Mirrored M R p.state p'.state) (hfailed : item.id ∈ p.failed ↔ item.id ∈ p'.failed)
    (hid : M.copied item.id) (hnode : cx.arena.node? item.id = some item.node)
    (hfits : cx.arena.Fits cx.arena.size item.id) (hstep : ItemStep cx item p q)
    (hstep' : ItemStep cx ⟨position, item.id, item.node⟩ p' q') :
    ∃ R' found entries, R ≤ R' ∧ Mirrored M R' q.state q'.state ∧
      Adds item.position found entries p q ∧ Adds position found entries p' q' := by
  have hmirrors : Mirrors (Mirrored M) (fun R => Option.Rel (SameFunction M R)) R
      (checkItem cx item) (checkItem cx ⟨position, item.id, item.node⟩) := by
    have h := checkItem_mirrors (R := R) hid hnode (by rwa [hplace])
    rwa [hplace, Node.rename_id] at h
  cases hstep with
  | skip hmem =>
    cases hstep' with
    | skip => exact ⟨R, _, _, le_rfl, hs, .none _ p, .none _ p'⟩
    | done hnew | found hnew => exact absurd (hfailed.mp hmem) hnew
  | done hnew h =>
    obtain ⟨R', function?', state', hR, hok, hs', hfunction⟩ :=
      (h ▸ hmirrors R le_rfl _ _ hs).exists_ok
    cases hstep' with
    | skip hmem => exact absurd (hfailed.mpr hmem) hnew
    | found _ h' => cases (attempt_of_ok hok).symm.trans h'
    | done _ h' =>
      cases hok.symm.trans h'
      refine ⟨R', _, _, hR, hs', .function _ p _ _, ?_⟩
      rw [← entries_eq hplace hfunction]
      exact .function _ p' _ _
  | found hnew h =>
    obtain ⟨⟨_, state'⟩, hattempt, R', hR, houtcome, hs'⟩ :=
      attempt_echoes hmirrors (checkItem_enters item) (checkItem_enters _) hs _ h
    cases houtcome
    cases hstep' with
    | skip hmem => exact absurd (hfailed.mpr hmem) hnew
    | done _ h' => cases hattempt.symm.trans (attempt_of_ok h')
    | found _ h' =>
      cases hattempt.symm.trans h'
      exact ⟨R', _, _, hR, hs', .finding _ p _ _, .finding _ p' _ _⟩

/-- Of an item of a program: its node is there, and so are all nodes below it. -/
def Item.IsPlaced (cx : Setting) (item : Item) : Prop :=
  cx.arena.node? item.id = some item.node ∧ cx.arena.Fits cx.arena.size item.id

/-- An item that both runs look at. -/
theorem Swapped.checkItem (h : Swapped cx hbase k R p p')
    (hplace : item.position ≠ k ∧ item.position ≠ k + 1) (hitem : item.IsPlaced cx)
    (hstep : ItemStep cx item p q) (hstep' : ItemStep cx item p' q') :
    ∃ R', Swapped cx hbase k R' q q' := by
  obtain ⟨R', found, entries, hR, hs, hadds, hadds'⟩ :=
    hstep.follows rfl h.state (h.failed item.id) trivial hitem.1 hitem.2 hstep'
  refine ⟨R', hs, h.shared.trans hR, ?_, ?_, ?_, ?_, ?_, ?_⟩
  · exact h.left.trans (extends_of_checkItems (hstep.checkItems_cons []))
  · exact h.right.trans (extends_of_checkItems (hstep'.checkItems_cons []))
  · exact frames_of_checkItems h.frames (hstep.checkItems_cons [])
  · rw [hadds.failed, hadds'.failed]
    exact h.failed
  · rw [hadds.findings, hadds'.findings, List.map_append, map_notes,
      Equiv.swap_apply_of_ne_of_ne hplace.1 hplace.2]
    exact h.findings.append_right _
  · rw [hadds.functions, hadds'.functions]
    exact h.functions.append_right _

theorem Swapped.checkItems (hplaces : ∀ item ∈ items, item.position ≠ k ∧ item.position ≠ k + 1)
    (hitems : ∀ item ∈ items, item.IsPlaced cx) (h : Swapped cx hbase k R p p')
    (hq : p.checkItems cx items = .ok q) (hq' : p'.checkItems cx items = .ok q') :
    ∃ R', Swapped cx hbase k R' q q' := by
  induction items generalizing R p p' with
  | nil =>
    cases hq
    cases hq'
    exact ⟨R, h⟩
  | cons item items ih =>
    obtain ⟨hplace, hplaces⟩ := List.forall_mem_cons.mp hplaces
    obtain ⟨hitem, hitems⟩ := List.forall_mem_cons.mp hitems
    obtain ⟨p₁, hstep, hq⟩ := checkItems_cons_eq_ok hq
    obtain ⟨p₁', hstep', hq'⟩ := checkItems_cons_eq_ok hq'
    obtain ⟨R₁, h₁⟩ := h.checkItem hplace hitem hstep hstep'
    exact ih hplaces hitems h₁ hq hq'

/-! ## Two functions next to each other -/

variable {a b : NodeId}

/-- The program beside itself, with an eye on the item `a` and without what is below the item
`b`. -/
def Copy.without (h : ∀ n, cx.arena.Below a n → ¬ TransGen cx.arena.IsChild b n) : Copy cx cx where
  place := id
  shared n := ¬ TransGen cx.arena.IsChild b n
  copied := cx.arena.Below a
  config := rfl
  injective _ _ _ _ := id
  shared_of_copied := h
  node? n _ := (Copy.same rfl rfl : Copy cx cx).node? n trivial
  part _ _ hn hpart := ReflTransGen.tail hn hpart

/-- What holds for all nodes holds for some of them. -/
theorem Mirrored.without (h : ∀ n, cx.arena.Below a n → ¬ TransGen cx.arena.IsChild b n)
    (hs : Mirrored (.same rfl rfl : Copy cx cx) R s s') : Mirrored (.without h) R s s' :=
  { hs with
    annotations := fun n _ => hs.annotations n trivial
    slots := fun n _ => hs.slots n trivial }

theorem Unaffected.refl (hframes : s.scope.frames = []) : Unaffected (fun _ => False) s s :=
  ⟨.refl _, rfl, rfl, rfl, hframes, fun _ => rfl, rfl, fun _ _ => rfl⟩

theorem Unaffected.mono {N N' : NodeId → Prop} (h : Unaffected N s s') (hN : ∀ n, N n → N' n) :
    Unaffected N' s s' := { h with annotations := fun n hn => h.annotations n (mt (hN n) hn) }

/-- **The step on a function shows below it only.** -/
theorem ItemStep.unaffected_of_function (h : ItemStep cx item p q)
    (hfunction : item.node.kind.definesFunction = true)
    (hnode : cx.arena.node? item.id = some item.node) (hframes : p.state.scope.frames = []) :
    Unaffected (TransGen cx.arena.IsChild item.id) p.state q.state := by
  have hrefl := (Unaffected.refl hframes).mono fun n (h : False) =>
    (h.elim : TransGen cx.arena.IsChild item.id n)
  cases hkind : item.node.kind with
  | function name kind params result body =>
    have hbody : ∀ n, cx.arena.Below body n → TransGen cx.arena.IsChild item.id n := fun n hn =>
      .head' ⟨_, hnode, by rw [hkind]; exact List.mem_singleton.mpr rfl⟩ hn
    cases h with
    | skip => exact hrefl
    | done _ h => exact (unaffected_of_body hkind hframes (attempt_of_ok h)).mono hbody
    | found _ h => exact (unaffected_of_body hkind hframes h).mono hbody
  | foreign name params result =>
    cases h with
    | skip => exact hrefl
    | done _ h =>
      simp only [Check.checkItem, hkind] at h
      cases h
      exact hrefl
    | found _ h =>
      simp only [Check.checkItem, hkind] at h
      cases h
  | _ => simp [NodeKind.definesFunction, hkind] at hfunction

theorem ItemStep.failed_eq (h : ItemStep cx item p q) : q.failed = p.failed := by
  cases h <;> rfl

/-- **Two functions are looked at in either order.** -/
theorem Swapped.exchange {x y : Item} (h : Swapped cx hbase k R p p')
    (hx : x.IsPlaced cx ∧ x.position = k ∧ x.node.kind.definesFunction = true)
    (hy : y.IsPlaced cx ∧ y.position = k + 1 ∧ y.node.kind.definesFunction = true)
    (hapart : ∀ n, cx.arena.Below x.id n → ¬ TransGen cx.arena.IsChild y.id n)
    (hapart' : ∀ n, cx.arena.Below y.id n → ¬ TransGen cx.arena.IsChild x.id n)
    (hstep : ItemStep cx x p p₁) (hstep₁ : ItemStep cx y p₁ q)
    (hstep' : ItemStep cx ⟨k, y.id, y.node⟩ p' p₁')
    (hstep₁' : ItemStep cx ⟨k + 1, x.id, x.node⟩ p₁' q') : ∃ R', Swapped cx hbase k R' q q' := by
  obtain ⟨⟨hnode, hfits⟩, hplace, hdef⟩ := hx
  obtain ⟨⟨hnode', hfits'⟩, hplace', hdef'⟩ := hy
  have hframes' := h.state.frames_eq_nil h.frames
  have hseen := hstep.unaffected_of_function hdef hnode h.frames
  have hseen₁ := hstep₁.unaffected_of_function hdef' hnode' hseen.frames
  have hseen' := hstep'.unaffected_of_function hdef' hnode' hframes'
  have hseen₁' := hstep₁'.unaffected_of_function hdef hnode hseen'.frames
  -- the first function starts from what the second one leaves in the other run
  have hstart := (h.state.without hapart).of_unaffected (.refl h.frames) hseen' (fun _ _ => id)
    fun _ => id
  obtain ⟨R₁, found, entries, hR₁, hs, hadds, hadds₁'⟩ := hstep.follows rfl hstart
    (hstep'.failed_eq ▸ h.failed x.id) (.refl _) hnode hfits hstep₁'
  have hs := hs.of_unaffected hseen₁ (.refl hseen₁'.frames) (fun _ => id) fun _ _ => id
  -- the second one starts from what the first one leaves, where the other run starts
  have hstart' := (h.state.without hapart').of_unaffected hseen (.refl hframes') (fun _ => id)
    fun _ _ => id
  obtain ⟨R₂, found', entries', hR₂, hs', hadds₁, hadds'⟩ := hstep₁.follows rfl hstart'
    (hstep.failed_eq ▸ h.failed y.id) (.refl _) hnode' hfits' hstep'
  have hs' := hs'.of_unaffected (.refl hseen₁.frames) hseen₁' (fun _ _ => id) fun _ => id
  -- both show in the last states
  have hleft := h.left.trans (hseen.table.trans hseen₁.table)
  have hright := h.right.trans (hseen'.table.trans hseen₁'.table)
  obtain ⟨R', hR', htables, hgreatest⟩ := TypeTable.Matches.exists_greatest hbase hleft hright
  have hs := hs.withTable (hgreatest R₁ (h.shared.trans hR₁) hs.table) htables
  have hs' := hs'.withTable (hgreatest R₂ (h.shared.trans hR₂) hs'.table) htables
  have hcover : ∀ n, ¬ TransGen cx.arena.IsChild y.id n ∨ ¬ TransGen cx.arena.IsChild x.id n :=
    fun n => or_iff_not_imp_left.mpr fun hn => hapart' n (not_not.mp hn).to_reflTransGen
  refine ⟨R', { hs with annotations := fun n _ => ?_, slots := fun n _ => ?_ }, hR', hleft, hright,
    hseen₁.frames, ?_, ?_, ?_⟩
  · exact (hcover n).elim (hs.annotations n) (hs'.annotations n)
  · exact (hcover n).elim (hs.slots n) (hs'.slots n)
  · rw [hadds₁.failed, hadds.failed, hadds₁'.failed, hadds'.failed]
    exact h.failed
  · rw [hadds₁.findings, hadds.findings, hadds₁'.findings, hadds'.findings, hplace, hplace']
    simp only [List.map_append, map_notes, Equiv.swap_apply_left, Equiv.swap_apply_right,
      List.append_assoc]
    exact h.findings.append List.perm_append_comm
  · rw [hadds₁.functions, hadds.functions, hadds₁'.functions, hadds'.functions, List.append_assoc,
      List.append_assoc]
    exact h.functions.append List.perm_append_comm

/-! ## Whole runs -/

theorem keeps_of_registerFunctions {defs : List (Nat × FunctionDef)}
    (h : p.registerFunctions cx defs = .ok q) : p.Keeps q := by
  induction defs generalizing p with
  | nil =>
    cases h
    exact ⟨List.Subset.refl _, List.Subset.refl _⟩
  | cons d defs ih =>
    obtain ⟨p₁, hfirst, h⟩ := except_bind_eq_ok.mp h
    have hkeeps := keeps_of_register hfirst
    exact ⟨List.Subset.trans hkeeps.failed (ih h).failed,
      List.Subset.trans hkeeps.findings (ih h).findings⟩

theorem keeps_of_checkItems (h : p.checkItems cx items = .ok q) : p.Keeps q := by
  refine checkItems_invariant (P := fun _ q => p.Keeps q)
    (fun seen item rest q q' _ hq hstep => ?_) ⟨List.Subset.refl _, List.Subset.refl _⟩ h
  cases hstep with
  | skip => exact hq
  | done => exact ⟨hq.failed, hq.findings⟩
  | found => exact ⟨hq.failed, List.subset_append_of_subset_left _ hq.findings⟩

theorem registerFunctions_append (p : Progress) (defs defs' : List (Nat × FunctionDef)) :
    p.registerFunctions cx (defs ++ defs') =
      p.registerFunctions cx defs >>= fun q => q.registerFunctions cx defs' := by
  induction defs generalizing p with
  | nil => rfl
  | cons d defs ih =>
    simp only [List.cons_append, Progress.registerFunctions, bind_assoc, ih]

/-- What an item defines does not depend on its place. -/
theorem exists_functionDef (h : item.node.kind.definesFunction = true) :
    ∃ d, d.node = item.id ∧ ∀ position,
      Item.functionDef? ⟨position, item.id, item.node⟩ = some (position, d) ∧
      Item.structDef? ⟨position, item.id, item.node⟩ = none := by
  obtain ⟨_, id, ⟨kind, span⟩⟩ := item
  cases kind with
  | function name kind params result body =>
    exact ⟨⟨id, span, name, some kind, params, result⟩, rfl, fun _ => ⟨rfl, rfl⟩⟩
  | foreign name params result =>
    exact ⟨⟨id, span, name, none, params, result⟩, rfl, fun _ => ⟨rfl, rfl⟩⟩
  | _ => cases h

variable {seen rest : List Item} {x y : Item} {table : TypeTable}

/-- Two functions that stand next to each other among the items of a program. -/
structure Neighbours (cx : Setting) (k : Nat) (seen : List Item) (x y : Item) (rest : List Item) :
    Prop where
  placed : ∀ item ∈ seen ++ x :: y :: rest, item.IsPlaced cx
  first : x.position = k ∧ x.node.kind.definesFunction = true
  second : y.position = k + 1 ∧ y.node.kind.definesFunction = true
  others : ∀ item ∈ seen ++ rest, item.position ≠ k ∧ item.position ≠ k + 1
  apart : ∀ n, cx.arena.Below x.id n → ¬ cx.arena.Below y.id n

/-- The two functions in the other order. -/
def exchanged (k : Nat) (seen : List Item) (x y : Item) (rest : List Item) : List Item :=
  seen ++ ⟨k, y.id, y.node⟩ :: ⟨k + 1, x.id, x.node⟩ :: rest

/-- **Items are registered in either order.** -/
theorem Neighbours.registered (h : Neighbours cx k seen x y rest) (hcanonical : table.Canonical)
    (hstart : Knows .known [] cx (State.start table cx.arena.size))
    (hq : registered cx (seen ++ x :: y :: rest) table = .ok q)
    (hq' : registered cx (exchanged k seen x y rest) table = .ok q')
    (hnew : ¬ q.Clashes k x.id ∧ ¬ q.Clashes (k + 1) y.id)
    (hnew' : ¬ q'.Clashes k y.id ∧ ¬ q'.Clashes (k + 1) x.id) :
    ∃ (base : TypeTable) (hbase : base.Canonical) (R : Renaming), Swapped cx hbase k R q q' := by
  obtain ⟨hx, hdx⟩ := h.first
  obtain ⟨hy, hdy⟩ := h.second
  obtain ⟨d, hd, hdef⟩ := exists_functionDef hdx
  obtain ⟨e, he, hdef'⟩ := exists_functionDef hdy
  have hx : x.functionDef? = some (k, d) ∧ x.structDef? = none := hx ▸ hdef x.position
  have hy : y.functionDef? = some (k + 1, e) ∧ y.structDef? = none := hy ▸ hdef' y.position
  -- the structs are registered as if the two functions were not there
  have hstructs : ∀ items, items.filterMap Item.structDef? =
      (seen ++ rest).filterMap Item.structDef? →
      structsRegistered cx items table = structsRegistered cx (seen ++ rest) table := by
    intro items hitems
    rw [structsRegistered, structsRegistered, hitems]
  rw [Check.registered, hstructs _ (by simp [hx.2, hy.2])] at hq
  rw [Check.registered, hstructs _ (by simp [exchanged, hdef, hdef'])] at hq'
  obtain ⟨p, hp, hq⟩ := except_bind_eq_ok.mp hq
  obtain ⟨_, hp', hq'⟩ := except_bind_eq_ok.mp hq'
  obtain rfl := Except.ok.inj (hp.symm.trans hp')
  simp only [exchanged, List.filterMap_append, List.filterMap_cons, hx.1, hy.1, (hdef _).1,
    (hdef' _).1, registerFunctions_append] at hq hq'
  -- the functions before the two are the same in both runs
  obtain ⟨p₀, hp₀, hq⟩ := except_bind_eq_ok.mp hq
  obtain ⟨_, hp₀', hq'⟩ := except_bind_eq_ok.mp hq'
  obtain rfl := Except.ok.inj (hp₀.symm.trans hp₀')
  have hsteps := (structsRegistered_steps hp).trans
    (registerFunctions_steps (fun d hd => by simp [hd]) hp₀)
  have hbase := hcanonical.grows (ready_of_steps hsteps).table
  have hplaces : ∀ f ∈ p₀.findings, f.1 ≠ k ∧ f.1 ≠ k + 1 := by
    intro f hf
    obtain ⟨item, hitem, hposition, -⟩ := failsAt_of_steps hsteps f hf
    exact hposition ▸ h.others item hitem
  obtain ⟨p₁, hfirst, hq⟩ := except_bind_eq_ok.mp hq
  obtain ⟨p₂, hsecond, hq⟩ := except_bind_eq_ok.mp hq
  obtain ⟨p₁', hfirst', hq'⟩ := except_bind_eq_ok.mp hq'
  obtain ⟨p₂', hsecond', hq'⟩ := except_bind_eq_ok.mp hq'
  have hkeeps := keeps_of_registerFunctions hq
  have hkeeps' := keeps_of_registerFunctions hq'
  have hnode : d.node ≠ e.node := fun heq =>
    h.apart x.id (.refl _) (hd ▸ heq ▸ he ▸ .refl _)
  rw [← hd, ← he] at hnew hnew'
  obtain ⟨R, hswapped⟩ := Swapped.of_registered (knows_of_steps hstart hsteps) hbase
    (frames_of_steps hsteps) hnode hplaces hfirst hsecond hfirst' hsecond'
    ⟨mt hkeeps.clashes hnew.1, mt hkeeps.clashes hnew.2⟩
    ⟨mt hkeeps'.clashes hnew'.1, mt hkeeps'.clashes hnew'.2⟩
  have hrest : ∀ d ∈ rest.filterMap Item.functionDef?, d.1 ≠ k ∧ d.1 ≠ k + 1 := by
    intro d hd
    obtain ⟨item, hitem, hposition, -⟩ := mem_functionDefs hd
    exact hposition ▸ h.others item (List.mem_append_right _ hitem)
  exact ⟨_, hbase, hswapped.registerFunctions hrest hq hq'⟩

/-- **Items are looked at in either order.** -/
theorem Neighbours.checkItems (h : Neighbours cx k seen x y rest) (hp : Swapped cx hbase k R p p')
    (hq : p.checkItems cx (seen ++ x :: y :: rest) = .ok q)
    (hq' : p'.checkItems cx (exchanged k seen x y rest) = .ok q') :
    ∃ R', Swapped cx hbase k R' q q' := by
  rw [exchanged, checkItems_append] at hq'
  rw [checkItems_append] at hq
  obtain ⟨p₀, hseen, hq⟩ := except_bind_eq_ok.mp hq
  obtain ⟨p₁, hfirst, hq⟩ := checkItems_cons_eq_ok hq
  obtain ⟨p₂, hsecond, hq⟩ := checkItems_cons_eq_ok hq
  obtain ⟨p₀', hseen', hq'⟩ := except_bind_eq_ok.mp hq'
  obtain ⟨p₁', hfirst', hq'⟩ := checkItems_cons_eq_ok hq'
  obtain ⟨p₂', hsecond', hq'⟩ := checkItems_cons_eq_ok hq'
  obtain ⟨R₀, hp₀⟩ := hp.checkItems (fun item hitem => h.others item (List.mem_append_left _ hitem))
    (fun item hitem => h.placed item (List.mem_append_left _ hitem)) hseen hseen'
  obtain ⟨R₂, hp₂⟩ := hp₀.exchange ⟨h.placed x (by simp), h.first⟩ ⟨h.placed y (by simp), h.second⟩
    (fun n hn hbelow => h.apart n hn hbelow.to_reflTransGen)
    (fun n hn hbelow => h.apart n hbelow.to_reflTransGen hn) hfirst hsecond hfirst' hsecond'
  exact hp₂.checkItems (fun item hitem => h.others item (List.mem_append_right _ hitem))
    (fun item hitem => h.placed item (by simp [hitem])) hq hq'

/-- **A run over items in either order.** -/
theorem Neighbours.run {ids ids' : List NodeId} (h : Neighbours cx k seen x y rest)
    (hcanonical : table.Canonical) (hbuiltin : cx.builtin.ClearIn .known table)
    (hfrom : itemsFrom cx.arena 0 ids = .ok (seen ++ x :: y :: rest))
    (hfrom' : itemsFrom cx.arena 0 ids' = .ok (exchanged k seen x y rest))
    (hrun : run cx ids table = .ok p) (hrun' : run cx ids' table = .ok p')
    (hnew : ¬ p.Clashes k x.id ∧ ¬ p.Clashes (k + 1) y.id)
    (hnew' : ¬ p'.Clashes k y.id ∧ ¬ p'.Clashes (k + 1) x.id) :
    ∃ (base : TypeTable) (hbase : base.Canonical) (R : Renaming), Swapped cx hbase k R p p' := by
  obtain ⟨_, q, hitems, hq, hp⟩ := run_eq_ok.mp hrun
  obtain ⟨_, q', hitems', hq', hp'⟩ := run_eq_ok.mp hrun'
  obtain rfl := Except.ok.inj (hitems.symm.trans hfrom)
  obtain rfl := Except.ok.inj (hitems'.symm.trans hfrom')
  have hkeeps := keeps_of_checkItems hp
  have hkeeps' := keeps_of_checkItems hp'
  have hnoValue : table.Known .noValue := TypeTable.known_of_form? hcanonical.noValue nofun nofun
  obtain ⟨base, hbase, R, hswapped⟩ := h.registered hcanonical (.start hbuiltin hnoValue _) hq hq'
    ⟨mt hkeeps.clashes hnew.1, mt hkeeps.clashes hnew.2⟩
    ⟨mt hkeeps'.clashes hnew'.1, mt hkeeps'.clashes hnew'.2⟩
  exact ⟨base, hbase, h.checkItems hswapped hp hp'⟩

end Check

end RuleTypes
