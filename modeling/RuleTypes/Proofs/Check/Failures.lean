import RuleTypes.Proofs.Check.Registered
import RuleTypes.Proofs.TypeExpr.Meaning

/-!
# How steps of a check fail

A step of a check ends in a finding or meets a fault. This module says of the operations that rules
are written with what keeps them from faults, and that a registration step without a fault lets the
check go on (`register_of_safe`), whether it ended in a finding or not.
-/

namespace RuleTypes

namespace Check

open TypeExpr

variable {α ε : Type} {cx : Setting} {s s' : State} {span : Span}

/-! ## Operations -/

theorem require_safe (holds : Bool) (problem : Problem) (span : Span) :
    Safe (require holds (pure problem) span) s := by
  unfold require
  cases holds with
  | true => exact .pure _
  | false => exact .throw _

theorem require_of_false (problem : Problem) (span : Span) (s : State) :
    require false (pure problem) span s = .error (.error ⟨problem, span⟩) s := rfl

theorem inspect_safe {f : State → Except Fault α} {a : α} (h : f s = .ok a) :
    Safe (inspect f) s := .of_ok (inspect_eq_ok.mpr ⟨h, rfl⟩)

/-- What an operation on the table is refused for has to be a problem of the code. -/
theorem onTable_safe {problemOf : ε → Except Fault Problem} {x : TableM ε α}
    (hx : Safe x s.table)
    (hrefuses : Refuses (fun cause => ∃ problem, problemOf cause = .ok problem) x s.table) :
    Safe (onTable problemOf span x) s := by
  intro e s₁ he
  unfold onTable at he
  obtain ⟨a, table, hok⟩ | ⟨cause, table, herror⟩ := hx.ends
  · simp [hok] at he
  · obtain ⟨problem, hproblem⟩ := hrefuses cause table herror
    simp [herror, hproblem] at he

/-- A finding of an operation on the table is an error of the operation, and leaves everything else
alone. -/
theorem onTable_eq_finding {problemOf : ε → Except Fault Problem} {x : TableM ε α}
    {finding : Finding} (h : onTable problemOf span x s = .error (.error finding) s') :
    ∃ cause table, x s.table = .error (.error cause) table ∧ s' = { s with table } := by
  unfold onTable at h
  cases hx : x s.table with
  | ok a table => simp [hx] at h
  | error e table =>
    cases e with
    | fault cause => simp [hx] at h
    | error cause =>
      simp only [hx] at h
      cases hproblem : problemOf cause with
      | error fault => simp [hproblem] at h
      | ok problem =>
        simp only [hproblem, EStateM.Result.error.injEq] at h
        exact ⟨cause, table, rfl, h.2.symm⟩

theorem onTable_bind {β : Type} {problemOf : ε → Except Fault Problem} {x : TableM ε α}
    {f : α → TableM ε β} : onTable problemOf span (x >>= f) s =
      (onTable problemOf span x >>= fun a => onTable problemOf span (f a)) s := by
  change onTable problemOf span (EStateM.bind x f) s = EStateM.bind _ _ s
  unfold onTable EStateM.bind
  dsimp only
  cases x s.table with
  | ok a table => rfl
  | error e table =>
    cases e with
    | fault cause => rfl
    | error cause =>
      dsimp only
      cases problemOf cause <;> rfl

/-! ## Written types -/

/-- Fields are resolved one after another, and the names stay what they are. -/
theorem resolveFields_eq (span : Span) (fields : List (String × TypeExpr)) (s : State) :
    resolveFields span fields s =
      onTable Problem.ofLoad span (TypeExpr.resolveFields s.names fields) s := by
  induction fields generalizing s with
  | nil =>
    rw [TypeExpr.resolveFields]
    rfl
  | cons field fields ih =>
    obtain ⟨name, type⟩ := field
    rw [TypeExpr.resolveFields, onTable_bind]
    refine bind_congr_at rfl fun id s₁ hfirst => ?_
    obtain ⟨table, -, rfl⟩ := resolveConcrete_eq_ok.mp hfirst
    rw [onTable_bind]
    exact bind_congr_at (ih { s with table }) fun _ _ _ => rfl

theorem resolveFields_eq_ok {fields : List (String × TypeExpr)} {ids : List (String × TypeId)} :
    resolveFields span fields s = .ok ids s' ↔
      ∃ table, TypeExpr.resolveFields s.names fields s.table = .ok ids table ∧
        s' = { s with table } := by
  rw [resolveFields_eq]
  exact onTable_eq_ok

theorem resolveParams_eq (span : Span) (params : List (String × TypeExpr)) (s : State) :
    resolveParams span params s =
      onTable Problem.ofLoad span (TypeExpr.resolveAll s.names (params.map (·.2))) s := by
  induction params generalizing s with
  | nil =>
    rw [List.map_nil, TypeExpr.resolveAll]
    rfl
  | cons param params ih =>
    obtain ⟨name, type⟩ := param
    rw [List.map_cons, TypeExpr.resolveAll, onTable_bind]
    refine bind_congr_at rfl fun id s₁ hfirst => ?_
    obtain ⟨table, -, rfl⟩ := resolveConcrete_eq_ok.mp hfirst
    rw [onTable_bind]
    exact bind_congr_at (ih { s with table }) fun _ _ _ => rfl

theorem resolveConcrete_safe (h : Grounded s.names s.table) (type : TypeExpr) (span : Span) :
    Safe (resolveConcrete type span) s :=
  onTable_safe (TypeExpr.resolveConcrete_safe type h)
    ((TypeExpr.resolveConcrete_refuses type).mono fun _ hrefused => hrefused.1)

theorem resolveParams_safe (h : Grounded s.names s.table) (span : Span)
    (params : List (String × TypeExpr)) : Safe (resolveParams span params) s :=
  .congr (resolveParams_eq span params s) <| onTable_safe (TypeExpr.resolveAll_safe _ h)
    ((TypeExpr.resolveAll_refuses _).mono fun _ ⟨_, _, hrefused⟩ => hrefused.1)

theorem signatureOf_safe (h : Grounded s.names s.table) (d : FunctionDef) :
    Safe (signatureOf d) s := by
  refine .bind (resolveParams_safe h _ _) fun params s₁ hparams => ?_
  rw [resolveParams_eq] at hparams
  obtain ⟨table, hresolve, rfl⟩ := onTable_eq_ok.mp hparams
  have hground := h.resolveAll hresolve
  have hissued := hground.issuedAll (resolveAll_means _ hresolve).1
  have hintern : ∀ {result : TypeId} {table' : TypeTable}, table.Extends table' →
      result.index < table'.size → Safe (onTable Problem.ofTable d.span
        (TypeTable.internFunction params result)) { s with table := table' } := by
    intro result table' hextends hresult
    refine onTable_safe (TypeTable.internFunction_safe (fun param hparam => ?_) hresult)
      (TypeTable.internFunction_refuses _ _)
    exact Nat.lt_of_lt_of_le (hissued param hparam) hextends.size_le
  cases d.result with
  | none =>
    refine .bind (.pure _) fun result s₂ hpure => ?_
    obtain ⟨rfl, rfl⟩ := pure_eq_ok.mp hpure
    exact hintern (.refl _) hground.noValue
  | some written =>
    refine .bind (resolveConcrete_safe hground written _) fun result s₂ hwritten => ?_
    obtain ⟨table', hresolve', rfl⟩ := resolveConcrete_eq_ok.mp hwritten
    have hground' := hground.resolveConcrete hresolve'
    exact hintern ((resolveConcrete_moves _ _).ok hresolve')
      (hground'.issued (resolveConcrete_means _ hresolve').1)

/-! ## Registering functions -/

/-- What registering a function relies on: types can be resolved, and the member functions have
signatures. -/
structure Registrable (s : State) : Prop where
  grounded : Grounded s.names s.table
  members : ∀ name, ∀ id ∈ (s.members.get? name).getD [], id.index < s.table.size

theorem Registrable.extends (h : Registrable s) {table : TypeTable}
    (hextends : s.table.Extends table) : Registrable { s with table } where
  grounded := h.grounded.extends hextends
  members name id hid := Nat.lt_of_lt_of_le (h.members name id hid) hextends.size_le

/-- The names of structs and their types stay, and functions can still be registered afterwards. -/
structure Prepares (s s' : State) : Prop where
  names : s'.names = s.names
  table : s.table.Extends s'.table
  registrable : Registrable s → Registrable s'

instance : IsPreorder State Prepares where
  refl s := ⟨rfl, .refl s.table, id⟩
  trans _ _ _ h h' :=
    ⟨h'.names.trans h.names, h.table.trans h'.table, h'.registrable ∘ h.registrable⟩

theorem registerFunction_prepares (d : FunctionDef) :
    Moves Prepares (registerFunction cx d) := fun s => by
  have hsignature : Moves Prepares (signatureOf d) :=
    (signatureOf_extended d).mono fun s s' ⟨table, hextends, heq⟩ =>
      heq ▸ ⟨rfl, hextends, fun h => h.extends hextends⟩
  refine registerFunction_at (hsignature s) fun signature s₁ hok => ?_
  obtain ⟨params, result, hform⟩ := form?_of_signatureOf hok
  refine ⟨fun kind => ?_, ⟨rfl, .refl _, fun hs => ⟨hs.grounded, hs.members⟩⟩,
    ⟨rfl, .refl _, fun hs => ⟨hs.grounded, fun name id hid => ?_⟩⟩,
    fun s₂ _ => update_at fun s₃ h => ?_⟩
  · unfold bindName
    cases s₁.scope.bind d.name ⟨signature, kind, d.span⟩ <;>
      exact ⟨rfl, .refl _, fun hs => ⟨hs.grounded, hs.members⟩⟩
  · obtain rfl | hid := mem_getD_insert hid
    · exact TypeTable.form?_eq_some_lt hform
    · exact hs.members name id hid
  · obtain ⟨annotations, -, rfl⟩ := annotate_eq_ok.mp (update_eq_ok (u := ()).mpr h)
    exact ⟨rfl, .refl _, fun hs => ⟨hs.grounded, hs.members⟩⟩

theorem prepares_of_attempt {x : Check α} (hx : Moves Prepares x) {r : Except Finding α}
    (h : attempt x s = .ok (r, s')) : Prepares s s' := by
  obtain ⟨a, -, hok⟩ | ⟨finding, s₁, annotations, -, herror, -, rfl⟩ := attempt_eq_ok h
  · exact hx.ok hok
  · have hprepares := hx.error herror
    exact ⟨hprepares.names, hprepares.table, fun hs =>
      ⟨(hprepares.registrable hs).grounded, (hprepares.registrable hs).members⟩⟩

theorem annotate_safe {node : NodeId} {type : TypeId} (hslot : s.annotations.get? node = none)
    (hrange : node.index < s.annotations.size) : Safe (annotate node type) s :=
  .of_ok (annotate_eq_ok (u := ()).mpr
    ⟨_, Annotations.set_eq_ok.mpr ⟨hrange, .inl ⟨hslot, rfl⟩⟩, rfl⟩)

theorem bindName_safe {name : String} {type : TypeId} {kind : BindingKind} :
    Safe (bindName name type kind span) s := by
  cases hbind : s.scope.bind name ⟨type, kind, span⟩ with
  | ok scope => exact .of_ok (bindName_eq_ok (u := ()).mpr ⟨scope, hbind, rfl⟩)
  | error existing =>
    have herror : bindName name type kind span s =
        .error (.error ⟨.redefinition name, span⟩) s := by
      unfold bindName
      rw [hbind]
    exact .of_error herror

theorem registerOperator_safe {symbol : String} {arity : Nat} {signature : TypeId} :
    Safe (registerOperator cx symbol arity signature span) s :=
  .bind (require_safe _ _ _) fun _ _ _ =>
    .bind (require_safe _ _ _) fun _ _ _ => .bind .get fun _ _ _ =>
    .bind (require_safe _ _ _) fun _ _ _ => .of_ok rfl

theorem registerMember_safe (h : Registrable s) {name : String} {arity : Nat} {signature : TypeId}
    (hsignature : signature.index < s.table.size) :
    Safe (registerMember name arity signature span) s := by
  refine .bind (require_safe _ _ _) fun _ s₁ hrequire => ?_
  obtain ⟨-, rfl⟩ := require_eq_ok.mp hrequire
  refine .bind .get fun _ s₁ hget => ?_
  obtain ⟨rfl, rfl⟩ := get_eq_ok.mp hget
  obtain ⟨form, hform⟩ := TypeTable.exists_form?_of_lt hsignature
  refine .bind (.of_ok (formOf_eq_ok.mpr ⟨hform, rfl⟩)) fun _ s₁ hread => ?_
  obtain ⟨-, rfl⟩ := formOf_eq_ok.mp hread
  obtain ⟨others, hothers⟩ : ∃ others,
      ((s.members.get? name).getD []).mapM s.table.form = .ok others := by
    refine except_mapM_ok fun id hid => ?_
    obtain ⟨form, hform⟩ := TypeTable.exists_form?_of_lt (h.members name id hid)
    exact ⟨form, TypeTable.form_eq_ok.mpr hform⟩
  exact .bind (inspect_safe hothers) fun _ _ _ =>
    .bind (require_safe _ _ _) fun _ _ _ => .of_ok rfl

theorem registerFunction_safe (h : Registrable s) {d : FunctionDef}
    (hslot : s.annotations.get? d.node = none) (hrange : d.node.index < s.annotations.size) :
    Safe (registerFunction cx d) s := by
  refine .bind (signatureOf_safe h.grounded d) fun signature s₁ hsignature => ?_
  obtain ⟨params, result, hform⟩ := form?_of_signatureOf hsignature
  obtain ⟨table, hextends, rfl⟩ := (signatureOf_extended d).ok hsignature
  have hbind : ∀ kind, Safe (do
      bindName d.name signature kind d.span
      annotate d.node signature) { s with table } := fun kind =>
    .bind bindName_safe fun _ s₂ hbound => by
      obtain ⟨scope, -, rfl⟩ := bindName_eq_ok.mp hbound
      exact annotate_safe hslot hrange
  cases d.kind with
  | none => exact hbind .foreign
  | some kind =>
    cases kind with
    | normal => exact hbind .function
    | symbolic =>
      refine .bind registerOperator_safe fun _ s₂ hregistered => ?_
      obtain ⟨-, rfl⟩ := registerOperator_eq_ok hregistered
      exact annotate_safe hslot hrange
    | member =>
      refine .bind (registerMember_safe (h.extends hextends) (TypeTable.form?_eq_some_lt hform))
        fun _ s₂ hregistered => ?_
      obtain ⟨-, rfl⟩ := registerMember_eq_ok hregistered
      exact annotate_safe hslot hrange

/-! ## Items -/

/-- A step without a fault comes to an end, whether it has to be undone or not. -/
theorem attempt_of_safe {N : NodeId → Prop} {x : Check α} (hx : Moves (Enters N) x)
    (h : Safe x s) : ∃ r s', attempt x s = .ok (r, s') := by
  unfold attempt
  obtain ⟨a, s₁, hok⟩ | ⟨finding, s₁, herror⟩ := h.ends
  · exact ⟨.ok a, s₁, by rw [hok]⟩
  · obtain ⟨annotations, hback, -⟩ := (hx.error herror).annotations.rollback
    refine ⟨.error finding, { s₁ with annotations, scope := s₁.scope.unwind }, ?_⟩
    simp [herror, hback, bind, Except.bind, pure, Except.pure]

theorem register_of_safe {N : NodeId → Prop} {x : Check Unit} {p : Progress}
    (hx : Moves (Enters N) x) (h : Safe x p.state) (position : Nat) (node : NodeId) :
    ∃ p', p.register position node x = .ok p' := by
  obtain ⟨r, s₁, hattempt⟩ := attempt_of_safe hx h
  unfold Progress.register
  rw [hattempt]
  cases r <;> exact ⟨_, rfl⟩

/-- What comes about when functions are registered. -/
structure FunctionsEntered (defs : List (Nat × FunctionDef)) (p p' : Progress) : Prop where
  state : Prepares p.state p'.state
  size : p'.state.annotations.size = p.state.annotations.size
  outside : ∀ id, (∀ d ∈ defs, d.2.node ≠ id) →
    p'.state.annotations.get? id = p.state.annotations.get? id
  findings : ∃ more, p'.findings = p.findings ++ more ∧ ∀ f ∈ more, ∃ d ∈ defs, d.1 = f.1

theorem functionsEntered_of_register {p p' : Progress} {position : Nat} {d : FunctionDef}
    (h : p.register position d.node (registerFunction cx d) = .ok p') :
    FunctionsEntered [(position, d)] p p' := by
  obtain ⟨r, state, hattempt, hresult⟩ := register_eq_ok h
  have hprepares := prepares_of_attempt (registerFunction_prepares d) hattempt
  obtain ⟨hsize, houtside⟩ := attempt_outside (registerFunction_enters d) hattempt
  have hkept : ∀ id, (∀ e ∈ [(position, d)], e.2.node ≠ id) →
      state.annotations.get? id = p.state.annotations.get? id := fun id hid =>
    houtside id fun heq => hid _ (List.mem_singleton.mpr rfl) heq.symm
  obtain ⟨-, rfl⟩ | ⟨finding, -, rfl⟩ := hresult
  · exact ⟨hprepares, hsize, hkept, [], (List.append_nil _).symm, nofun⟩
  · exact ⟨hprepares, hsize, hkept, [_], rfl, fun f hf =>
      ⟨_, List.mem_singleton.mpr rfl, congrArg Prod.fst (List.mem_singleton.mp hf).symm⟩⟩

theorem FunctionsEntered.cons {first : Nat × FunctionDef} {defs : List (Nat × FunctionDef)}
    {p p₁ p' : Progress} (h : FunctionsEntered [first] p p₁) (h' : FunctionsEntered defs p₁ p') :
    FunctionsEntered (first :: defs) p p' where
  state := trans_of Prepares h.state h'.state
  size := h'.size.trans h.size
  outside id hid := by
    obtain ⟨hfirst, hdefs⟩ := List.forall_mem_cons.mp hid
    exact (h'.outside id hdefs).trans (h.outside id (by simpa using hfirst))
  findings := by
    obtain ⟨more, hmore, hplaces⟩ := h.findings
    obtain ⟨more', hmore', hplaces'⟩ := h'.findings
    refine ⟨more ++ more', by rw [hmore', hmore, List.append_assoc], fun f hf => ?_⟩
    obtain hf | hf := List.mem_append.mp hf
    · obtain ⟨d, hd, heq⟩ := hplaces f hf
      exact ⟨d, List.mem_cons.mpr (.inl (List.mem_singleton.mp hd)), heq⟩
    · obtain ⟨d, hd, heq⟩ := hplaces' f hf
      exact ⟨d, List.mem_cons_of_mem _ hd, heq⟩

theorem functionsEntered_of_ok {defs : List (Nat × FunctionDef)} {p p' : Progress}
    (h : p.registerFunctions cx defs = .ok p') : FunctionsEntered defs p p' := by
  induction defs generalizing p with
  | nil =>
    cases h
    exact ⟨refl_of Prepares _, rfl, fun _ _ => rfl, [], (List.append_nil _).symm, nofun⟩
  | cons first defs ih =>
    obtain ⟨p₁, hfirst, h⟩ := except_bind_eq_ok.mp h
    exact (functionsEntered_of_register hfirst).cons (ih h)

/-- **Registering functions comes to an end** if they have nodes of their own. -/
theorem registerFunctions_ends (cx : Setting) {defs : List (Nat × FunctionDef)} {p : Progress}
    (hp : Registrable p.state) (hnodup : (defs.map (·.2.node)).Nodup)
    (hfree : ∀ d ∈ defs, p.state.annotations.get? d.2.node = none ∧
      d.2.node.index < p.state.annotations.size) :
    ∃ p', p.registerFunctions cx defs = .ok p' := by
  induction defs generalizing p with
  | nil => exact ⟨p, rfl⟩
  | cons first defs ih =>
    obtain ⟨position, d⟩ := first
    obtain ⟨⟨hslot, hrange⟩, hrest⟩ := List.forall_mem_cons.mp hfree
    rw [List.map_cons, List.nodup_cons] at hnodup
    have hsafe : Safe (registerFunction cx d) p.state := registerFunction_safe hp hslot hrange
    obtain ⟨p₁, hfirst⟩ := register_of_safe (registerFunction_enters d) hsafe position d.node
    have hentered := functionsEntered_of_register hfirst
    obtain ⟨p', hok⟩ := ih (hentered.state.registrable hp) hnodup.2 fun e he => by
      have hne : d.node ≠ e.2.node := fun heq => hnodup.1 (heq ▸ List.mem_map_of_mem he)
      rw [hentered.outside e.2.node (by simpa using hne), hentered.size]
      exact hrest e he
    exact ⟨p', except_bind_eq_ok.mpr ⟨p₁, hfirst, hok⟩⟩

end Check

end RuleTypes
