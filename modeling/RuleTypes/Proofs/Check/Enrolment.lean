import RuleTypes.Proofs.Check.Abreast
import RuleTypes.Proofs.TypeTable.Branches

/-!
# Registering functions in either order

Only two things that other functions do can show in the registration of a function: they add types
to the table, which does not change the signature up to its id, and they may be defined already
(`Receives`). So two functions neither of which is defined already are received alike in either
order, and the states after both orders are related (`Mirrored.of_received`).
-/

namespace RuleTypes.Check

open List (Forall₂)

variable {α : Type} {cx cx' : Setting} {M : Copy cx cx'} {R R' : Renaming} {s s' : State}
  {d e : FunctionDef} {signature a b : TypeId} {table t t' : TypeTable}
  {r r' : Except Finding TypeId}

/-! ## The registration of a function -/

/-- The function failed to be registered because it is defined already. -/
def Progress.Clashes (p : Progress) (position : Nat) (node : NodeId) : Prop :=
  node ∈ p.failed ∧ ∃ name span, (position, ⟨.redefinition name, span⟩) ∈ p.findings

variable {p p' : Progress} {position : Nat}

theorem receives_of_register (hframes : p.state.scope.frames = [])
    (h : p.register position d.node (registerFunction cx d) = .ok p') :
    p'.Clashes position d.node ∨
      ∃ r table, Receives cx d p.state r table ∧ p.state.table.Extends table ∧
        Received position d table p r p' := by
  obtain ⟨r, table, hextends, hreceived, rfl | hreceives⟩ := received_of_register hframes h
  · cases hreceived
    exact .inl ⟨List.mem_cons_self .., _, _, List.mem_append_right _ (List.mem_singleton.mpr rfl)⟩
  · exact .inr ⟨r, table, hreceives, hextends, hreceived⟩

/-! ## The same outcome -/

/-- The states have the same types under the same names. -/
structure SameTypes (R : Renaming) (s s' : State) : Prop where
  table : TypeTable.Matches R s.table s'.table
  names : NameMap.Related R.rel s.names s'.names

instance : RelatesTypes SameTypes :=
  ⟨SameTypes.table, SameTypes.names, fun h hR ht => ⟨ht, h.names.mono hR⟩⟩

/-- **What a registration comes to depends on the types and their names only**, unless the function
is defined already. -/
theorem Receives.sameOutcome (hs : SameTypes R s s') (h : Receives cx d s r t)
    (h' : Receives cx d s' r' t') :
    ∃ R', R ≤ R' ∧ TypeTable.Matches R' t t' ∧ SameOutcome R'.rel r r' := by
  have hagree := signatureOf_mirrors d R le_rfl s s' hs
  cases h with
  | accepted hsignature hflaw =>
    obtain ⟨R', b, _, hR, hok, hs', hab⟩ := (hsignature ▸ hagree).exists_ok
    cases h' with
    | accepted hsignature' =>
      cases hok.symm.trans hsignature'
      exact ⟨R', hR, hs'.table, .ok hab⟩
    | unclear hsignature' => cases hok.symm.trans hsignature'
    | flawed _ hflaw' => cases hflaw.symm.trans hflaw'
  | unclear hsignature =>
    obtain ⟨R', _, hR, herror, hs'⟩ := (hsignature ▸ hagree).exists_error
    cases h' with
    | accepted hsignature' | flawed hsignature' => cases herror.symm.trans hsignature'
    | unclear hsignature' =>
      cases herror.symm.trans hsignature'
      exact ⟨R', hR, hs'.table, .error _⟩
  | flawed hsignature hflaw =>
    obtain ⟨R', b, _, hR, hok, hs', -⟩ := (hsignature ▸ hagree).exists_ok
    cases h' with
    | accepted _ hflaw' => cases hflaw.symm.trans hflaw'
    | unclear hsignature' => cases hok.symm.trans hsignature'
    | flawed hsignature' hflaw' =>
      cases hok.symm.trans hsignature'
      obtain rfl := Option.some.inj (hflaw.symm.trans hflaw')
      exact ⟨R', hR, hs'.table, .error _⟩

/-! ## Two functions -/

/-- The state after the registration of a function, apart from the types. -/
def State.taking (s : State) (d : FunctionDef) : Except Finding TypeId → State
  | .ok signature => s.enrolled d signature
  | .error _ => s

theorem taking_with (s : State) (d : FunctionDef) (r : Except Finding TypeId) (table : TypeTable)
    (annotations : Annotations) : ({ s with table, annotations } : State).taking d r =
      { s.taking d r with table, annotations } := by
  cases r with
  | ok signature => exact enrolled_with s d signature table annotations
  | error => rfl

theorem Mirrored.taking (h : Mirrored M R s s') (hr : SameOutcome R.rel r r') :
    Mirrored M R (s.taking d r) (s'.taking d r') := by
  cases hr with
  | error => exact h
  | ok hab =>
    simp only [State.taking, State.enrolled]
    cases d.kind with
    | none => exact { h with scope := h.scope.withBinding d.name ⟨hab, rfl⟩ }
    | some kind =>
      have hone := Renaming.Shuffles.of_forall₂ (.cons hab .nil)
      cases kind with
      | normal => exact { h with scope := h.scope.withBinding d.name ⟨hab, rfl⟩ }
      | symbolic =>
        exact { h with
          operators := h.operators.insert d.name ((h.operators.getD .nil d.name).append hone) }
      | member =>
        exact { h with
          members := h.members.insert d.name ((h.members.getD .nil d.name).append hone) }

/-- The map with one more id under a name. -/
def appended (m : NameMap (List TypeId)) (name : String) (id : TypeId) : NameMap (List TypeId) :=
  m.insert name ((m.get? name).getD [] ++ [id])

/-- Ids under one name stand in the order they came in, and names do not mind each other. -/
theorem appended_comm (m : NameMap (List TypeId)) (name name' : String) (a b : TypeId) :
    NameMap.Related List.Perm (appended (appended m name a) name' b)
      (appended (appended m name' b) name a) := by
  intro other
  simp only [appended, NameMap.get?_insert]
  by_cases hname : other = name <;> by_cases hname' : other = name'
  · obtain rfl := hname
    obtain rfl := hname'
    simp only [if_true, Option.getD_some, List.append_assoc]
    exact .some (List.perm_append_comm.append_left _)
  · obtain rfl := hname
    simp only [if_true, if_neg hname', if_neg (Ne.symm hname')]
    exact .some (.refl _)
  · obtain rfl := hname'
    simp only [if_true, if_neg hname, if_neg (Ne.symm hname)]
    exact .some (.refl _)
  · simp only [if_neg hname, if_neg hname']
    cases m.get? other with
    | none => exact .none
    | some ids => exact .some (.refl ids)

theorem related_of_perm {x m m' : NameMap (List TypeId)} (h : NameMap.Related R.Shuffles x m)
    (hperm : NameMap.Related List.Perm m m') : NameMap.Related R.Shuffles x m' := by
  intro name
  have hname := h name
  rcases optionRel_cases (hperm name) with ⟨hm, hm'⟩ | ⟨ids, ids', hm, hm', hids⟩
  · rw [hm]  at hname
    rwa [hm']
  · rw [hm] at hname
    rw [hm']
    rcases optionRel_cases hname with ⟨-, hnone⟩ | ⟨_, _, hx, hy, hshuffles⟩
    · cases hnone
    · obtain rfl := Option.some.inj hy
      rw [hx]
      exact .some (hshuffles.perm hids)

theorem enrolled_eq (s : State) (d : FunctionDef) (signature : TypeId) :
    s.enrolled d signature = { s with
      scope := if d.isGlobal then s.scope.withBinding d.name (d.binding signature) else s.scope
      operators :=
        if d.kind = some .symbolic then appended s.operators d.name signature else s.operators
      members :=
        if d.kind = some .member then appended s.members d.name signature else s.members } := by
  unfold State.enrolled FunctionDef.isGlobal
  cases d.kind with
  | none => rfl
  | some kind => cases kind <;> rfl

theorem renames_withBinding_comm {sc sc' : Scope} (hframes : sc'.frames = [])
    {name name' : String} (hne : name ≠ name') {x y : Binding}
    (h : sc.Renames R ((sc'.withBinding name x).withBinding name' y)) :
    sc.Renames R ((sc'.withBinding name' y).withBinding name x) := by
  obtain ⟨frames, globals⟩ := sc'
  obtain rfl : frames = [] := hframes
  refine ⟨h.frames, fun other => ?_⟩
  have hother := h.globals other
  simp only [Scope.withBinding, NameMap.get?_insert] at hother ⊢
  by_cases hname : other = name
  · have hname' : other ≠ name' := fun heq => hne (hname.symm.trans heq)
    rw [if_neg hname', if_pos hname] at hother
    rwa [if_pos hname]
  · rwa [if_neg hname] at hother ⊢

/-- Steps that are taken or not can be taken in either order if both can. -/
theorem ite_comm {P : α → Prop} {p q : Prop} [Decidable p] [Decidable q] {f g : α → α} {x : α}
    (hfg : p → q → P (g (f x)) → P (f (g x)))
    (h : P (if q then g (if p then f x else x) else if p then f x else x)) :
    P (if p then f (if q then g x else x) else if q then g x else x) := by
  by_cases hp : p <;> by_cases hq : q <;> simp only [hp, hq, if_true, if_false] at h ⊢
  · exact hfg hp hq h
  all_goals exact h

/-- Functions that do not bind the same name can be entered in either order. -/
theorem Mirrored.taking_comm (hframes : s'.scope.frames = [])
    (hne : ∀ a b, r = .ok a → r' = .ok b → d.isGlobal = true → e.isGlobal = true →
      d.name ≠ e.name)
    (h : Mirrored M R s ((s'.taking d r).taking e r')) :
    Mirrored M R s ((s'.taking e r').taking d r) := by
  cases r with
  | error => exact h
  | ok a =>
    cases r' with
    | error => exact h
    | ok b =>
      simp only [State.taking, enrolled_eq] at h ⊢
      exact { h with
        scope := ite_comm (P := s.scope.Renames R)
          (f := fun scope => scope.withBinding d.name (d.binding a))
          (g := fun scope => scope.withBinding e.name (e.binding b))
          (fun hd he => renames_withBinding_comm hframes (hne a b rfl rfl hd he)) h.scope
        operators := ite_comm (P := NameMap.Related R.Shuffles s.operators)
          (f := fun m => appended m d.name a) (g := fun m => appended m e.name b)
          (fun _ _ hm => related_of_perm hm (appended_comm _ _ _ _ _)) h.operators
        members := ite_comm (P := NameMap.Related R.Shuffles s.members)
          (f := fun m => appended m d.name a) (g := fun m => appended m e.name b)
          (fun _ _ hm => related_of_perm hm (appended_comm _ _ _ _ _)) h.members }

/-- A state is related to itself by the ids of its table. -/
theorem Mirrored.self (hs : Knows .known [] cx s) (hbase : s.table.Canonical)
    (hframes : s.scope.frames = []) : Mirrored (.same rfl rfl : Copy cx cx) hbase.same s s where
  table := hbase.matches_same
  builtin := by
    refine ⟨⟨rfl, hs.builtin.number.issued⟩, ⟨rfl, hs.builtin.string.issued⟩,
      ⟨rfl, hs.builtin.truth.issued⟩, fun symbol => ?_⟩
    cases hsymbol : cx.builtin.overloads.get? symbol with
    | none => exact .none
    | some ids =>
      refine .some (List.forall₂_same.mpr fun id hid => ⟨rfl, ?_⟩)
      refine (hs.builtin.candidates symbol id ?_).issued
      simpa [Operators.candidates, hsymbol] using hid
  scope := by
    refine ⟨by rw [hframes]; exact .nil, fun name => ?_⟩
    cases hname : s.scope.globals.get? name with
    | none => exact .none
    | some binding => exact .some ⟨⟨rfl, (hs.bound binding (.inr ⟨name, hname⟩)).issued⟩, rfl⟩
  names name := by
    cases hname : s.names.get? name with
    | none => exact .none
    | some id => exact .some ⟨rfl, (hs.sources.named name id hname).issued⟩
  operators symbol := by
    cases hsymbol : s.operators.get? symbol with
    | none => exact .none
    | some ids =>
      refine .some (.of_forall₂ (List.forall₂_same.mpr fun id hid => ⟨rfl, ?_⟩))
      exact (hs.operators symbol id (by simpa [hsymbol] using hid)).issued
  members name := by
    cases hname : s.members.get? name with
    | none => exact .none
    | some ids =>
      refine .some (.of_forall₂ (List.forall₂_same.mpr fun id hid => ⟨rfl, ?_⟩))
      exact (hs.members name id (by simpa [hname] using hid)).issued
  annotations n _ := by
    change Option.Rel hbase.same.rel (s.annotations.get? n) (s.annotations.get? n)
    cases hn : s.annotations.get? n with
    | none => exact .none
    | some type =>
      obtain htype | ⟨rfl, -⟩ := hs.annotated n type hn List.not_mem_nil
      · exact .some ⟨rfl, htype.issued⟩
      · exact .some hbase.same.auto
  slots _ _ hlt := hlt

variable {p₁ p₂ p₁' p₂' : Progress} {i i' j j' : Nat} {t₁ t₂ t₁' t₂' : TypeTable}
  {rd re rd' re' : Except Finding TypeId}

/-- What the registration of a function leaves in the state. -/
theorem Received.state (h : Received position d table p r p') : ∃ annotations,
    p'.state = ({ p.state with table, annotations } : State).taking d r ∧
      annotations.size = p.state.annotations.size ∧
      ∀ n, annotations.get? n =
        (if n = d.node then r.toOption else none).or (p.state.annotations.get? n) := by
  cases h with
  | @accepted signature annotations hset =>
    refine ⟨annotations, (enrolled_with p.state d signature table annotations).symm, ?_, ?_⟩
    · exact (Annotations.Grows.of_set (N := fun _ => True) trivial hset).size_eq
    · intro n
      rw [Annotations.get?_of_set hset]
      split <;> rfl
  | refused finding =>
    refine ⟨p.state.annotations, rfl, rfl, fun n => ?_⟩
    split <;> rfl

theorem Received.state₂ (h : Received i d t₁ p rd p₁) (h' : Received j e t₂ p₁ re p₂) :
    ∃ annotations, p₂.state =
        (({ p.state with table := t₂, annotations } : State).taking d rd).taking e re ∧
      annotations.size = p.state.annotations.size ∧
      ∀ n, annotations.get? n = (if n = e.node then re.toOption else none).or
        ((if n = d.node then rd.toOption else none).or (p.state.annotations.get? n)) := by
  obtain ⟨a₁, hstate, hsize, hget⟩ := h.state
  obtain ⟨a₂, hstate', hsize', hget'⟩ := h'.state
  have hannotations : p₁.state.annotations = a₁ := by rw [hstate, taking_with]
  have hboth : ({ p₁.state with table := t₂, annotations := a₂ } : State) =
      ({ p.state with table := t₂, annotations := a₂ } : State).taking d rd := by
    rw [hstate, taking_with p.state d rd t₁ a₁, taking_with p.state d rd t₂ a₂]
  rw [hannotations] at hsize' hget'
  refine ⟨a₂, by rw [hstate', hboth], hsize'.trans hsize, fun n => ?_⟩
  rw [hget', hget]

theorem SameOutcome.toOption {β : Type} {rel : α → β → Prop} {x : Except Finding α}
    {y : Except Finding β} (h : SameOutcome rel x y) : Option.Rel rel x.toOption y.toOption := by
  cases h with
  | ok hab => exact .some hab
  | error => exact .none

/-- **Two functions are registered in either order.** If both come to the same in both orders, the
states are related afterwards. -/
theorem Mirrored.of_received (hs : Knows .known [] cx p.state) (hbase : p.state.table.Canonical)
    (hframes : p.state.scope.frames = []) (hnode : d.node ≠ e.node)
    (h₁ : Received i d t₁ p rd p₁) (h₂ : Received j e t₂ p₁ re p₂)
    (h₁' : Received i' e t₁' p re' p₁') (h₂' : Received j' d t₂' p₁' rd' p₂')
    (htable : TypeTable.Matches R t₂ t₂') (hR : hbase.same ≤ R)
    (hd : SameOutcome R.rel rd rd') (he : SameOutcome R.rel re re')
    (hne : ∀ a b, rd' = .ok a → re' = .ok b → d.isGlobal = true → e.isGlobal = true →
      d.name ≠ e.name) :
    Mirrored (.same rfl rfl : Copy cx cx) R p₂.state p₂'.state := by
  obtain ⟨a, hstate, hsize, hget⟩ := h₁.state₂ h₂
  obtain ⟨a', hstate', hsize', hget'⟩ := h₁'.state₂ h₂'
  have hself := (Mirrored.self hs hbase hframes).withTable hR htable
  have hstart : Mirrored (.same rfl rfl : Copy cx cx) R
      { p.state with table := t₂, annotations := a }
      { p.state with table := t₂', annotations := a' } := by
    refine { hself with annotations := fun n hn => ?_, slots := fun n hn hlt => ?_ }
    · change Option.Rel R.rel (a.get? n) (a'.get? n)
      rw [hget, hget']
      have hold : Option.Rel R.rel (p.state.annotations.get? n) (p.state.annotations.get? n) :=
        hself.annotations n hn
      by_cases hn : n = d.node
      · have hne : n ≠ e.node := fun heq => hnode (hn.symm.trans heq)
        simp only [if_neg hne, if_pos hn, Option.none_or]
        exact optionRel_or hd.toOption hold
      · simp only [if_neg hn, Option.none_or]
        refine optionRel_or ?_ hold
        split
        · exact he.toOption
        · exact .none
    · change n.index < a'.size
      rw [hsize', ← hsize]
      exact hlt
  rw [hstate, hstate']
  exact ((hstart.taking hd).taking he).taking_comm hframes hne

end RuleTypes.Check
