import RuleTypes.Check.Basic
import RuleTypes.Proofs.Annotations
import RuleTypes.Proofs.TypeTable.Growth

/-!
# Steps of a check

Each operation of the checker that a rule is written with has two lemmas here. One opens it when
it answers (`*_eq_ok`). The other says that however it ends, it went on from the state it found
(`Later N`): the table was extended, only nodes in `N` got types, and what was registered stayed.
Scopes are left out of this; they come and go.
-/

namespace RuleTypes.Check

variable {α ε : Type} {cx : Setting} {s s' s'' : State} {N : NodeId → Prop}

/-! ## Steps that answer -/

theorem report_eq_ok {problem : Problem} {span : Span} {a : α} :
    report problem span s = .ok a s' ↔ False := throw_eq_ok

theorem require_eq_ok {holds : Bool} {problem : Check Problem} {span : Span} {u : Unit} :
    require holds problem span s = .ok u s' ↔ holds = true ∧ s = s' := by
  unfold require
  cases holds with
  | true => simp [pure_eq_ok]
  | false => simp [bind_eq_ok, report_eq_ok]

theorem inspect_eq_ok {f : State → Except Fault α} {a : α} :
    inspect f s = .ok a s' ↔ f s = .ok a ∧ s = s' := by
  unfold inspect
  cases f s <;> simp

theorem update_eq_ok {f : State → Except Fault State} {u : Unit} :
    update f s = .ok u s' ↔ f s = .ok s' := by
  unfold update
  cases f s <;> simp

theorem update_eq_error {f : State → Except Fault State} {e : Failure Finding} :
    update f s = .error e s' ↔ ∃ cause, f s = .error cause ∧ .fault cause = e ∧ s = s' := by
  unfold update
  cases f s <;> simp

theorem onTable_eq_ok {problemOf : ε → Except Fault Problem} {span : Span} {x : TableM ε α}
    {a : α} : onTable problemOf span x s = .ok a s' ↔
      ∃ table, x s.table = .ok a table ∧ s' = { s with table } := by
  unfold onTable
  cases x s.table with
  | ok b table => simp [eq_comm, and_assoc]
  | error e table =>
    cases e with
    | fault cause => simp
    | error cause => cases h : problemOf cause <;> simp [h]

theorem formOf_eq_ok {id : TypeId} {form : Form} :
    formOf id s = .ok form s' ↔ s.table.form? id = some form ∧ s = s' := by
  simp only [formOf, inspect_eq_ok, TypeTable.form_eq_ok]

theorem resultOf_eq_ok {signature result : TypeId} :
    resultOf signature s = .ok result s' ↔
      (∃ params, s.table.form? signature = some (.function params result)) ∧ s = s' := by
  simp only [resultOf, inspect_eq_ok, TypeTable.resultOf, TypeTable.form]
  cases s.table.form? signature with
  | none => simp [bind, Except.bind]
  | some form => cases form <;> simp [bind, Except.bind, Form.signature?, pure, Except.pure]

theorem resolve_eq_ok {type : TypeExpr} {span : Span} {id : TypeId} :
    resolve type span s = .ok id s' ↔
      ∃ table, type.resolve s.names s.table = .ok id table ∧ s' = { s with table } :=
  onTable_eq_ok

theorem resolveConcrete_eq_ok {type : TypeExpr} {span : Span} {id : TypeId} :
    resolveConcrete type span s = .ok id s' ↔
      ∃ table, type.resolveConcrete s.names s.table = .ok id table ∧ s' = { s with table } :=
  onTable_eq_ok

theorem select_eq_ok {symbol : String} {candidates args : List TypeId} {span : Span}
    {signature : TypeId} : select symbol candidates args span s = .ok signature s' ↔
      s.table.selectExact symbol candidates args = .ok signature ∧ s = s' := by
  unfold select
  cases s.table.selectExact symbol candidates args with
  | ok id => simp
  | error e => cases e <;> simp

theorem nodeOf_eq_ok {id : NodeId} {node : Node} :
    nodeOf cx id s = .ok node s' ↔ cx.arena.node? id = some node ∧ s = s' := by
  rw [nodeOf, inspect_eq_ok]
  cases cx.arena.node? id <;> simp

theorem annotate_eq_ok {node : NodeId} {type : TypeId} {u : Unit} :
    annotate node type s = .ok u s' ↔
      ∃ annotations, s.annotations.set node type = .ok annotations ∧
        s' = { s with annotations } := by
  rw [annotate, update_eq_ok]
  cases s.annotations.set node type <;> simp [bind, Except.bind, pure, Except.pure, eq_comm]

theorem annotateProvisional_eq_ok {node : NodeId} {u : Unit} :
    annotateProvisional node s = .ok u s' ↔
      ∃ annotations, s.annotations.setProvisional node = .ok annotations ∧
        s' = { s with annotations } := by
  rw [annotateProvisional, update_eq_ok]
  cases s.annotations.setProvisional node <;>
    simp [bind, Except.bind, pure, Except.pure, eq_comm]

theorem openFrame_eq_ok {kind : FrameKind} {u : Unit} :
    openFrame kind s = .ok u s' ↔ ∃ scope, s.scope.push kind = .ok scope ∧
      s' = { s with scope } := by
  rw [openFrame, update_eq_ok]
  cases s.scope.push kind <;> simp [bind, Except.bind, pure, Except.pure, eq_comm]

theorem closeFrame_eq_ok {u : Unit} :
    closeFrame s = .ok u s' ↔ ∃ scope, s.scope.pop = .ok scope ∧ s' = { s with scope } := by
  rw [closeFrame, update_eq_ok]
  cases s.scope.pop <;> simp [bind, Except.bind, pure, Except.pure, eq_comm]

theorem lookup_eq_ok {name : String} {binding : Option Binding} :
    lookup name s = .ok binding s' ↔ s.scope.lookup name = binding ∧ s = s' := by
  change EStateM.Result.ok (s.scope.lookup name) s = _ ↔ _
  simp

theorem bindName_eq_ok {name : String} {type : TypeId} {kind : BindingKind} {span : Span}
    {u : Unit} : bindName name type kind span s = .ok u s' ↔
      ∃ scope, s.scope.bind name ⟨type, kind, span⟩ = .ok scope ∧ s' = { s with scope } := by
  unfold bindName
  cases s.scope.bind name ⟨type, kind, span⟩ <;> simp [eq_comm]

theorem bindName_eq_error {name : String} {type : TypeId} {kind : BindingKind} {span : Span}
    {e : Failure Finding} (h : bindName name type kind span s = .error e s') : s = s' := by
  unfold bindName at h
  cases hbind : s.scope.bind name ⟨type, kind, span⟩ <;> simp_all

theorem requireTruth_eq_ok {found : TypeId} {span : Span} {u : Unit} :
    requireTruth cx found span s = .ok u s' ↔ found = cx.builtin.truth ∧ s = s' := by
  rw [requireTruth, require_eq_ok, decide_eq_true_iff]

/-! ## Steps however they end -/

/-- The later state goes on from the earlier one, and only nodes in `N` got types. -/
structure Later (N : NodeId → Prop) (s s' : State) : Prop where
  table : s.table.Extends s'.table
  names : s'.names = s.names
  operators : s'.operators = s.operators
  members : s'.members = s.members
  annotations : s.annotations.Grows N s'.annotations

namespace Later

theorem refl (N : NodeId → Prop) (s : State) : Later N s s :=
  ⟨.refl _, rfl, rfl, rfl, .refl N _⟩

theorem trans (h : Later N s s') (h' : Later N s' s'') : Later N s s'' where
  table := h.table.trans h'.table
  names := h'.names.trans h.names
  operators := h'.operators.trans h.operators
  members := h'.members.trans h.members
  annotations := h.annotations.trans h'.annotations

instance : IsPreorder State (Later N) where
  refl := refl N
  trans _ _ _ := trans

theorem mono {N' : NodeId → Prop} (hN : ∀ node, N node → N' node) (h : Later N s s') :
    Later N' s s' :=
  ⟨h.table, h.names, h.operators, h.members, h.annotations.mono hN⟩

theorem of_table {table : TypeTable} (h : s.table.Extends table) :
    Later N s { s with table } :=
  ⟨h, rfl, rfl, rfl, .refl N _⟩

theorem of_scope (s : State) (scope : Scope) : Later N s { s with scope } :=
  ⟨.refl _, rfl, rfl, rfl, .refl N _⟩

theorem of_annotations {annotations : Annotations} (h : s.annotations.Grows N annotations) :
    Later N s { s with annotations } :=
  ⟨.refl _, rfl, rfl, rfl, h⟩

/-- A node outside keeps its annotation. -/
theorem get?_eq (h : Later N s s') {node : NodeId} (hnode : ¬ N node) :
    s'.annotations.get? node = s.annotations.get? node :=
  h.annotations.outside node hnode

end Later

section Reading

variable {R : State → State → Prop} [IsPreorder State R]

theorem report_moves (problem : Problem) (span : Span) : Moves R (report (α := α) problem span) :=
  .throw _

theorem inspect_moves (f : State → Except Fault α) : Moves R (inspect f) :=
  .of_same fun s => by unfold inspect; cases f s <;> rfl

theorem formOf_moves (id : TypeId) : Moves R (formOf id) := inspect_moves _

theorem textOf_moves (id : TypeId) : Moves R (textOf id) := inspect_moves _

theorem resultOf_moves (id : TypeId) : Moves R (resultOf id) := inspect_moves _

theorem nodeOf_moves (cx : Setting) (id : NodeId) : Moves R (nodeOf cx id) := inspect_moves _

theorem lookup_moves (name : String) : Moves R (lookup name) := .bind .get fun _ => .pure _

theorem require_moves {problem : Check Problem} (holds : Bool) (h : Moves R problem)
    (span : Span) : Moves R (require holds problem span) := by
  unfold require
  split
  · exact .pure _
  · exact .bind h fun _ => report_moves _ _

/-- A requirement on two types, which its problem names. -/
theorem requireFit_moves (holds : Bool) (problem : String → String → Problem) (a b : TypeId)
    (span : Span) :
    Moves R (require holds (do return problem (← textOf a) (← textOf b)) span) :=
  require_moves _ (.bind (textOf_moves _) fun _ => .bind (textOf_moves _) fun _ => .pure _) _

theorem select_moves (symbol : String) (candidates args : List TypeId) (span : Span) :
    Moves R (select symbol candidates args span) := .of_same fun s => by
  unfold select
  split <;> rfl

theorem requireTruth_moves (cx : Setting) (found : TypeId) (span : Span) :
    Moves R (requireTruth cx found span) := requireFit_moves _ _ _ _ _

end Reading

/-! ## Steps that extend the table -/

/-- Nothing but the table changed, and it was extended. -/
def Extended (s s' : State) : Prop := ∃ table, s.table.Extends table ∧ s' = { s with table }

instance : IsPreorder State Extended where
  refl s := ⟨s.table, .refl _, rfl⟩
  trans := by
    rintro s _ _ ⟨table, h, rfl⟩ ⟨table', h', rfl⟩
    exact ⟨table', h.trans h', rfl⟩

theorem onTable_extended {problemOf : ε → Except Fault Problem} {span : Span} {x : TableM ε α}
    (h : Moves TypeTable.Extends x) : Moves Extended (onTable problemOf span x) := fun s => by
  have hx := h s.table
  unfold onTable
  revert hx
  cases x s.table with
  | ok a table => exact fun hx => ⟨table, hx, rfl⟩
  | error e table =>
    cases e with
    | fault cause => exact fun hx => ⟨table, hx, rfl⟩
    | error cause =>
      dsimp only
      cases problemOf cause <;> exact fun hx => ⟨table, hx, rfl⟩

theorem resolve_extended (type : TypeExpr) (span : Span) : Moves Extended (resolve type span) :=
  fun s => onTable_extended (TypeExpr.resolve_moves s.names type) s

theorem resolveConcrete_extended (type : TypeExpr) (span : Span) :
    Moves Extended (resolveConcrete type span) :=
  fun s => onTable_extended (TypeExpr.resolveConcrete_moves s.names type) s

/-! ## Steps that write -/

theorem update_at {R : State → State → Prop} [IsPreorder State R]
    {f : State → Except Fault State} (h : ∀ s', f s = .ok s' → R s s') :
    R s (endState (update f s)) := by
  unfold update
  cases hf : f s with
  | ok s' => exact h s' hf
  | error cause => exact refl_of R s

theorem update_moves {R : State → State → Prop} [IsPreorder State R]
    {f : State → Except Fault State} (h : ∀ s s', f s = .ok s' → R s s') :
    Moves R (update f) := fun s => update_at (h s)

theorem annotate_later {node : NodeId} (hnode : N node) (type : TypeId) :
    Moves (Later N) (annotate node type) := update_moves fun s s' h => by
  obtain ⟨annotations, hset, rfl⟩ := annotate_eq_ok.mp (update_eq_ok (u := ()).mpr h)
  exact .of_annotations (.of_set hnode hset)

theorem annotateProvisional_later {node : NodeId} (hnode : N node) :
    Moves (Later N) (annotateProvisional node) := update_moves fun s s' h => by
  obtain ⟨annotations, hset, rfl⟩ := annotateProvisional_eq_ok.mp (update_eq_ok (u := ()).mpr h)
  exact .of_annotations (.of_setProvisional hnode hset)

theorem openFrame_later (kind : FrameKind) : Moves (Later N) (openFrame kind) :=
  update_moves fun s s' h => by
    obtain ⟨scope, -, rfl⟩ := openFrame_eq_ok.mp (update_eq_ok (u := ()).mpr h)
    exact .of_scope s scope

theorem closeFrame_later : Moves (Later N) closeFrame :=
  update_moves fun s s' h => by
    obtain ⟨scope, -, rfl⟩ := closeFrame_eq_ok.mp (update_eq_ok (u := ()).mpr h)
    exact .of_scope s scope

theorem bindName_later (name : String) (type : TypeId) (kind : BindingKind) (span : Span) :
    Moves (Later N) (bindName name type kind span) := fun s => by
  unfold bindName
  cases s.scope.bind name ⟨type, kind, span⟩ with
  | ok scope => exact .of_scope s scope
  | error _ => exact .refl N s

end RuleTypes.Check
