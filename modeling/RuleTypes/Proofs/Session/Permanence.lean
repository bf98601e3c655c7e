import RuleTypes.Proofs.Session
import RuleTypes.Proofs.TypeTable.Permanence

/-!
# Checking a program touches no earlier type

A check fills structs, but only those that it has reserved itself: the id that a struct is filled
under stands at the node of its definition, and what stands there was put there when it was
reserved (`Spares`). So the types that a session had before a program was checked or a type was
loaded are the same afterwards, also structs that an earlier program left without fields.
-/

namespace RuleTypes

namespace Check

open Relation

variable {cx : Setting} {s s' : State} {n : Nat} {D N : NodeId → Prop} {α : Type}

/-! ## Steps -/

/-- The types below `n` are left alone, and nodes in `D` get types from `n` on only. -/
structure Spares (n : Nat) (D : NodeId → Prop) (s s' : State) : Prop where
  table : s.table.Spares (·.index < n) s'.table
  reserved : ∀ node id, D node → s'.annotations.get? node = some id →
    s.annotations.get? node = some id ∨ n ≤ id.index

instance : IsPreorder State (Spares n D) where
  refl _ := ⟨refl_of (TypeTable.Spares _) _, fun _ _ _ h => .inl h⟩
  trans _ _ _ h h' := by
    refine ⟨trans_of (TypeTable.Spares _) h.table h'.table, fun node id hnode hid => ?_⟩
    obtain hid | hid := h'.reserved node id hnode hid
    · exact h.reserved node id hnode hid
    · exact .inr hid

theorem spares_of_table {table : TypeTable} (h : s.table.Spares (·.index < n) table) :
    Spares n D s { s with table } := ⟨h, fun _ _ _ hid => .inl hid⟩

theorem Extended.spares (h : Extended s s') : Spares n D s s' := by
  obtain ⟨table, hextends, rfl⟩ := h
  exact spares_of_table hextends.spares

theorem Later.spares (h : Later N s s') (hN : ∀ node, N node → ¬ D node) : Spares n D s s' := by
  refine ⟨h.table.spares, fun node id hnode hid => .inl ?_⟩
  rwa [← h.get?_eq fun hin => hN node hin hnode]

theorem onTable_spares {ε : Type} {problemOf : ε → Except Fault Problem} {span : Span}
    {x : TableM ε α} (h : s.table.Spares (·.index < n) (endState (x s.table))) :
    Spares n D s (endState (onTable problemOf span x s)) := by
  unfold onTable
  revert h
  cases x s.table with
  | ok a table => exact spares_of_table
  | error e table =>
    cases e with
    | fault cause => exact spares_of_table
    | error cause =>
      dsimp only
      cases problemOf cause <;> exact spares_of_table

theorem orForget_spares {x : Check Unit} {name : String} {id : TypeId}
    (h : Spares n D s (endState (x s))) : Spares n D s (endState (orForget name id x s)) := by
  unfold orForget
  revert h
  cases x s with
  | ok u s' => exact fun h => h
  | error e s' =>
    cases e with
    | fault cause => exact fun h => h
    | error finding =>
      intro h
      change Spares n D s (forget name id s')
      unfold forget
      split
      · exact ⟨h.table, h.reserved⟩
      · exact h

theorem declareStruct_spares (d : StructDef) (hn : n ≤ s.table.size) :
    Spares n D s (endState (declareStruct d s)) := by
  refine Moves.bind_at (require_moves _ (.pure _) _ s) fun _ s₁ h => ?_
  obtain ⟨-, rfl⟩ := require_eq_ok.mp h
  rw [get_bind]
  refine Moves.bind_at (require_moves _ (.pure _) _ s) fun _ s₁ h => ?_
  obtain ⟨-, rfl⟩ := require_eq_ok.mp h
  refine Moves.bind_at (onTable_spares (TypeTable.spares_withReserved _ s.table d.name))
    fun id s₁ h => ?_
  obtain ⟨table, hreserve, rfl⟩ := onTable_eq_ok.mp h
  obtain ⟨rfl, -⟩ := EStateM.Result.ok.inj hreserve
  refine Moves.bind_at ⟨refl_of (TypeTable.Spares _) _, fun _ _ _ hid => .inl hid⟩ fun _ s₂ h => ?_
  -- the struct gets the last id that was issued
  refine update_at fun s₃ h => ?_
  obtain ⟨annotations, hset, rfl⟩ := annotate_eq_ok.mp (update_eq_ok (u := ()).mpr h)
  refine ⟨refl_of (TypeTable.Spares _) _, fun node id _ hid => ?_⟩
  change annotations.get? node = some id at hid
  rw [Annotations.get?_of_set hset] at hid
  split at hid
  · exact .inr (Option.some.inj hid ▸ hn)
  · exact .inl hid

theorem fillStruct_spares (d : StructDef)
    (h : ∀ id, s.annotations.get? d.node = some id → n ≤ id.index) :
    Spares n D s (endState (fillStruct d s)) := by
  refine Moves.bind_at (inspect_moves _ s) fun id s₁ hread => orForget_spares ?_
  obtain ⟨hid, rfl⟩ := inspect_eq_ok.mp hread
  have hn : n ≤ id.index := by
    split at hid
    · cases hid
      exact h _ ‹_›
    · cases hid
  refine Moves.bind_at (resolveFields_extended _ _ s).spares fun fields s₁ _ => ?_
  exact onTable_spares (TypeTable.fill_spares (fun _ => Nat.not_lt.mpr hn) fields)

theorem checkLayout_spares (d : StructDef) : Moves (Spares n D) (checkLayout d) := by
  refine .bind (inspect_moves _) fun id s => orForget_spares ?_
  refine Moves.bind_at (inspect_moves _ s) fun _ s _ =>
    Moves.bind_at (require_moves _ (.pure _) _ s) fun _ s _ =>
    Moves.bind_at (inspect_moves _ s) fun broken s _ => ?_
  cases broken with
  | none => exact Moves.pure _ s
  | some name => exact report_moves _ _ s

theorem registerFunction_spares (d : FunctionDef) (hd : ¬ D d.node) :
    Moves (Spares n D) (registerFunction cx d) := fun s =>
  registerFunction_at (signatureOf_extended d s).spares fun _ s₁ _ =>
    { bind := fun _ => (bindName_later (N := fun _ => False) _ _ _ _ s₁).spares nofun
      operator := ⟨refl_of (TypeTable.Spares _) _, fun _ _ _ hid => .inl hid⟩
      member := ⟨refl_of (TypeTable.Spares _) _, fun _ _ _ hid => .inl hid⟩
      annotate := fun s₂ _ => (annotate_later (N := (· = d.node)) rfl _ s₂).spares
        fun _ hnode => hnode ▸ hd }

theorem attempt_spares {x : Check α} {r : Except Finding α} (hx : Spares n D s (endState (x s)))
    (h : attempt x s = .ok (r, s')) : Spares n D s s' := by
  obtain ⟨a, rfl, hok⟩ | ⟨finding, s₁, annotations, rfl, herror, hback, rfl⟩ := attempt_eq_ok h
  · rwa [hok] at hx
  · rw [herror] at hx
    exact ⟨hx.table, fun node id hnode hid =>
      hx.reserved node id hnode (Annotations.get?_of_rollback hback hid)⟩

/-! ## Runs -/

variable {p p' : Progress} {items : List Item} {table : TypeTable} {ids : List NodeId}

theorem register_spares {position : Nat} {node : NodeId} {x : Check Unit}
    (hx : Spares n D p.state (endState (x p.state)))
    (h : p.register position node x = .ok p') : Spares n D p.state p'.state := by
  obtain ⟨r, state, hattempt, ⟨-, rfl⟩ | ⟨finding, -, rfl⟩⟩ := register_eq_ok h
  · exact attempt_spares hx hattempt
  · exact attempt_spares hx hattempt

/-- The node defines a struct. -/
def DefinesStruct (items : List Item) (node : NodeId) : Prop :=
  ∃ d ∈ items.filterMap Item.structDef?, d.2.node = node

/-- A node that defines a function defines no struct. -/
theorem not_definesStruct (hitems : itemsFrom cx.arena 0 ids = .ok items) {position : Nat}
    {d : FunctionDef} (hd : (position, d) ∈ items.filterMap Item.functionDef?) :
    ¬ DefinesStruct items d.node := by
  rintro ⟨e, he, heq⟩
  exact node_ne_of_defs hitems he hd heq

/-- What the steps of registration have done to the types: those of the table that it began with are
left alone, and the structs that are to be filled were reserved since. -/
theorem spares_of_steps (hitems : itemsFrom cx.arena 0 ids = .ok items)
    (h : ReflTransGen (RegisterStep cx items) ⟨State.start table cx.arena.size, [], [], []⟩ p) :
    Spares table.size (DefinesStruct items) (State.start table cx.arena.size) p.state := by
  induction h with
  | refl => exact refl_of (Spares _ _) _
  | @tail q q' _ hstep ih =>
    refine trans_of (Spares _ _) ih ?_
    have hreserved : ∀ d ∈ items.filterMap Item.structDef?, ∀ id,
        q.state.annotations.get? d.2.node = some id → table.size ≤ id.index := fun d hd id hid => by
      obtain hstart | hnew := ih.reserved d.2.node id ⟨d, hd, rfl⟩ hid
      · cases (Annotations.get?_blank _ _).symm.trans hstart
      · exact hnew
    cases hstep with
    | declare _ h => exact register_spares (declareStruct_spares _ ih.table.size) h
    | fill hd _ h => exact register_spares (fillStruct_spares _ (hreserved _ hd)) h
    | layout _ _ h => exact register_spares (checkLayout_spares _ _) h
    | function hd h =>
      exact register_spares (registerFunction_spares _ (not_definesStruct hitems hd) _) h

/-- **A check leaves alone the types that were there before.** -/
theorem spares_of_run (h : run cx ids table = .ok p) :
    table.Spares (·.index < table.size) p.state.table := by
  obtain ⟨items, q, hitems, hregistered, hcheck⟩ := run_eq_ok.mp h
  exact trans_of (TypeTable.Spares _) (spares_of_steps hitems (registered_steps hregistered)).table
    (extends_of_checkItems hcheck).spares

end Check

/-- **Issued types are permanent.** In every reachable table, an operation that is refused changes
nothing, and one that answers leaves the issued types as they are, except that filling a struct,
which has to be pending, gives it fields whose names differ and are no words of the notation. So
whatever is done to the table, a type that is sealed has the same form for good and is not filled
again, and every type has the same text and the same fingerprint for good. In every session,
checking a program and loading a type, whatever comes of it, leave the types that were issued before
exactly as they were, also structs that are pending. -/
theorem issued_types_permanent :
    (∀ t : TypeTable, t.Reachable → (∀ op : TypeTable.Op, op.Respects t) ∧
      ∀ ops : List TypeTable.Op, t.Lasts (ops.foldl TypeTable.Op.apply t)) ∧
    ∀ session : Session,
      (∀ program report session', session.check program = .ok (report, session') →
        session.table.Untouched session'.table) ∧
      ∀ names text, session.table.Untouched (session.loadType names text).2.table := by
  refine ⟨fun t ht => ⟨ht.canonical.op_respects, ht.canonical.lasts_foldl_apply⟩,
    fun session => ⟨fun program report session' hcheck => ?_, fun names text => ?_⟩⟩
  · obtain ⟨p, hrun, -, rfl⟩ := Session.check_eq_ok.mp hcheck
    exact (Check.spares_of_run hrun).untouched
  · exact (session.loadType_extends names text).spares.untouched

/-- `type Node { next *Node; value Missing }`. -/
def Program.brokenNode : Program where
  arena := ⟨#[⟨.struct "Node" [("next", .pointer (.named "Node")), ("value", .named "Missing")],
    ⟨1, 1, 0⟩⟩]⟩
  items := [⟨0⟩]

theorem Program.brokenNode_isTree : Program.brokenNode.IsTree :=
  ⟨by decide, by decide, Arena.acyclic_of_index_lt (by decide)⟩

/-- A node that is sealed keeps its fields, and one that a program has left pending is still so when
the program is checked again. -/
theorem issued_types_permanent_nodes :
    (∀ ops : List TypeTable.Op, ((TypeTable.sealedNode ++ ops).foldl TypeTable.Op.apply
      (.new Generics.standard)).form? ⟨3⟩ = some (.declared "Node" [("next", ⟨4⟩)])) ∧
    ∃ (session session' : Session) (report : Report),
      session.table.form? ⟨8⟩ = some (.declared "Node" []) ∧ session.table.isSealed ⟨8⟩ = false ∧
      session.check Program.brokenNode = .ok (report, session') ∧
      session'.table.form? ⟨8⟩ = some (.declared "Node" []) ∧
      session'.table.isSealed ⟨8⟩ = false := by
  constructor
  · intro ops
    have hlasts := (issued_types_permanent.1 _
      ((TypeTable.Reachable.new Generics.standard).foldl TypeTable.sealedNode)).2 ops
    rw [List.foldl_append]
    exact (hlasts.sealed ⟨3⟩ _ rfl rfl).1
  · have heval : (do
        let fresh ← Session.standard Generics.standard .permissive
        let checked ← fresh.check Program.brokenNode
        return (checked.2.table.form? ⟨8⟩, checked.2.table.isSealed ⟨8⟩)) =
          Except.ok (some (.declared "Node" []), false) := by
      decide +kernel
    obtain ⟨fresh, hfresh, heval⟩ := except_bind_eq_ok.mp heval
    obtain ⟨⟨_, session⟩, hfirst, heval⟩ := except_bind_eq_ok.mp heval
    obtain ⟨hform, hsealed⟩ := Prod.mk.inj (Except.ok.inj heval)
    have hreachable := (Session.Reachable.standard hfresh).check hfirst
    obtain ⟨report, session', hcheck⟩ :=
      Session.check_ends hreachable rfl Program.brokenNode_isTree
    have hissued : session.table.isIssued ⟨8⟩ = true :=
      TypeTable.isIssued_iff.mpr (TypeTable.form?_eq_some_lt hform)
    obtain ⟨hform', hsealed'⟩ :=
      (issued_types_permanent.2 session).1 _ _ _ hcheck ⟨8⟩ hissued
    exact ⟨session, session', report, hform, hsealed, hcheck, hform'.trans hform,
      hsealed'.trans hsealed⟩

end RuleTypes
