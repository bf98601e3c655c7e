import RuleTypes.Proofs.Check.Globals
import RuleTypes.Proofs.TypeTable.Failures
import RuleTypes.Session

/-!
# Histories of sessions

A session begins with the operators of the rule language and goes on by checking programs and
loading types. Its table only grows (`Session.Reachable.grows`), so what every step of a table keeps
holds in every session. The types of its operators are made of primitive types and functions, and
stay so (`Session.Reachable.plain`), whatever programs were checked and whatever types were loaded.
-/

namespace RuleTypes

variable {ε : Type} {generics : Generics} {config : Config} {session : Session}

/-! ## Operators -/

namespace Operators

open TypeTable

theorem registerAll_moves {R : TypeTable → TypeTable → Prop} [Composable R] (ops : Operators)
    (signatures : List (String × List TypeId × TypeId)) :
    Moves R (ops.registerAll signatures : TableM ε Operators) := by
  induction signatures generalizing ops with
  | nil => exact .pure _
  | cons signature signatures ih =>
    exact .bind (.bind (internFunction_moves _ _) fun _ => .pure _) fun ops => ih ops

/-- Signatures over issued types can be registered. -/
theorem registerAll_safe (ops : Operators) {signatures : List (String × List TypeId × TypeId)}
    {t : TypeTable} (h : ∀ signature ∈ signatures,
      (∀ id ∈ signature.2.1, id.index < t.size) ∧ signature.2.2.index < t.size) :
    Safe (ops.registerAll signatures : TableM ε Operators) t := by
  induction signatures generalizing ops t with
  | nil => exact .pure _
  | cons signature signatures ih =>
    obtain ⟨⟨hparams, hresult⟩, hrest⟩ := List.forall_mem_cons.mp h
    refine .bind (.bind (internFunction_safe hparams hresult) fun _ _ _ => .pure _) ?_
    intro ops t₁ hregister
    obtain ⟨id, t₂, hintern, hadd⟩ := bind_eq_ok.mp hregister
    obtain ⟨rfl, rfl⟩ := pure_eq_ok.mp hadd
    have hsize := ((internFunction_moves (R := Extends) _ _).ok hintern).size_le
    refine ih _ fun other hother => ?_
    obtain ⟨hparams, hresult⟩ := hrest other hother
    exact ⟨fun id hid => Nat.lt_of_lt_of_le (hparams id hid) hsize,
      Nat.lt_of_lt_of_le hresult hsize⟩

theorem ClearIn.add {A : Admission} {ops : Operators} {t : TypeTable} {signature : TypeId}
    (h : ops.ClearIn A t) (hsignature : t.Clear A signature) (symbol : String) :
    (ops.add symbol signature).ClearIn A t := by
  refine ⟨h.number, h.string, h.truth, fun other id hid => ?_⟩
  change id ∈ ((ops.overloads.insert symbol _).get? other).getD [] at hid
  rw [NameMap.get?_insert] at hid
  split at hid
  · rw [Option.getD_some] at hid
    split at hid
    · exact h.candidates symbol id hid
    · obtain hid | hid := List.mem_append.mp hid
      · exact h.candidates symbol id hid
      · exact List.mem_singleton.mp hid ▸ hsignature
  · exact h.candidates other id hid

theorem ClearIn.registerAll {A : Admission} {signatures : List (String × List TypeId × TypeId)}
    {ops ops' : Operators} {t t' : TypeTable} (h : ops.ClearIn A t)
    (hsignatures : ∀ signature ∈ signatures,
      (∀ id ∈ signature.2.1, t.Clear A id) ∧ t.Clear A signature.2.2)
    (hok : (ops.registerAll signatures : TableM ε Operators) t = .ok ops' t') :
    ops'.ClearIn A t' := by
  induction signatures generalizing ops t with
  | nil =>
    obtain ⟨rfl, rfl⟩ := pure_eq_ok.mp hok
    exact h
  | cons signature signatures ih =>
    obtain ⟨ops₁, t₁, hregister, hok⟩ := bind_eq_ok.mp hok
    obtain ⟨id, _, hintern, hregister⟩ := bind_eq_ok.mp hregister
    obtain ⟨rfl, rfl⟩ := pure_eq_ok.mp hregister
    have hextends := (internFunction_moves (R := Extends) _ _).ok hintern
    obtain ⟨hparams, hresult⟩ := hsignatures signature (List.mem_cons_self ..)
    have hid := clear_of_form? (form?_of_internFunction hintern) (A.structural rfl)
      fun part hpart => by
        obtain hpart | hpart := List.mem_append.mp hpart
        · exact (hparams part hpart).extends hextends
        · exact List.mem_singleton.mp hpart ▸ hresult.extends hextends
    refine ih ((h.of_clear fun _ hclear => hclear.extends hextends).add hid signature.1) ?_ hok
    intro other hother
    obtain ⟨hparams, hresult⟩ := hsignatures other (List.mem_cons_of_mem _ hother)
    exact ⟨fun id hid => (hparams id hid).extends hextends, hresult.extends hextends⟩

/-- The operators of the rule language are over numbers and strings. -/
theorem standard_signatures {P : TypeId → Prop} {number string : TypeId} (hnumber : P number)
    (hstring : P string) :
    ∀ signature ∈ numericBinarySymbols.map (fun symbol => (symbol, [number, number], number)) ++
        [("+", [string, string], string), ("==", [string, string], number),
          ("!=", [string, string], number)] ++
        numericUnarySymbols.map fun symbol => (symbol, [number], number),
      (∀ id ∈ signature.2.1, P id) ∧ P signature.2.2 := by
  intro signature hsignature
  simp only [List.mem_append, List.mem_map, List.mem_cons, List.not_mem_nil, or_false]
    at hsignature
  obtain (⟨symbol, -, rfl⟩ | rfl | rfl | rfl) | ⟨symbol, -, rfl⟩ := hsignature <;>
    simp [hnumber, hstring]

theorem clearIn_standard {ops : Operators} {t t' : TypeTable}
    (h : (standard : TableM ε Operators) t = .ok ops t') : ops.ClearIn .plain t' := by
  obtain ⟨number, t₁, hnumber, h⟩ := bind_eq_ok.mp h
  obtain ⟨string, t₂, hstring, h⟩ := bind_eq_ok.mp h
  have hstringClear : t₂.Clear .plain string :=
    clear_of_form? (form?_of_intern hstring) (Admission.plain.structural rfl) nofun
  have hnumberClear : t₂.Clear .plain number :=
    (clear_of_form? (form?_of_intern hnumber) (Admission.plain.structural rfl) nofun).grows
      ((internPrimitive_grows _).ok hstring)
  have hbare : (bare number string number).ClearIn .plain t₂ :=
    ⟨hnumberClear, hstringClear, hnumberClear, fun _ _ hid => absurd hid List.not_mem_nil⟩
  exact hbare.registerAll (standard_signatures hnumberClear hstringClear) h

theorem standard_safe (t : TypeTable) : Safe (standard : TableM ε Operators) t := by
  obtain ⟨number, t₁, hnumber⟩ := intern_ok (ε := ε) (.primitive "f64") t
  obtain ⟨string, t₂, hstring⟩ := intern_ok (ε := ε) (.primitive "string") t₁
  have hissued : number.index < t₂.size := form?_eq_some_lt
    (((internPrimitive_grows "string").ok hstring).form? (form?_of_intern hnumber) rfl)
  exact .step hnumber (.step hstring (registerAll_safe _ (standard_signatures
    (P := fun id => id.index < t₂.size) hissued (form?_eq_some_lt (form?_of_intern hstring)))))

theorem standard_grows : Moves Grows (standard : TableM ε Operators) :=
  .bind (internPrimitive_grows _) fun _ => .bind (internPrimitive_grows _) fun _ =>
    registerAll_moves _ _

end Operators

/-! ## Histories -/

/-- The sessions that come about by checking programs and loading types. -/
inductive Session.Reachable (generics : Generics) (config : Config) : Session → Prop
  | standard {session : Session} (h : Session.standard generics config = .ok session) :
      Reachable generics config session
  | check {session session' : Session} {program : Program} {report : Report}
      (hsession : Reachable generics config session)
      (h : session.check program = .ok (report, session')) : Reachable generics config session'
  | load {session : Session} (names : Names) (text : String)
      (hsession : Reachable generics config session) :
      Reachable generics config (session.loadType names text).2

namespace Session

/-- To evaluate the check of a program in a new session gives a session with such a check. -/
theorem exists_run (program : Program) (P : Session → Check.Progress → Prop)
    [∀ session p, Decidable (P session p)]
    (h : (do
      let session ← Session.standard Generics.standard .permissive
      let p ← Check.run ⟨program.arena, session.builtin, session.config⟩ program.items
        session.table
      return decide (P session p)) = Except.ok true) :
    ∃ session p, session.Reachable Generics.standard .permissive ∧
      Check.run ⟨program.arena, session.builtin, session.config⟩ program.items session.table =
        .ok p ∧ P session p := by
  obtain ⟨session, hsession, h⟩ := except_bind_eq_ok.mp h
  obtain ⟨p, hrun, h⟩ := except_bind_eq_ok.mp h
  exact ⟨session, p, .standard hsession, hrun, of_decide_eq_true (Except.ok.inj h)⟩

theorem check_eq_ok {session' : Session} {program : Program} {report : Report} :
    session.check program = .ok (report, session') ↔
      ∃ p, Check.run ⟨program.arena, session.builtin, session.config⟩ program.items session.table =
        .ok p ∧ report = p.report ∧ session' = { session with table := p.state.table } := by
  unfold check Program.check
  cases Check.run ⟨program.arena, session.builtin, session.config⟩ program.items session.table with
  | error cause => simp [bind, Except.bind]
  | ok p => simp [bind, Except.bind, pure, Except.pure, eq_comm]

theorem standard_eq_ok : Session.standard generics config = .ok session ↔
    ∃ builtin table, (Operators.standard : TableM Empty Operators) (TypeTable.new generics) =
      .ok builtin table ∧ session = ⟨table, builtin, config⟩ := by
  unfold Session.standard Session.build
  cases (Operators.standard : TableM Empty Operators) (TypeTable.new generics) with
  | ok builtin table => simp [eq_comm, and_assoc]
  | error e table =>
    cases e with
    | error cause => exact cause.elim
    | fault cause => simp

/-- A session can be built over any generics. -/
theorem standard_ends (generics : Generics) (config : Config) :
    ∃ session, Session.standard generics config = .ok session := by
  obtain ⟨builtin, table, hok⟩ | ⟨cause, _⟩ :=
    (Operators.standard_safe (ε := Empty) (TypeTable.new generics)).ends
  · exact ⟨_, standard_eq_ok.mpr ⟨builtin, table, hok, rfl⟩⟩
  · exact cause.elim

theorem loadType_extends (session : Session) (names : Names) (text : String) :
    session.table.Extends (session.loadType names text).2.table := by
  have hload := TypeExpr.load_extends names text session.table
  unfold loadType
  revert hload
  cases TypeExpr.load names text session.table <;> exact id

theorem loadType_builtin (session : Session) (names : Names) (text : String) :
    (session.loadType names text).2.builtin = session.builtin := by
  unfold loadType
  cases TypeExpr.load names text session.table <;> rfl

theorem loadType_config (session : Session) (names : Names) (text : String) :
    (session.loadType names text).2.config = session.config := by
  unfold loadType
  cases TypeExpr.load names text session.table <;> rfl

/-- A session's table comes from the empty one by growing. -/
theorem Reachable.grows (h : session.Reachable generics config) :
    (TypeTable.new generics).Grows session.table := by
  induction h with
  | standard h =>
    obtain ⟨builtin, table, hoperators, rfl⟩ := standard_eq_ok.mp h
    exact Operators.standard_grows.ok hoperators
  | check hsession h ih =>
    obtain ⟨p, hrun, -, rfl⟩ := check_eq_ok.mp h
    exact ih.trans (Check.grows_of_run hrun)
  | load names text hsession ih => exact ih.trans (loadType_extends _ names text).grows

theorem Reachable.canonical (h : session.Reachable generics config) : session.table.Canonical :=
  (TypeTable.canonical_new generics).grows h.grows

/-- The types of a session's operators are made of primitive types and functions. -/
theorem Reachable.plain (h : session.Reachable generics config) :
    session.builtin.ClearIn .plain session.table := by
  induction h with
  | standard h =>
    obtain ⟨builtin, table, hoperators, rfl⟩ := standard_eq_ok.mp h
    exact Operators.clearIn_standard hoperators
  | check hsession h ih =>
    obtain ⟨p, hrun, -, rfl⟩ := check_eq_ok.mp h
    exact ih.of_clear fun _ hplain => hplain.grows (Check.grows_of_run hrun)
  | load names text hsession ih =>
    rw [loadType_builtin]
    exact ih.of_clear fun _ hplain => hplain.extends (loadType_extends _ names text)

/-- So they are clear, whatever is admitted. -/
theorem Reachable.clear {A : Admission} (h : session.Reachable generics config) :
    session.builtin.ClearIn A session.table := h.plain.of_clear fun _ hplain => hplain.of_plain

end Session

end RuleTypes
