import Mathlib.Data.List.Nodup
import Mathlib.Data.Set.Basic
import RuleTypes.Proofs.Check.Failures

/-!
# Registering structs

The structs of a program are declared, then filled, and then dropped as long as one of them has no
layout. What the definitions ask of a table can be said without running these passes (`Viable`):
their field types resolve, and they mention, and hold by value, only what can stand as well. For
each pass it is said what happens to one definition (`declareStruct_of_free`, `fillStruct_eq_ok`,
`fillStruct_eq_finding`, `checkLayout_ends`). The first pass declares the first of all definitions
of a name that can be declared (`Declaring.declareStructs`).
-/

namespace RuleTypes.Check

open Relation TypeTable TypeExpr

variable {s s' : State} {p p' : Progress} {d e : StructDef} {position : Nat} {node : NodeId}
  {id : TypeId} {names : Names} {t : TypeTable} {before : List StructDef}

/-! ## Definitions that declare a struct -/

/-- The name is that of one of the definitions. -/
def Named (D : List StructDef) (name : String) : Prop := ∃ d ∈ D, d.name = name

/-- After the definitions `before`, the definition declares a struct: its name is no word of the
notation, not that of a primitive type, and new. -/
def StructDef.Declares (t : TypeTable) (before : List StructDef) (d : StructDef) : Prop :=
  isReserved d.name = false ∧ t.primitive? d.name = none ∧ ∀ e ∈ before, e.name ≠ d.name

instance : Decidable (d.Declares t before) := inferInstanceAs (Decidable (_ ∧ _ ∧ _))

/-- The definitions that declare a struct, those in `before` being the first of them. -/
def declaring (t : TypeTable) (before : List StructDef) : List StructDef → List StructDef
  | [] => before
  | d :: defs => declaring t (if d.Declares t before then before ++ [d] else before) defs

/-- Of all definitions of a name that can be declared, the first declares it. -/
theorem mem_declaring {defs : List StructDef} : d ∈ declaring t before defs ↔
    d ∈ before ∨ d.Declares t before ∧ defs.find? (·.name = d.name) = some d := by
  induction defs generalizing before with
  | nil => simp [declaring]
  | cons first defs ih =>
    rw [declaring, ih]
    by_cases hname : first.name = d.name
    · have hsame : first.Declares t before ↔ d.Declares t before := by
        unfold StructDef.Declares
        rw [hname]
      have hfind : (first :: defs).find? (·.name = d.name) = some first := by simp [hname]
      rw [hfind]
      by_cases hfirst : first.Declares t before
      · have htaken : ¬ d.Declares t (before ++ [first]) := fun h => h.2.2 first (by simp) hname
        rw [if_pos hfirst]
        simp [htaken, hsame.mp hfirst, eq_comm]
      · rw [if_neg hfirst]
        simp [hsame.not.mp hfirst]
    · have hfind : (first :: defs).find? (·.name = d.name) = defs.find? (·.name = d.name) := by
        simp [hname]
      have hne : d ≠ first := fun heq => hname (heq ▸ rfl)
      rw [hfind]
      by_cases hfirst : first.Declares t before
      · rw [if_pos hfirst]
        simp [StructDef.Declares, hne, hname, or_imp, forall_and]
      · rw [if_neg hfirst]

/-! ## Definitions that can stand -/

/-- The types of the fields. -/
def StructDef.types (d : StructDef) : List TypeExpr := d.fields.map (·.2)

/-- The names of the fields can stand together, and their types resolve. -/
def StructDef.Resolves (t : TypeTable) (declared : String → Prop) (d : StructDef) : Prop :=
  FieldNames (d.fields.map (·.1)) ∧ ∀ type ∈ d.types, type.Resolvable t declared

/-- A field of the first struct holds the second by value. -/
def Contains (D : List StructDef) (d e : StructDef) : Prop :=
  e ∈ D ∧ ∃ type ∈ d.types, type.HasByValue (.named e.name)

/-- A set of definitions that can stand together: all of them resolve where every name is declared,
whatever they mention is in the set, and none contains itself by value. -/
structure Viable (t : TypeTable) (D : List StructDef) (S : Set StructDef) : Prop where
  declared : ∀ d ∈ S, d ∈ D
  resolves : ∀ d ∈ S, d.Resolves t (Named D)
  closed : ∀ d ∈ S, ∀ type ∈ d.types, ∀ e ∈ D, type.Has (.named e.name) → e ∈ S
  acyclic : ∀ d ∈ S, ¬ TransGen (Contains D) d d

/-- The definitions of the structs of a program with their places, and the table that they are
registered in. -/
structure Roster where
  table : TypeTable
  /-- The number of nodes. -/
  size : Nat
  defs : List (Nat × StructDef)
  canonical : table.Canonical
  inRange : ∀ d ∈ defs, d.2.node.index < size
  nodup : (defs.map (·.2.node)).Nodup
  places : ∀ d ∈ defs, ∀ e ∈ defs, d.1 = e.1 ↔ d.2.node = e.2.node

namespace Roster

variable {r : Roster}

/-- The definitions that declare a struct. -/
def declared (r : Roster) : List StructDef := declaring r.table [] (r.defs.map (·.2))

theorem mem_declared : d ∈ r.declared ↔
    d.Declares r.table [] ∧ (r.defs.map (·.2)).find? (·.name = d.name) = some d := by
  simp [declared, mem_declaring]

theorem mem_defs (hd : d ∈ r.declared) : ∃ position, (position, d) ∈ r.defs := by
  have hmem := List.mem_of_find?_eq_some (mem_declared.mp hd).2
  simpa using hmem

theorem eq_of_name (hd : d ∈ r.declared) (he : e ∈ r.declared) (h : d.name = e.name) : d = e := by
  have hfind := (mem_declared.mp hd).2
  rw [h, (mem_declared.mp he).2] at hfind
  exact (Option.some.inj hfind).symm

theorem eq_of_node (hd : d ∈ r.declared) (he : e ∈ r.declared) (h : d.node = e.node) : d = e := by
  obtain ⟨i, hd⟩ := mem_defs hd
  obtain ⟨j, he⟩ := mem_defs he
  exact congrArg Prod.snd (List.inj_on_of_nodup_map r.nodup hd he h)

theorem node_ne {rest : List (Nat × StructDef)} {other : Nat × StructDef}
    (h : (position, d) :: rest <:+ r.defs) (hother : other ∈ rest) : other.2.node ≠ d.node := by
  intro heq
  have hnodup := r.nodup.sublist (h.sublist.map _)
  rw [List.map_cons, List.nodup_cons] at hnodup
  exact hnodup.1 (List.mem_map.mpr ⟨other, hother, heq⟩)

theorem primitive?_eq_none (hd : d ∈ r.declared) : r.table.primitive? d.name = none :=
  (mem_declared.mp hd).1.2.1

end Roster

/-! ## One step of a pass -/

theorem register_of_ok {x : Check Unit} (h : x p.state = .ok () s') :
    p.register position node x = .ok { p with state := s' } := by
  unfold Progress.register attempt
  simp [h, bind, Except.bind, pure, Except.pure]

/-- A step that leaves annotations and frames alone need not be undone. -/
theorem register_of_finding {x : Check Unit} {finding : Finding}
    (h : x p.state = .error (.error finding) s')
    (hannotations : s'.annotations = p.state.annotations)
    (hframes : s'.scope.frames = []) : p.register position node x = .ok { p with
      state := s'
      failed := node :: p.failed
      findings := p.findings ++ [(position, finding)] } := by
  have hscope : s'.scope.unwind = s'.scope := by
    unfold Scope.unwind
    rw [← hframes]
  unfold Progress.register attempt
  simp [h, ← hannotations, Annotations.rollback_mark, hscope, bind, Except.bind, pure, Except.pure]

theorem safe_of_register {x : Check Unit} (h : p.register position node x = .ok p') :
    Safe x p.state := by
  obtain ⟨r, state, hattempt, -⟩ := register_eq_ok h
  obtain ⟨_, -, hok⟩ | ⟨finding, s₁, _, -, herror, -⟩ := attempt_eq_ok hattempt
  · exact .of_ok hok
  · exact .of_error herror

/-- The name can be declared in the state. -/
def StructDef.IsFree (d : StructDef) (s : State) : Prop :=
  isReserved d.name = false ∧ s.names.get? d.name = none ∧ s.table.primitive? d.name = none

theorem declareStruct_of_free {annotations : Annotations} (h : d.IsFree s)
    (hset : s.annotations.set d.node ⟨s.table.size⟩ = .ok annotations) :
    declareStruct d s = .ok () { s with
      table := s.table.withReserved d.name
      names := s.names.insert d.name ⟨s.table.size⟩
      annotations } := by
  obtain ⟨hname, hnew, hprimitive⟩ := h
  have hfree : (!s.names.contains d.name && (s.table.primitive? d.name).isNone) = true := by
    simp [NameMap.contains, hnew, hprimitive]
  have hreserve : onTable Problem.ofTable d.span (TypeTable.reserve d.name) s =
      .ok ⟨s.table.size⟩ { s with table := s.table.withReserved d.name } :=
    onTable_eq_ok.mpr ⟨_, reserve_eq _ _, rfl⟩
  unfold declareStruct
  rw [bind_of_ok (require_eq_ok (u := ()).mpr ⟨by simp [hname], rfl⟩), get_bind,
    bind_of_ok (require_eq_ok (u := ()).mpr ⟨hfree, rfl⟩), bind_of_ok hreserve]
  exact annotate_eq_ok.mpr ⟨annotations, hset, rfl⟩

theorem declareStruct_of_taken (h : ¬ d.IsFree s) :
    ∃ finding, declareStruct d s = .error (.error finding) s := by
  unfold declareStruct
  by_cases hname : isReserved d.name = true
  · exact ⟨_, bind_of_error (by rw [hname]; exact require_of_false _ _ s)⟩
  · have htaken : (!s.names.contains d.name && (s.table.primitive? d.name).isNone) = false := by
      by_contra hfree
      simp only [Bool.not_eq_false, Bool.and_eq_true, Bool.not_eq_true', NameMap.contains,
        Option.isSome_eq_false_iff, Option.isNone_iff_eq_none] at hfree
      exact h ⟨by simpa using hname, hfree⟩
    rw [bind_of_ok (require_eq_ok (u := ()).mpr ⟨by simpa using hname, rfl⟩), get_bind]
    exact ⟨_, bind_of_error (by rw [htaken]; exact require_of_false _ _ s)⟩

theorem reservedId_eq_ok (h : s.annotations.get? d.node = some id) :
    reservedId d s = .ok id s := inspect_eq_ok.mpr ⟨by rw [h], rfl⟩

theorem orForget_of_ok {x : Check Unit} {name : String} (h : x s = .ok () s') :
    orForget name id x s = .ok () s' := by
  unfold orForget
  rw [h]

theorem orForget_of_finding {x : Check Unit} {name : String} {finding : Finding}
    (h : x s = .error (.error finding) s') :
    orForget name id x s = .error (.error finding) (forget name id s') := by
  unfold orForget
  rw [h]

theorem orForget_safe {x : Check Unit} (name : String) (id : TypeId) (h : Safe x s) :
    Safe (orForget name id x) s := by
  obtain ⟨_, s₁, hok⟩ | ⟨finding, s₁, herror⟩ := h.ends
  · exact .of_ok (orForget_of_ok hok)
  · exact .of_error (orForget_of_finding herror)

theorem orForget_eq_ok {x : Check Unit} {name : String} (h : orForget name id x s = .ok () s') :
    x s = .ok () s' := by
  unfold orForget at h
  split at h
  · cases h
  · exact h

theorem orForget_eq_finding {x : Check Unit} {name : String} {finding : Finding}
    (h : orForget name id x s = .error (.error finding) s') :
    ∃ s₁, x s = .error (.error finding) s₁ ∧ s' = forget name id s₁ := by
  unfold orForget at h
  split at h
  case h_1 finding' s₁ hx =>
    cases h
    exact ⟨s₁, hx, rfl⟩
  case h_2 hne => exact absurd h (hne finding s')

section Fill

variable (hannotated : s.annotations.get? d.node = some id)

include hannotated

theorem fillStruct_eq : fillStruct d s = orForget d.name id (resolveFields d.span d.fields >>=
    fun fields => onTable Problem.ofTable d.span (TypeTable.fill id fields)) s :=
  bind_of_ok (reservedId_eq_ok hannotated)

/-- A struct is filled with types that its field types denote. -/
theorem fillStruct_eq_ok (h : fillStruct d s = .ok () s') :
    ∃ fields table, s.table.Extends table ∧ d.Resolves s.table (Bound s.names) ∧
      fields.map (·.1) = d.fields.map (·.1) ∧
      DenotesAll s.names table d.types (fields.map (·.2)) ∧
      table.Step (table.withFilled id fields) ∧
      s' = { s with table := table.withFilled id fields } := by
  rw [fillStruct_eq hannotated] at h
  obtain ⟨fields, s₁, hresolve, h⟩ := bind_eq_ok.mp (orForget_eq_ok h)
  obtain ⟨table, hfields, rfl⟩ := resolveFields_eq_ok.mp hresolve
  obtain ⟨_, hfill, rfl⟩ := onTable_eq_ok.mp h
  obtain ⟨name, old, hform, hpending, hissued, hfieldNames, rfl⟩ := fill_eq_ok hfill
  obtain ⟨hnames, hdenotes, hresolves⟩ := resolveFields_means d.fields hfields
  exact ⟨fields, table, (resolveFields_moves _ _).ok hfields,
    ⟨hnames ▸ hfieldNames, hresolves⟩, hnames.symm, hdenotes,
    .fill hform hpending hissued hfieldNames, rfl⟩

variable {name : String} {old : List (String × TypeId)}
  (hform : s.table.form? id = some (.declared name old)) (hpending : id ∈ s.table.pending)

include hform hpending

/-- A struct that is not filled has field types that cannot be resolved. -/
theorem fillStruct_eq_finding {finding : Finding}
    (h : fillStruct d s = .error (.error finding) s') :
    ∃ table, s.table.Extends table ∧ ¬ d.Resolves s.table (Bound s.names) ∧
      s' = forget d.name id { s with table } := by
  rw [fillStruct_eq hannotated] at h
  obtain ⟨s₁, hstep, rfl⟩ := orForget_eq_finding h
  obtain h | ⟨fields, s₂, hresolve, h⟩ := bind_eq_error.mp hstep
  · rw [resolveFields_eq] at h
    obtain ⟨cause, table, herror, rfl⟩ := onTable_eq_finding h
    obtain ⟨type, htype, -, hrefused⟩ := resolveFields_refuses d.fields cause table herror
    exact ⟨table, (resolveFields_moves _ _).error herror,
      fun hresolves => hrefused (hresolves.2 type htype), rfl⟩
  · obtain ⟨table, hfields, rfl⟩ := resolveFields_eq_ok.mp hresolve
    obtain ⟨cause, table', herror, rfl⟩ := onTable_eq_finding h
    have hextends : s.table.Extends table := (resolveFields_moves _ _).ok hfields
    obtain ⟨-, hrefused⟩ := fill_refuses (hextends.form? hform) (hextends.pending ▸ hpending)
      fields cause table' herror
    obtain rfl := fill_eq_error herror
    exact ⟨_, hextends,
      fun hresolves => hrefused ((resolveFields_means d.fields hfields).1 ▸ hresolves.1), rfl⟩

theorem fillStruct_safe (hground : Grounded s.names s.table) : Safe (fillStruct d) s := by
  refine .congr (fillStruct_eq hannotated)
    (orForget_safe _ _ (.bind ?_ fun fields s₁ hresolve => ?_))
  · exact .congr (resolveFields_eq _ _ s) <| onTable_safe (resolveFields_safe d.fields hground)
      ((resolveFields_refuses d.fields).mono fun _ ⟨_, _, hrefused⟩ => hrefused.1)
  · obtain ⟨table, hfields, rfl⟩ := resolveFields_eq_ok.mp hresolve
    have hextends : s.table.Extends table := (resolveFields_moves _ _).ok hfields
    have hform' := hextends.form? hform
    have hpending' : id ∈ table.pending := hextends.pending ▸ hpending
    have hissued := (hground.resolveFields hfields).issuedAll (resolveFields_means _ hfields).2.1
    exact onTable_safe (fill_safe hform' hpending' fun field hfield =>
      hissued field.2 (List.mem_map_of_mem hfield))
      ((fill_refuses hform' hpending' fields).mono fun _ hrefused => hrefused.1)

end Fill

/-- Nothing keeps the type from having a layout: it does not hold itself, and every struct in it is
filled and has its name. -/
def Stands (t : TypeTable) (names : Names) (id : TypeId) : Prop :=
  ¬ TransGen t.HoldsByValue id id ∧ t.Clear (.unbroken names t.pending) id

theorem checkLayout_ends (hannotated : s.annotations.get? d.node = some id)
    (hcanonical : s.table.Canonical) (hid : id.index < s.table.size) :
    Stands s.table s.names id ∧ checkLayout d s = .ok () s ∨
    ¬ Stands s.table s.names id ∧
      ∃ finding, checkLayout d s = .error (.error finding) (forget d.name id s) := by
  obtain ⟨found, hsearch, hfound⟩ := containsItself_ok hcanonical hid
  obtain ⟨broken, hbroken, hclear⟩ := firstBroken?_ok hcanonical s.names hid
  have hfirst : inspect (fun s => s.table.containsItself id) s = .ok found s :=
    inspect_eq_ok.mpr ⟨hsearch, rfl⟩
  have hsecond : inspect (fun s => s.table.firstBroken? s.names id) s = .ok broken s :=
    inspect_eq_ok.mpr ⟨hbroken, rfl⟩
  unfold checkLayout
  rw [bind_of_ok (reservedId_eq_ok hannotated)]
  cases found with
  | true =>
    refine .inr ⟨fun h => h.1 (hfound.mp rfl), ⟨.recursiveStruct d.name, d.span⟩,
      orForget_of_finding ?_⟩
    rw [bind_of_ok hfirst]
    exact bind_of_error (require_of_false _ _ s)
  | false =>
    have hrequire : require (!false) (pure (.recursiveStruct d.name)) d.span s = .ok () s := rfl
    cases broken with
    | none =>
      refine .inl ⟨⟨fun h => Bool.false_ne_true (hfound.mpr h), hclear.mp rfl⟩, orForget_of_ok ?_⟩
      rw [bind_of_ok hfirst, bind_of_ok hrequire, bind_of_ok hsecond]
      rfl
    | some name =>
      refine .inr ⟨fun h => Option.some_ne_none _ (hclear.mpr h.2), ⟨.unknownType name, d.span⟩,
        orForget_of_finding ?_⟩
      rw [bind_of_ok hfirst, bind_of_ok hrequire, bind_of_ok hsecond]
      rfl

/-! ## Invariants of the passes -/

variable {r : Roster} {rest : List (Nat × StructDef)} {finding : Finding}

/-- What all passes over the structs leave alone. -/
structure Steady (r : Roster) (s : State) : Prop where
  canonical : s.table.Canonical
  basis : r.table.SameBasis s.table
  scope : s.scope = .new
  operators : s.operators = .empty
  members : s.members = .empty
  size : s.annotations.size = r.size

/-- The definitions that failed are those with a finding at their place. -/
structure Recorded (r : Roster) (p : Progress) : Prop where
  nodup : p.failed.Nodup
  failed : ∀ node ∈ p.failed, ∃ d ∈ r.defs, d.2.node = node
  found : ∀ d ∈ r.defs, (∃ finding, (d.1, finding) ∈ p.findings) ↔ d.2.node ∈ p.failed

/-- One more definition has failed. -/
def Progress.reject (p : Progress) (state : State) (position : Nat) (d : StructDef)
    (finding : Finding) : Progress :=
  { p with
    state
    failed := d.node :: p.failed
    findings := p.findings ++ [(position, finding)] }

theorem Recorded.reject (h : Recorded r p) (hd : (position, d) ∈ r.defs) (hnew : d.node ∉ p.failed)
    (s : State) (finding : Finding) : Recorded r (p.reject s position d finding) where
  nodup := List.nodup_cons.mpr ⟨hnew, h.nodup⟩
  failed node hnode := by
    obtain rfl | hnode := List.mem_cons.mp hnode
    · exact ⟨_, hd, rfl⟩
    · exact h.failed node hnode
  found other hother := by
    have hplace := r.places other hother _ hd
    simp [Progress.reject, exists_or, h.found other hother, hplace, or_comm]

theorem Recorded.length_le (h : Recorded r p) : p.failed.length ≤ r.defs.length := by
  have hsubset : p.failed ⊆ r.defs.map (·.2.node) := fun node hnode => by
    obtain ⟨d, hd, rfl⟩ := h.failed node hnode
    exact List.mem_map_of_mem hd
  simpa using (h.nodup.subperm hsubset).length_le

/-! ## Declaring -/

/-- While structs are declared: those in `before` are, and the definitions in `rest` are left. -/
structure Declaring (r : Roster) (before : List StructDef) (rest : List (Nat × StructDef))
    (p : Progress) : Prop where
  left : rest <:+ r.defs
  steady : Steady r p.state
  recorded : Recorded r p
  owns : ∀ d ∈ before, ∃ id, p.state.names.get? d.name = some id ∧
    p.state.annotations.get? d.node = some id ∧ id ∈ p.state.table.pending ∧
    ∃ fields, p.state.table.form? id = some (.declared d.name fields)
  named : ∀ name id, p.state.names.get? name = some id → Named before name
  annotated : ∀ node, p.state.annotations.get? node ≠ none → ∃ d ∈ before, d.node = node
  spared : ∀ d ∈ before, d.node ∉ p.failed
  skipped : ∀ d ∈ r.defs, d ∉ rest → d.2.node ∉ p.failed → d.2 ∈ before
  fresh : ∀ d ∈ rest, d.2.node ∉ p.failed ∧ ∀ e ∈ before, e.node ≠ d.2.node

theorem Declaring.isFree_iff (h : Declaring r before rest p) :
    d.IsFree p.state ↔ d.Declares r.table before := by
  have hnew : p.state.names.get? d.name = none ↔ ∀ e ∈ before, e.name ≠ d.name := by
    constructor
    · intro hnone e he heq
      obtain ⟨id, hid, -⟩ := h.owns e he
      rw [heq, hnone] at hid
      cases hid
    · intro hne
      by_contra hbound
      obtain ⟨id, hid⟩ := Option.ne_none_iff_exists'.mp hbound
      obtain ⟨e, he, heq⟩ := h.named d.name id hid
      exact hne e he heq
  unfold StructDef.IsFree StructDef.Declares
  rw [hnew, h.steady.basis.primitive?]
  exact and_congr_right fun _ => and_comm

section DeclaringOne

variable (h : Declaring r before ((position, d) :: rest) p)

include h

theorem Declaring.mem_defs : (position, d) ∈ r.defs := h.left.subset (List.mem_cons_self ..)

theorem Declaring.of_done {other : Nat × StructDef} (hother : other ∈ r.defs)
    (hdone : other ∉ rest) : other = (position, d) ∨
      (other.2.node ∉ p.failed → other.2 ∈ before) := by
  by_cases heq : other = (position, d)
  · exact .inl heq
  · exact .inr (h.skipped other hother (by simp [heq, hdone]))

theorem Declaring.succeed (hdeclares : d.Declares r.table before) :
    ∃ p', p.register position d.node (declareStruct d) = .ok p' ∧
      Declaring r (before ++ [d]) rest p' := by
  obtain ⟨hnew, hnodes⟩ := h.fresh _ (List.mem_cons_self ..)
  have hslot : p.state.annotations.get? d.node = none := by
    by_contra hsome
    obtain ⟨e, he, heq⟩ := h.annotated d.node hsome
    exact hnodes e he heq
  have hrange : d.node.index < p.state.annotations.size := by
    rw [h.steady.size]
    exact r.inRange _ h.mem_defs
  obtain ⟨annotations, hset⟩ : ∃ annotations,
      p.state.annotations.set d.node ⟨p.state.table.size⟩ = .ok annotations :=
    ⟨_, Annotations.set_eq_ok.mpr ⟨hrange, .inl ⟨hslot, rfl⟩⟩⟩
  have hget := Annotations.get?_of_set hset
  refine ⟨_, register_of_ok (declareStruct_of_free (h.isFree_iff.mpr hdeclares) hset), ?_⟩
  constructor
  · exact (List.suffix_cons _ _).trans h.left
  · exact {
      canonical := h.steady.canonical.step (.reserve d.name)
      basis := trans_of SameBasis h.steady.basis (sameBasis_withReserved _ _)
      scope := h.steady.scope
      operators := h.steady.operators
      members := h.steady.members
      size := (Annotations.Grows.of_set (N := fun _ => True) trivial hset).size_eq.trans
        h.steady.size }
  · exact ⟨h.recorded.nodup, h.recorded.failed, h.recorded.found⟩
  · intro e he
    dsimp only
    rw [hget, NameMap.get?_insert]
    obtain he | he := List.mem_append.mp he
    · obtain ⟨id, hid, hannotated, hpending, fields, hform⟩ := h.owns e he
      rw [if_neg (hdeclares.2.2 e he), if_neg (hnodes e he)]
      exact ⟨id, hid, hannotated, List.mem_cons_of_mem _ hpending, fields,
        form?_push_of_some hform⟩
    · obtain rfl := List.mem_singleton.mp he
      rw [if_pos rfl, if_pos rfl]
      exact ⟨_, rfl, rfl, List.mem_cons_self .., [], form?_push.trans (if_pos rfl)⟩
  · intro name id hid
    change (p.state.names.insert _ _).get? name = some id at hid
    rw [NameMap.get?_insert] at hid
    split at hid
    · rename_i heq
      exact ⟨d, by simp, heq.symm⟩
    · obtain ⟨e, he, heq⟩ := h.named name id hid
      exact ⟨e, List.mem_append_left _ he, heq⟩
  · intro node hnode
    change annotations.get? node ≠ none at hnode
    rw [hget] at hnode
    split at hnode
    · rename_i heq
      exact ⟨d, by simp, heq.symm⟩
    · obtain ⟨e, he, heq⟩ := h.annotated node hnode
      exact ⟨e, List.mem_append_left _ he, heq⟩
  · intro e he
    obtain he | he := List.mem_append.mp he
    · exact h.spared e he
    · exact List.mem_singleton.mp he ▸ hnew
  · intro other hother hdone hfailed
    obtain rfl | hold := h.of_done hother hdone
    · simp
    · exact List.mem_append_left _ (hold hfailed)
  · intro other hother
    obtain ⟨hfailed, hnodes'⟩ := h.fresh other (List.mem_cons_of_mem _ hother)
    refine ⟨hfailed, fun e he => ?_⟩
    obtain he | he := List.mem_append.mp he
    · exact hnodes' e he
    · exact List.mem_singleton.mp he ▸ (Roster.node_ne h.left hother).symm

theorem Declaring.fail (hdeclares : ¬ d.Declares r.table before) :
    ∃ p', p.register position d.node (declareStruct d) = .ok p' ∧ Declaring r before rest p' := by
  obtain ⟨hnew, hnodes⟩ := h.fresh _ (List.mem_cons_self ..)
  obtain ⟨finding, hfinding⟩ := declareStruct_of_taken (mt h.isFree_iff.mp hdeclares)
  have hframes : p.state.scope.frames = [] := by rw [h.steady.scope]; rfl
  refine ⟨_, register_of_finding hfinding rfl hframes, ?_⟩
  refine ⟨(List.suffix_cons _ _).trans h.left, h.steady, h.recorded.reject h.mem_defs hnew _ _,
    h.owns, h.named, h.annotated, ?_, ?_, ?_⟩
  · intro e he hfailed
    obtain heq | hfailed := List.mem_cons.mp hfailed
    · exact hnodes e he heq
    · exact h.spared e he hfailed
  · intro other hother hdone hfailed
    obtain ⟨hne, hfailed⟩ := not_or.mp (mt List.mem_cons.mpr hfailed)
    obtain rfl | hold := h.of_done hother hdone
    · exact absurd rfl hne
    · exact hold hfailed
  · intro other hother
    obtain ⟨hfailed, hnodes'⟩ := h.fresh other (List.mem_cons_of_mem _ hother)
    refine ⟨fun hmem => ?_, hnodes'⟩
    obtain heq | hmem := List.mem_cons.mp hmem
    · exact Roster.node_ne h.left hother heq
    · exact hfailed hmem

theorem Declaring.step : ∃ p', p.register position d.node (declareStruct d) = .ok p' ∧
    Declaring r (if d.Declares r.table before then before ++ [d] else before) rest p' := by
  split
  · exact h.succeed ‹_›
  · exact h.fail ‹_›

end DeclaringOne

theorem Declaring.declareStructs (h : Declaring r before rest p) :
    ∃ p', p.declareStructs rest = .ok p' ∧
      Declaring r (declaring r.table before (rest.map (·.2))) [] p' := by
  induction rest generalizing before p with
  | nil => exact ⟨p, rfl, h⟩
  | cons first rest ih =>
    obtain ⟨position, d⟩ := first
    obtain ⟨p₁, hfirst, h₁⟩ := h.step
    obtain ⟨p₂, hrest, h₂⟩ := ih h₁
    exact ⟨p₂, except_bind_eq_ok.mpr ⟨p₁, hfirst, hrest⟩, h₂⟩

theorem Declaring.start (r : Roster) :
    Declaring r [] r.defs ⟨State.start r.table r.size, [], [], []⟩ where
  left := List.suffix_refl _
  steady := ⟨r.canonical, refl_of SameBasis _, rfl, rfl, rfl, Array.size_replicate⟩
  recorded := ⟨List.nodup_nil, nofun, fun d hd => by simp⟩
  owns := nofun
  named := nofun
  annotated node hnode := absurd (Annotations.get?_blank _ node) hnode
  spared := nofun
  skipped d hd hleft := absurd hd hleft
  fresh d hd := ⟨List.not_mem_nil, nofun⟩

end RuleTypes.Check
