import Mathlib.Order.Bounds.Basic
import RuleTypes.Proofs.Check.Structs

/-!
# Structs that survive registration

Structs that cannot stand are found at different times: a field type is refused when the struct is
filled if it names a struct that has failed before, and in one of the rounds of the layout check if
that one fails later. Whatever the order, a definition that fails is in no set that can stand
(`Standing.spared`), and when a round changes nothing, those that are left can stand together
(`Built.viable`). So the structs that survive are the greatest set that can.
-/

namespace RuleTypes.Check

open Relation TypeTable TypeExpr

variable {r : Roster} {s s' : State} {p p' : Progress} {d e : StructDef} {position : Nat}
  {id : TypeId} {names : Names} {table : TypeTable} {type : TypeExpr} {S : Set StructDef}
  {rest : List (Nat × StructDef)}

/-! ## Declared structs and their types -/

/-- The definition has got the type, where the declared structs had the names. -/
structure Owns (r : Roster) (names : Names) (s : State) (d : StructDef) (id : TypeId) : Prop where
  named : names.get? d.name = some id
  annotated : s.annotations.get? d.node = some id
  declared : ∃ fields, s.table.form? id = some (.declared d.name fields) ∧
    (id ∉ s.table.pending → d.Resolves r.table (Named r.declared) ∧
      fields.map (·.1) = d.fields.map (·.1) ∧
      DenotesAll names s.table d.types (fields.map (·.2)))

theorem Owns.eq (h : Owns r names s d id) {id' : TypeId} (h' : Owns r names s d id') : id = id' :=
  Option.some.inj (h.named.symm.trans h'.named)

theorem Owns.name_eq (h : Owns r names s d id) {name : String} {fields : List (String × TypeId)}
    (hform : s.table.form? id = some (.declared name fields)) : d.name = name := by
  obtain ⟨_, hform', -⟩ := h.declared
  cases hform.symm.trans hform'
  rfl

theorem Owns.def_eq (h : Owns r names s d id) (h' : Owns r names s e id) (hd : d ∈ r.declared)
    (he : e ∈ r.declared) : d = e := by
  obtain ⟨_, hform, -⟩ := h'.declared
  exact Roster.eq_of_name hd he (h.name_eq hform)

theorem Owns.issued (h : Owns r names s d id) : id.index < s.table.size := by
  obtain ⟨_, hform, -⟩ := h.declared
  exact form?_eq_some_lt hform

theorem Owns.extends (h : Owns r names s d id) (hannotations : s'.annotations = s.annotations)
    (hextends : s.table.Extends s'.table) : Owns r names s' d id := by
  obtain ⟨fields, hform, hfilled⟩ := h.declared
  refine ⟨h.named, hannotations ▸ h.annotated, fields, hextends.form? hform, fun hsealed => ?_⟩
  obtain ⟨hresolves, hfields, hdenotes⟩ := hfilled (hextends.pending ▸ hsealed)
  exact ⟨hresolves, hfields, hdenotes.grows hextends.grows⟩

/-- What holds while structs are filled and their layouts are checked; `names` are the names of all
structs that were declared. -/
structure Standing (r : Roster) (names : Names) (p : Progress) : Prop where
  steady : Steady r p.state
  recorded : Recorded r p
  owns : ∀ d ∈ r.declared, ∃ id, Owns r names p.state d id
  named : ∀ name id, names.get? name = some id → Named r.declared name
  /-- The structs that have not failed have their names. -/
  bound : ∀ name id, p.state.names.get? name = some id ↔
    names.get? name = some id ∧ ∃ d ∈ r.declared, d.name = name ∧ d.node ∉ p.failed
  annotated : ∀ node, p.state.annotations.get? node ≠ none → ∃ d ∈ r.declared, d.node = node
  skipped : ∀ d ∈ r.defs, d.2.node ∉ p.failed → d.2 ∈ r.declared
  /-- A struct fails only if it is in no set that can stand. -/
  spared : ∀ S, Viable r.table r.declared S → ∀ d ∈ S, d.node ∉ p.failed

theorem Declaring.standing (h : Declaring r r.declared [] p) : Standing r p.state.names p where
  steady := h.steady
  recorded := h.recorded
  owns d hd := by
    obtain ⟨id, hid, hannotated, hpending, fields, hform⟩ := h.owns d hd
    exact ⟨id, hid, hannotated, fields, hform, absurd hpending⟩
  named := h.named
  bound name id := by
    refine ⟨fun hid => ⟨hid, ?_⟩, And.left⟩
    obtain ⟨d, hd, heq⟩ := h.named name id hid
    exact ⟨d, hd, heq, h.spared d hd⟩
  annotated := h.annotated
  skipped d hd := h.skipped d hd List.not_mem_nil
  spared S hS d hd := h.spared d (hS.declared d hd)

namespace Standing

variable (h : Standing r names p)

include h

theorem form?_of_named {name : String} (hid : names.get? name = some id) :
    ∃ fields, p.state.table.form? id = some (.declared name fields) := by
  obtain ⟨d, hd, rfl⟩ := h.named name id hid
  obtain ⟨id', howns⟩ := h.owns d hd
  obtain ⟨fields, hform, -⟩ := howns.declared
  obtain rfl : id' = id := Option.some.inj (howns.named.symm.trans hid)
  exact ⟨fields, hform⟩

theorem grounded (hslices : r.table.generics.get? Form.sliceName = some 1) :
    Grounded p.state.names p.state.table where
  named name id hid := by
    obtain ⟨fields, hform⟩ := h.form?_of_named ((h.bound name id).mp hid).1
    exact form?_eq_some_lt hform
  noValue := form?_eq_some_lt h.steady.canonical.noValue
  slices := h.steady.basis.generics ▸ hslices

/-- Declared structs are denoted by their names only. -/
theorem owns_of_denotes {name : String} {fields : List (String × TypeId)}
    (hdenotes : Denotes names p.state.table type id)
    (hform : p.state.table.form? id = some (.declared name fields)) :
    ∃ d ∈ r.declared, type = .named d.name ∧ Owns r names p.state d id := by
  cases hdenotes with
  | declared hname =>
    obtain ⟨d, hd, rfl⟩ := h.named _ _ hname
    obtain ⟨id', howns⟩ := h.owns d hd
    obtain rfl : id' = id := Option.some.inj (howns.named.symm.trans hname)
    exact ⟨d, hd, rfl, howns⟩
  | primitive hform' => cases hform.symm.trans hform'
  | compound hids hform' hlength =>
    have hdeclared := (composes_of_form? hids hlength).declared
    rw [← Option.some.inj (hform.symm.trans hform')] at hdeclared
    cases hdeclared

theorem get?_names (hd : d ∈ r.declared) (hnew : d.node ∉ p.failed)
    (howns : Owns r names p.state d id) : p.state.names.get? d.name = some id :=
  (h.bound d.name id).mpr ⟨howns.named, d, hd, rfl, hnew⟩

theorem forget_eq (hd : d ∈ r.declared) (hnew : d.node ∉ p.failed)
    (howns : Owns r names p.state d id) (table : TypeTable) :
    forget d.name id { p.state with table } =
      { p.state with table, names := p.state.names.erase d.name } :=
  if_pos (h.get?_names hd hnew howns)

/-- A struct is dropped, and the table may have grown on the way. -/
theorem reject (hd : (position, d) ∈ r.defs) (hnew : d.node ∉ p.failed)
    (howns : Owns r names p.state d id) (hextends : p.state.table.Extends table)
    (hdoomed : ∀ S, Viable r.table r.declared S → d ∉ S) (finding : Finding) :
    Standing r names (p.reject { p.state with table, names := p.state.names.erase d.name }
      position d finding) := by
  have hdeclared : d ∈ r.declared := h.skipped _ hd hnew
  constructor
  · exact {
      canonical := h.steady.canonical.extends hextends
      basis := trans_of SameBasis h.steady.basis hextends.sameBasis
      scope := h.steady.scope
      operators := h.steady.operators
      members := h.steady.members
      size := h.steady.size }
  · exact h.recorded.reject hd hnew _ _
  · intro e he
    obtain ⟨id', howns'⟩ := h.owns e he
    exact ⟨id', howns'.extends rfl hextends⟩
  · exact h.named
  · intro name other
    change (p.state.names.erase d.name).get? name = some other ↔ _
    rw [NameMap.get?_erase]
    split
    · rename_i heq
      refine iff_of_false nofun ?_
      rintro ⟨-, e, he, hname, hfailed⟩
      obtain rfl := Roster.eq_of_name he hdeclared (hname.trans heq)
      exact hfailed (List.mem_cons_self ..)
    · rename_i hne
      rw [h.bound]
      refine and_congr_right fun _ => exists_congr fun e => and_congr_right fun he =>
        and_congr_right fun hname => ?_
      have hnode : e.node ≠ d.node := by
        intro heq
        exact hne (hname ▸ congrArg StructDef.name (Roster.eq_of_node he hdeclared heq))
      simp [Progress.reject, hnode]
  · exact h.annotated
  · intro other hother hfailed
    exact h.skipped other hother fun hmem => hfailed (List.mem_cons_of_mem _ hmem)
  · intro S hS e he hfailed
    obtain heq | hfailed := List.mem_cons.mp hfailed
    · exact hdoomed S hS (Roster.eq_of_node (hS.declared e he) hdeclared heq ▸ he)
    · exact h.spared S hS e he hfailed

/-- A struct is filled. -/
theorem fill (hd : d ∈ r.declared) (howns : Owns r names p.state d id)
    (hextends : p.state.table.Extends table)
    (hresolves : d.Resolves p.state.table (Bound p.state.names)) {fields : List (String × TypeId)}
    (hfields : fields.map (·.1) = d.fields.map (·.1))
    (hdenotes : DenotesAll p.state.names table d.types (fields.map (·.2)))
    (hstep : table.Step (table.withFilled id fields)) :
    Standing r names
      { p with state := { p.state with table := table.withFilled id fields } } := by
  obtain ⟨old, hform, -⟩ := howns.declared
  have hform := hextends.form? hform
  constructor
  · exact {
      canonical := (h.steady.canonical.extends hextends).step hstep
      basis := trans_of SameBasis (trans_of SameBasis h.steady.basis hextends.sameBasis)
        (sameBasis_withFilled _ _ _)
      scope := h.steady.scope
      operators := h.steady.operators
      members := h.steady.members
      size := h.steady.size }
  · exact ⟨h.recorded.nodup, h.recorded.failed, h.recorded.found⟩
  · intro e he
    obtain ⟨id', howns'⟩ := h.owns e he
    refine ⟨id', howns'.named, howns'.annotated, ?_⟩
    change ∃ fields', (table.withFilled id fields).form? id' = _ ∧ _
    rw [form?_withFilled hform]
    split
    · rename_i heq
      obtain rfl := Owns.def_eq (heq ▸ howns') howns he hd
      refine ⟨fields, rfl, fun _ => ⟨⟨hresolves.1, fun type htype => ?_⟩, hfields, ?_⟩⟩
      · refine ((hresolves.2 type htype).of_basis h.steady.basis).mono (fun name _ hname => ?_)
          (refl_of SameBasis _)
        obtain ⟨bound, hbound⟩ := NameMap.contains_eq_true_iff.mp hname
        exact h.named name bound ((h.bound name bound).mp hbound).1
      · exact (hdenotes.of_names fun _ _ name id _ hid => ((h.bound name id).mp hid).1).grows
          (.single hstep)
    · rename_i hne
      have howns'' : Owns r names { p.state with table } e id' := howns'.extends rfl hextends
      obtain ⟨fields', hform', hfilled⟩ := howns''.declared
      refine ⟨fields', hform', fun hsealed => ?_⟩
      obtain ⟨hresolves', hnames', hdenotes'⟩ := hfilled fun hpending =>
        hsealed (List.mem_filter.mpr ⟨hpending, by simpa using hne⟩)
      exact ⟨hresolves', hnames', hdenotes'.grows (.single hstep)⟩
  · exact h.named
  · exact h.bound
  · exact h.annotated
  · exact h.skipped
  · exact h.spared

end Standing

/-! ## Filling -/

/-- While structs are filled: those that have not failed are pending as long as they are in the
rest. -/
structure Filling (r : Roster) (names : Names) (rest : List (Nat × StructDef)) (p : Progress) :
    Prop where
  left : rest <:+ r.defs
  standing : Standing r names p
  pending : ∀ d ∈ r.declared, d.node ∉ p.failed → ∀ id, names.get? d.name = some id →
    (id ∈ p.state.table.pending ↔ ∃ position, (position, d) ∈ rest)

theorem Declaring.filling (h : Declaring r r.declared [] p) :
    Filling r p.state.names r.defs p where
  left := List.suffix_refl _
  standing := h.standing
  pending d hd _ id hid := by
    obtain ⟨id', hid', -, hpending, -⟩ := h.owns d hd
    obtain rfl : id = id' := Option.some.inj (hid.symm.trans hid')
    exact iff_of_true hpending (Roster.mem_defs hd)

/-- The field types of a struct that can stand resolve at any time. -/
theorem Standing.resolves (h : Standing r names p) (hS : Viable r.table r.declared S)
    (hd : d ∈ S) : d.Resolves p.state.table (Bound p.state.names) := by
  refine ⟨(hS.resolves d hd).1, fun type htype => ?_⟩
  refine ((hS.resolves d hd).2 type htype).mono (fun name hhas hname => ?_) h.steady.basis
  obtain ⟨e, he, rfl⟩ := hname
  obtain ⟨id, howns⟩ := h.owns e he
  have hspared := h.spared S hS e (hS.closed d hd type htype e he hhas)
  exact NameMap.contains_eq_true_iff.mpr ⟨id, h.get?_names he hspared howns⟩

namespace Filling

theorem skip (h : Filling r names ((position, d) :: rest) p) (hfailed : d.node ∈ p.failed) :
    Filling r names rest p where
  left := (List.suffix_cons _ _).trans h.left
  standing := h.standing
  pending e he hnew id hid := by
    have hne : e ≠ d := fun heq => hnew (heq ▸ hfailed)
    rw [h.pending e he hnew id hid]
    simp [hne]

theorem safe (hslices : r.table.generics.get? Form.sliceName = some 1)
    (h : Filling r names ((position, d) :: rest) p) (hnew : d.node ∉ p.failed) :
    Safe (fillStruct d) p.state := by
  have hd : d ∈ r.declared :=
    h.standing.skipped _ (h.left.subset (List.mem_cons_self ..)) hnew
  obtain ⟨id, howns⟩ := h.standing.owns d hd
  obtain ⟨old, hform, -⟩ := howns.declared
  have hpending := (h.pending d hd hnew id howns.named).mpr ⟨position, List.mem_cons_self ..⟩
  exact fillStruct_safe howns.annotated hform hpending (h.standing.grounded hslices)

theorem step (h : Filling r names ((position, d) :: rest) p) (hnew : d.node ∉ p.failed)
    (hsafe : Safe (fillStruct d) p.state) :
    ∃ p', p.register position d.node (fillStruct d) = .ok p' ∧ Filling r names rest p' := by
  have hmem : (position, d) ∈ r.defs := h.left.subset (List.mem_cons_self ..)
  have hleft : rest <:+ r.defs := (List.suffix_cons _ _).trans h.left
  have hd : d ∈ r.declared := h.standing.skipped _ hmem hnew
  obtain ⟨id, howns⟩ := h.standing.owns d hd
  obtain ⟨old, hform, -⟩ := howns.declared
  have hpending := (h.pending d hd hnew id howns.named).mpr ⟨position, List.mem_cons_self ..⟩
  obtain ⟨_, s', hok⟩ | ⟨finding, s', herror⟩ := hsafe.ends
  · obtain ⟨fields, table, hextends, hresolves, hfields, hdenotes, hstep, rfl⟩ :=
      fillStruct_eq_ok howns.annotated hok
    refine ⟨_, register_of_ok hok, hleft,
      h.standing.fill hd howns hextends hresolves hfields hdenotes hstep, ?_⟩
    intro e he hfailed id' hid'
    change id' ∈ table.pending.filter (· ≠ id) ↔ _
    rw [List.mem_filter, hextends.pending, h.pending e he hfailed id' hid']
    by_cases heq : e = d
    · subst heq
      obtain rfl : id = id' := Option.some.inj (howns.named.symm.trans hid')
      simpa using fun place hplace => Roster.node_ne h.left hplace rfl
    · have hne : id' ≠ id := by
        rintro rfl
        obtain ⟨found, hfound⟩ := h.standing.owns e he
        obtain rfl : found = id' := Option.some.inj (hfound.named.symm.trans hid')
        exact heq (hfound.def_eq howns he hd)
      simp [heq, hne]
  · obtain ⟨table, hextends, hresolves, rfl⟩ :=
      fillStruct_eq_finding howns.annotated hform hpending herror
    rw [h.standing.forget_eq hd hnew howns] at herror
    have hframes : p.state.scope.frames = [] := by rw [h.standing.steady.scope]; rfl
    refine ⟨_, register_of_finding herror rfl hframes, hleft, ?_, ?_⟩
    · exact h.standing.reject hmem hnew howns hextends
        (fun S hS hS' => hresolves (h.standing.resolves hS hS')) finding
    · intro e he hfailed id' hid'
      obtain ⟨hnode, hfailed⟩ := not_or.mp (mt List.mem_cons.mpr hfailed)
      have hne : e ≠ d := fun heq => hnode (heq ▸ rfl)
      change id' ∈ table.pending ↔ _
      rw [hextends.pending, h.pending e he hfailed id' hid']
      simp [hne]

theorem of_registerStructs (h : Filling r names rest p)
    (hok : p.registerStructs fillStruct rest = .ok p') : Filling r names [] p' := by
  induction rest generalizing p with
  | nil =>
    cases hok
    exact h
  | cons first rest ih =>
    obtain ⟨position, d⟩ := first
    unfold Progress.registerStructs at hok
    by_cases hfailed : d.node ∈ p.failed
    · rw [if_pos (by simpa using hfailed)] at hok
      exact ih (h.skip hfailed) hok
    · rw [if_neg (by simpa using hfailed)] at hok
      obtain ⟨p₁, hfirst, hrest⟩ := except_bind_eq_ok.mp hok
      obtain ⟨p₂, hstep, h₂⟩ := h.step hfailed (safe_of_register hfirst)
      obtain rfl : p₂ = p₁ := Except.ok.inj (hstep.symm.trans hfirst)
      exact ih h₂ hrest

theorem registerStructs_ends (hslices : r.table.generics.get? Form.sliceName = some 1)
    (h : Filling r names rest p) : ∃ p', p.registerStructs fillStruct rest = .ok p' := by
  induction rest generalizing p with
  | nil => exact ⟨p, rfl⟩
  | cons first rest ih =>
    obtain ⟨position, d⟩ := first
    unfold Progress.registerStructs
    by_cases hfailed : d.node ∈ p.failed
    · rw [if_pos (by simpa using hfailed)]
      exact ih (h.skip hfailed)
    · rw [if_neg (by simpa using hfailed)]
      obtain ⟨p₁, hfirst, h₁⟩ := h.step hfailed (h.safe hslices hfailed)
      obtain ⟨p₂, hrest⟩ := ih h₁
      exact ⟨p₂, except_bind_eq_ok.mpr ⟨p₁, hfirst, hrest⟩⟩

end Filling

/-! ## Layouts -/

/-- All structs that have not failed are filled. -/
structure Built (r : Roster) (names : Names) (p : Progress) : Prop where
  standing : Standing r names p
  filled : ∀ d ∈ r.declared, d.node ∉ p.failed → ∀ id, names.get? d.name = some id →
    id ∉ p.state.table.pending

theorem Filling.built (h : Filling r names [] p) : Built r names p where
  standing := h.standing
  filled d hd hnew id hid hpending := by
    obtain ⟨_, hmem⟩ := (h.pending d hd hnew id hid).mp hpending
    cases hmem

namespace Built

variable (h : Built r names p)

include h

/-- The fields of a struct and their types. -/
theorem fields (hd : d ∈ r.declared) (hnew : d.node ∉ p.failed)
    (howns : Owns r names p.state d id) :
    ∃ fields, p.state.table.form? id = some (.declared d.name fields) ∧
      d.Resolves r.table (Named r.declared) ∧ fields.map (·.1) = d.fields.map (·.1) ∧
      DenotesAll names p.state.table d.types (fields.map (·.2)) := by
  obtain ⟨fields, hform, hfilled⟩ := howns.declared
  exact ⟨fields, hform, hfilled (h.filled d hd hnew id howns.named)⟩

/-- What a struct that can stand is made of has a layout. -/
theorem clear_of_viable (hS : Viable r.table r.declared S) (hd : d ∈ S)
    (howns : Owns r names p.state d id) :
    p.state.table.Clear (.unbroken p.state.names p.state.table.pending) id := by
  -- everything denoted by types that name only structs of the set
  refine clear_of_closed (P := fun id => id = .noValue ∨ ∃ type : TypeExpr,
    Denotes names p.state.table type id ∧ ∀ e ∈ r.declared, type.Has (.named e.name) → e ∈ S)
    (fun id hid => ?_) (.inr ⟨.named d.name, .declared howns.named, fun e he hhas => ?_⟩)
  · obtain rfl | ⟨type, hdenotes, hwithin⟩ := hid
    · exact ⟨.noValue, h.standing.steady.canonical.noValue, nofun, nofun⟩
    have hissued := hdenotes.issued fun name id hid => by
      obtain ⟨fields, hform⟩ := h.standing.form?_of_named hid
      exact form?_eq_some_lt hform
    obtain ⟨form, hform⟩ := exists_form?_of_lt hissued
    refine ⟨form, hform, ?_⟩
    cases hdeclared : form.isDeclared with
    | false =>
      refine ⟨fun name fields heq => ?_, fun part hpart => ?_⟩
      · rw [heq] at hdeclared
        cases hdeclared
      · obtain rfl | ⟨partType, hmem, hpart⟩ := hdenotes.part_of_mentions
          (fun _ _ => h.standing.form?_of_named) hform hdeclared hpart
        · exact .inl rfl
        · exact .inr ⟨partType, hpart, fun e he hhas => hwithin e he (.head hmem hhas)⟩
    | true =>
      cases form with
      | declared name fields =>
        obtain ⟨e, he, rfl, howns⟩ := h.standing.owns_of_denotes hdenotes hform
        have heS := hwithin e he .refl
        have hnew := h.standing.spared S hS e heS
        obtain ⟨fields', hform', -, -, hfields⟩ := h.fields he hnew howns
        cases hform.symm.trans hform'
        refine ⟨fun name fields heq => ?_, fun part hpart => ?_⟩
        · cases heq
          exact ⟨h.filled e he hnew id howns.named, h.standing.get?_names he hnew howns⟩
        · obtain ⟨partType, hmem, hpart⟩ := hfields.exists_type hpart
          exact .inr ⟨partType, hpart, hS.closed e heS partType hmem⟩
      | _ => cases hdeclared
  · obtain heq | ⟨part, hpart, -⟩ := ReflTransGen.cases_head hhas
    · have hname : e.name = d.name := (TypeExpr.named.inj heq).symm
      exact Roster.eq_of_name he (hS.declared d hd) hname ▸ hd
    · cases hpart

/-- What a struct holds by value is held by value in its definition, or in one that it contains. -/
theorem exists_type_of_holds (hS : Viable r.table r.declared S) (hd : d ∈ S)
    (howns : Owns r names p.state d id) {part : TypeId}
    (hpart : TransGen p.state.table.HoldsByValue id part) :
    ∃ e ∈ S, ReflTransGen (Contains r.declared) d e ∧ ∃ field ∈ e.types, ∃ type,
      field.HasByValue type ∧ Denotes names p.state.table type part := by
  -- the values of a struct in the set are denoted by the types of its fields
  have hfields : ∀ {e id part}, e ∈ S → Owns r names p.state e id →
      p.state.table.HoldsByValue id part → ∃ field ∈ e.types,
        Denotes names p.state.table field part := by
    rintro e id part he howns ⟨form, hform, hmem⟩
    obtain ⟨fields, hform', -, -, hfields⟩ :=
      h.fields (hS.declared e he) (h.standing.spared S hS e he) howns
    cases hform.symm.trans hform'
    exact hfields.exists_type hmem
  induction hpart with
  | single hholds =>
    obtain ⟨field, hfield, hdenotes⟩ := hfields hd howns hholds
    exact ⟨d, hd, .refl, field, hfield, field, .refl, hdenotes⟩
  | @tail part next _ hholds ih =>
    obtain ⟨e, he, hreached, field, hfield, type, hhas, hdenotes⟩ := ih
    have hholds' := hholds
    obtain ⟨form, hform, hmem⟩ := hholds'
    cases hdeclared : form.isDeclared with
    | false =>
      obtain ⟨partType, hvalue, hpart⟩ := hdenotes.value_of_holds
        (fun _ _ => h.standing.form?_of_named) hform hdeclared hmem
      exact ⟨e, he, hreached, field, hfield, partType, hhas.tail hvalue, hpart⟩
    | true =>
      cases form with
      | declared name fields =>
        obtain ⟨inner, hinner, rfl, howns'⟩ := h.standing.owns_of_denotes hdenotes hform
        have hinnerS := hS.closed e he field hfield inner hinner hhas.has
        obtain ⟨field', hfield', hdenotes'⟩ := hfields hinnerS howns' hholds
        exact ⟨inner, hinnerS, hreached.tail ⟨hinner, field, hfield, hhas⟩, field', hfield',
          field', .refl, hdenotes'⟩
      | _ => cases hdeclared

theorem stands_of_viable (hS : Viable r.table r.declared S) (hd : d ∈ S)
    (howns : Owns r names p.state d id) : Stands p.state.table p.state.names id := by
  refine ⟨fun hcycle => ?_, h.clear_of_viable hS hd howns⟩
  obtain ⟨e, he, hreached, field, hfield, type, hhas, hdenotes⟩ :=
    h.exists_type_of_holds hS hd howns hcycle
  obtain ⟨fields, hform, -⟩ := howns.declared
  obtain ⟨inner, hinner, rfl, howns'⟩ := h.standing.owns_of_denotes hdenotes hform
  obtain rfl := howns'.def_eq howns hinner (hS.declared d hd)
  exact hS.acyclic inner hd (TransGen.tail' hreached ⟨hinner, field, hfield, hhas⟩)

end Built

/-- The definitions of the structs that have not failed. -/
def survivors (r : Roster) (p : Progress) : Set StructDef :=
  { d | d ∈ r.declared ∧ d.node ∉ p.failed }

namespace Built

variable (h : Built r names p) (hstands : ∀ d ∈ survivors r p, ∀ id, Owns r names p.state d id →
  Stands p.state.table p.state.names id)

include h hstands

theorem closed (hd : d ∈ survivors r p) {field : TypeExpr} (hfield : field ∈ d.types)
    (he : e ∈ r.declared) (hhas : field.Has (.named e.name)) : e ∈ survivors r p := by
  obtain ⟨id, howns⟩ := h.standing.owns d hd.1
  obtain ⟨fields, hform, -, -, hfields⟩ := h.fields hd.1 hd.2 howns
  obtain ⟨part, hpart, hdenotes⟩ := hfields.exists_id hfield
  obtain ⟨inner, hreached, hdenotes⟩ := hdenotes.mentions_of_has hhas
  obtain ⟨other, howns'⟩ := h.standing.owns e he
  have hfree : p.state.table.primitive? e.name = none :=
    (h.standing.steady.basis.primitive? _).trans (Roster.primitive?_eq_none he)
  obtain rfl := hdenotes.eq_of_named howns'.named hfree
  obtain ⟨form, hform', hallows⟩ :=
    (hstands d hd id howns).2 inner (.head ⟨_, hform, hpart⟩ hreached)
  obtain ⟨fields', hform'', -⟩ := howns'.declared
  obtain ⟨-, hbound⟩ := hallows _ _ (Option.some.inj (hform'.symm.trans hform''))
  obtain ⟨-, e', he', hname, hnew⟩ := (h.standing.bound _ _).mp hbound
  obtain rfl := Roster.eq_of_name he' he hname
  exact ⟨he', hnew⟩

/-- Containment of structs that are left shows in their types. -/
theorem holds_of_contains (hd : d ∈ survivors r p) (hde : TransGen (Contains r.declared) d e)
    (howns : Owns r names p.state d id) : e ∈ survivors r p ∧
      ∃ other, Owns r names p.state e other ∧ TransGen p.state.table.HoldsByValue id other := by
  have hone : ∀ {d e id}, d ∈ survivors r p → Contains r.declared d e →
      Owns r names p.state d id → e ∈ survivors r p ∧
        ∃ other, Owns r names p.state e other ∧ TransGen p.state.table.HoldsByValue id other := by
    rintro d e id hd ⟨he, field, hfield, hhas⟩ howns
    obtain ⟨fields, hform, -, -, hfields⟩ := h.fields hd.1 hd.2 howns
    obtain ⟨part, hpart, hdenotes⟩ := hfields.exists_id hfield
    obtain ⟨inner, hreached, hdenotes⟩ := hdenotes.holds_of_hasByValue hhas
    obtain ⟨other, howns'⟩ := h.standing.owns e he
    have hfree : p.state.table.primitive? e.name = none :=
      (h.standing.steady.basis.primitive? _).trans (Roster.primitive?_eq_none he)
    obtain rfl := hdenotes.eq_of_named howns'.named hfree
    exact ⟨h.closed hstands hd hfield he hhas.has, inner, howns',
      TransGen.head' ⟨_, hform, hpart⟩ hreached⟩
  induction hde with
  | single hde => exact hone hd hde howns
  | tail _ hde ih =>
    obtain ⟨hmid, mid, hownsMid, hreached⟩ := ih
    obtain ⟨he, other, howns', hrest⟩ := hone hmid hde hownsMid
    exact ⟨he, other, howns', hreached.trans hrest⟩

/-- **The structs that are left can stand together** when all their layouts are sound. -/
theorem viable : Viable r.table r.declared (survivors r p) where
  declared d hd := hd.1
  resolves d hd := by
    obtain ⟨id, howns⟩ := h.standing.owns d hd.1
    obtain ⟨fields, -, hresolves, -⟩ := h.fields hd.1 hd.2 howns
    exact hresolves
  closed d hd type htype e he hhas := h.closed hstands hd htype he hhas
  acyclic d hd hcycle := by
    obtain ⟨id, howns⟩ := h.standing.owns d hd.1
    obtain ⟨-, other, howns', hholds⟩ := h.holds_of_contains hstands hd hcycle howns
    obtain rfl := howns.eq howns'
    exact (hstands d hd id howns).1 hholds

end Built

/-! ## Rounds -/

theorem Built.step (h : Built r names p) (hd : (position, d) ∈ r.defs)
    (hnew : d.node ∉ p.failed) :
    (∃ id, Owns r names p.state d id ∧ Stands p.state.table p.state.names id ∧
      p.register position d.node (checkLayout d) = .ok p) ∨
    ∃ p', p.register position d.node (checkLayout d) = .ok p' ∧ Built r names p' ∧
      p'.failed = d.node :: p.failed := by
  have hdeclared : d ∈ r.declared := h.standing.skipped _ hd hnew
  obtain ⟨id, howns⟩ := h.standing.owns d hdeclared
  obtain ⟨hstands, hok⟩ | ⟨hstands, finding, herror⟩ :=
    checkLayout_ends howns.annotated h.standing.steady.canonical howns.issued
  · exact .inl ⟨id, howns, hstands, register_of_ok hok⟩
  · have hforget := h.standing.forget_eq hdeclared hnew howns p.state.table
    rw [hforget] at herror
    have hframes : p.state.scope.frames = [] := by rw [h.standing.steady.scope]; rfl
    refine .inr ⟨_, register_of_finding herror rfl hframes, ⟨?_, ?_⟩, rfl⟩
    · exact h.standing.reject hd hnew howns (.refl _)
        (fun S hS hS' => hstands (h.stands_of_viable hS hS' howns)) finding
    · intro e he hfailed id hid
      exact h.filled e he (fun hmem => hfailed (List.mem_cons_of_mem _ hmem)) id hid

/-- A round after which as many structs have failed as before has changed nothing, and found all
layouts to be sound. -/
theorem Built.round (h : Built r names p) (hrest : rest ⊆ r.defs) :
    ∃ p', p.registerStructs checkLayout rest = .ok p' ∧ Built r names p' ∧
      p.failed.length ≤ p'.failed.length ∧ (p'.failed.length = p.failed.length → p' = p ∧
        ∀ d ∈ rest, d.2.node ∉ p.failed → ∀ id, Owns r names p.state d.2 id →
          Stands p.state.table p.state.names id) := by
  induction rest generalizing p with
  | nil => exact ⟨p, rfl, h, Nat.le_refl _, fun _ => ⟨rfl, nofun⟩⟩
  | cons first rest ih =>
    obtain ⟨position, d⟩ := first
    obtain ⟨hd, hrest⟩ := List.cons_subset.mp hrest
    unfold Progress.registerStructs
    by_cases hfailed : d.node ∈ p.failed
    · rw [if_pos (by simpa using hfailed)]
      obtain ⟨p', hok, h', hle, hsame⟩ := ih h hrest
      refine ⟨p', hok, h', hle, fun heq => ?_⟩
      obtain ⟨rfl, hstands⟩ := hsame heq
      exact ⟨rfl, List.forall_mem_cons.mpr ⟨absurd hfailed, hstands⟩⟩
    · rw [if_neg (by simpa using hfailed)]
      obtain ⟨id, howns, hstands, hok⟩ | ⟨p₁, hok, h₁, hgrown⟩ := h.step hd hfailed
      · obtain ⟨p', hok', h', hle, hsame⟩ := ih h hrest
        refine ⟨p', except_bind_eq_ok.mpr ⟨p, hok, hok'⟩, h', hle, fun heq => ?_⟩
        obtain ⟨rfl, hstands'⟩ := hsame heq
        refine ⟨rfl, List.forall_mem_cons.mpr ⟨fun _ id' howns' => ?_, hstands'⟩⟩
        exact howns.eq howns' ▸ hstands
      · obtain ⟨p', hok', h', hle, -⟩ := ih h₁ hrest
        have hlength : p₁.failed.length = p.failed.length + 1 := by rw [hgrown, List.length_cons]
        exact ⟨p', except_bind_eq_ok.mpr ⟨p₁, hok, hok'⟩, h', by omega, fun heq => by omega⟩

/-- Every round but the last drops a struct, so there are enough of them. -/
theorem Built.checkLayouts (h : Built r names p) {rounds : Nat}
    (hrounds : r.defs.length < p.failed.length + rounds) :
    ∃ p', p.checkLayouts r.defs rounds = .ok p' ∧ Built r names p' ∧
      ∀ d ∈ survivors r p', ∀ id, Owns r names p'.state d id →
        Stands p'.state.table p'.state.names id := by
  induction rounds generalizing p with
  | zero =>
    have hle := h.standing.recorded.length_le
    omega
  | succ rounds ih =>
    obtain ⟨p₁, hok, h₁, hle, hsame⟩ := h.round (List.Subset.refl r.defs)
    unfold Progress.checkLayouts
    by_cases heq : p₁.failed.length = p.failed.length
    · obtain ⟨rfl, hstands⟩ := hsame heq
      refine ⟨p₁, except_bind_eq_ok.mpr ⟨p₁, hok, if_pos heq⟩, h₁, fun d hd id howns => ?_⟩
      obtain ⟨position, hmem⟩ := Roster.mem_defs hd.1
      exact hstands _ hmem hd.2 id howns
    · obtain ⟨p', hok', h', hstands⟩ := ih h₁ (by omega)
      exact ⟨p', except_bind_eq_ok.mpr ⟨p₁, hok, (if_neg heq).trans hok'⟩, h', hstands⟩

/-- The passes over structs are over: the layouts of all that are left are sound. -/
structure Settled (r : Roster) (names : Names) (p : Progress) : Prop where
  built : Built r names p
  stands : ∀ d ∈ survivors r p, ∀ id, Owns r names p.state d id →
    Stands p.state.table p.state.names id

theorem Settled.isGreatest (h : Settled r names p) :
    IsGreatest { S | Viable r.table r.declared S } (survivors r p) :=
  ⟨h.built.viable h.stands, fun S hS d hd => ⟨hS.declared d hd, h.built.standing.spared S hS d hd⟩⟩

section Registered

variable {cx : Setting} {items : List Item} (hdefs : items.filterMap Item.structDef? = r.defs)
  (hsize : cx.arena.size = r.size)

include hdefs hsize

/-- **Structs that are registered are settled.** -/
theorem Roster.settled (h : structsRegistered cx items r.table = .ok p) :
    ∃ names, Settled r names p := by
  unfold structsRegistered at h
  rw [hdefs, hsize] at h
  obtain ⟨p₁, hdeclare, h⟩ := except_bind_eq_ok.mp h
  obtain ⟨p₂, hfill, hlayouts⟩ := except_bind_eq_ok.mp h
  obtain ⟨q₁, hdeclare', hdeclaring⟩ := (Declaring.start r).declareStructs
  obtain rfl : q₁ = p₁ := Except.ok.inj (hdeclare'.symm.trans hdeclare)
  have hbuilt := (hdeclaring.filling.of_registerStructs hfill).built
  have hrounds : r.defs.length < p₂.failed.length + (r.defs.length + 1) := by omega
  obtain ⟨p₃, hlayouts', hsettled⟩ := hbuilt.checkLayouts hrounds
  obtain rfl : p₃ = p := Except.ok.inj (hlayouts'.symm.trans hlayouts)
  exact ⟨q₁.state.names, hsettled.1, hsettled.2⟩

/-- As long as slices take one argument, structs can be registered. -/
theorem Roster.structsRegistered_ends (hslices : r.table.generics.get? Form.sliceName = some 1) :
    ∃ p, structsRegistered cx items r.table = .ok p := by
  obtain ⟨p₁, hdeclare, hdeclaring⟩ := (Declaring.start r).declareStructs
  obtain ⟨p₂, hfill⟩ := hdeclaring.filling.registerStructs_ends hslices
  have hbuilt := (hdeclaring.filling.of_registerStructs hfill).built
  have hrounds : r.defs.length < p₂.failed.length + (r.defs.length + 1) := by omega
  obtain ⟨p₃, hlayouts, -⟩ := hbuilt.checkLayouts hrounds
  refine ⟨p₃, ?_⟩
  unfold structsRegistered
  rw [hdefs, hsize]
  exact except_bind_eq_ok.mpr ⟨p₁, hdeclare, except_bind_eq_ok.mpr ⟨p₂, hfill, hlayouts⟩⟩

end Registered

end RuleTypes.Check
