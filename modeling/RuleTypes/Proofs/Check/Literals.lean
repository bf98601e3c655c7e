import Mathlib.Data.Fin.Pigeonhole
import Mathlib.Tactic.Choose
import RuleTypes.Proofs.Check.Faultless

/-!
# Struct literals assign fields

A member of a struct literal stands for the field of its name, or, without a name, for the field at
its own place (`StandsFor`). The literal is accepted exactly if every member has in this way a field
of its own, with the member's type (`Assigns`). Otherwise the first member in order for which this
fails is reported: that it has no field, before that its field is taken, before that the types
differ (`FlawAt`). The check passes the members with a list of the fields that are taken
(`structFlaw?_spec`).
-/

namespace RuleTypes

namespace Literal

variable {fields : List (String × TypeId)} {members : List (Option String × TypeId)}
  {i j k k' : Nat} {flaw : MemberFlaw}

/-! ## Members and fields -/

/-- The member at place `i` stands for the field at place `k`. -/
def StandsFor (fields : List (String × TypeId)) (members : List (Option String × TypeId))
    (i k : Nat) : Prop :=
  ∃ name found field expected, members[i]? = some (name, found) ∧
    fields[k]? = some (field, expected) ∧ name.elim (k = i) (field = ·)

/-- Every member stands for a field of its own, which has the type of the member. -/
def Assigns (fields : List (String × TypeId)) (members : List (Option String × TypeId)) : Prop :=
  ∃ f : Fin members.length → Fin fields.length, Function.Injective f ∧
    ∀ i : Fin members.length, StandsFor fields members i (f i) ∧ members[i].2 = fields[f i].2

/-- What is wrong with the member at place `i`. Of the members before it, only the fields that they
take matter. -/
inductive FlawAt (fields : List (String × TypeId)) (members : List (Option String × TypeId))
    (i : Nat) : MemberFlaw → Prop
  | unknownField {name : String} {found : TypeId} (hmember : members[i]? = some (some name, found))
      (hnone : ∀ k, ¬ StandsFor fields members i k) : FlawAt fields members i (.unknownField name)
  | tooMany {found : TypeId} (hmember : members[i]? = some (none, found))
      (hnone : ∀ k, ¬ StandsFor fields members i k) : FlawAt fields members i .tooMany
  | repeated {k : Nat} {field : String} {expected : TypeId} (h : StandsFor fields members i k)
      (hfield : fields[k]? = some (field, expected))
      (htaken : ∃ j < i, StandsFor fields members j k) : FlawAt fields members i (.repeated field)
  | mismatch {k : Nat} {name : Option String} {field : String} {expected found : TypeId}
      (h : StandsFor fields members i k) (hmember : members[i]? = some (name, found))
      (hfield : fields[k]? = some (field, expected))
      (hfree : ∀ j < i, ¬ StandsFor fields members j k) (hne : expected ≠ found) :
      FlawAt fields members i (.mismatch field expected found)

/-- The first member with a flaw, and its flaw. -/
def FirstFlaw (fields : List (String × TypeId)) (members : List (Option String × TypeId)) (i : Nat)
    (flaw : MemberFlaw) : Prop :=
  FlawAt fields members i flaw ∧ ∀ j < i, ∀ flaw, ¬ FlawAt fields members j flaw

theorem FlawAt.lt (h : FlawAt fields members i flaw) : i < members.length := by
  cases h with
  | unknownField hmember _ | tooMany hmember _ => exact (List.getElem?_eq_some_iff.mp hmember).1
  | repeated h _ _ | mismatch h _ _ _ _ =>
    obtain ⟨_, _, _, _, hmember, -⟩ := h
    exact (List.getElem?_eq_some_iff.mp hmember).1

section Distinct

variable (hdistinct : (fields.map (·.1)).Nodup)

include hdistinct

/-- The search for a field finds the one that the member stands for. -/
theorem fieldIndex?_eq_some_iff {name : Option String} {found : TypeId}
    (hmember : members[i]? = some (name, found)) :
    fieldIndex? fields i name = some k ↔ StandsFor fields members i k := by
  have hstands : StandsFor fields members i k ↔
      ∃ field, fields[k]? = some field ∧ name.elim (k = i) (field.1 = ·) := by
    simp [StandsFor, hmember]
  rw [hstands]
  cases name with
  | none =>
    simp only [fieldIndex?, Option.ite_none_right_eq_some, Option.some.injEq, Option.elim_none]
    constructor
    · rintro ⟨hlt, rfl⟩
      exact ⟨fields[i], List.getElem?_eq_getElem hlt, rfl⟩
    · rintro ⟨field, hfield, rfl⟩
      exact ⟨(List.getElem?_eq_some_iff.mp hfield).1, rfl⟩
  | some name =>
    simp only [fieldIndex?, List.findIdx?_eq_some_iff_getElem, beq_iff_eq, Option.elim_some]
    constructor
    · rintro ⟨hlt, hname, -⟩
      exact ⟨fields[k], List.getElem?_eq_getElem hlt, hname⟩
    · rintro ⟨field, hfield, rfl⟩
      obtain ⟨hlt, rfl⟩ := List.getElem?_eq_some_iff.mp hfield
      refine ⟨hlt, rfl, fun j hj hsame => ?_⟩
      -- no other field has the name
      have hplace : j = k := (List.getElem?_inj (by simp; omega) hdistinct).mp <| by
        simp [List.getElem?_eq_getElem hlt, List.getElem?_eq_getElem (Nat.lt_trans hj hlt), hsame]
      omega

theorem StandsFor.unique (h : StandsFor fields members i k) (h' : StandsFor fields members i k') :
    k = k' := by
  obtain ⟨name, found, -, -, hmember, -⟩ := id h
  rw [← fieldIndex?_eq_some_iff hdistinct hmember] at h h'
  exact Option.some.inj (h.symm.trans h')

/-! ## Passing the members -/

/-- A member that has no flaw stands for one field, which has its type and is not taken. -/
theorem not_flawAt_iff {name : Option String} {found : TypeId}
    (hmember : members[i]? = some (name, found)) :
    (∀ flaw, ¬ FlawAt fields members i flaw) ↔
      ∃ k field, StandsFor fields members i k ∧ fields[k]? = some (field, found) ∧
        ∀ j < i, ¬ StandsFor fields members j k := by
  constructor
  · intro hclean
    by_cases hsome : ∃ k, StandsFor fields members i k
    · obtain ⟨k, hk⟩ := hsome
      obtain ⟨-, -, field, expected, -, hfield, -⟩ := id hk
      have hfree : ∀ j < i, ¬ StandsFor fields members j k := fun j hj htaken =>
        hclean _ (.repeated hk hfield ⟨j, hj, htaken⟩)
      have hsame : expected = found := by
        by_contra hne
        exact hclean _ (.mismatch hk hmember hfield hfree hne)
      exact ⟨k, field, hk, hsame ▸ hfield, hfree⟩
    · have hnone : ∀ k, ¬ StandsFor fields members i k := not_exists.mp hsome
      cases name with
      | none => exact absurd (.tooMany hmember hnone) (hclean _)
      | some name => exact absurd (.unknownField hmember hnone) (hclean _)
  · rintro ⟨k, field, hk, hfield, hfree⟩ flaw hflaw
    cases hflaw with
    | unknownField _ hnone | tooMany _ hnone => exact hnone k hk
    | repeated hk' _ htaken =>
      obtain ⟨j, hj, htaken⟩ := htaken
      exact hfree j hj (hk.unique hdistinct hk' ▸ htaken)
    | mismatch hk' hmember' hfield' _ hne =>
      obtain rfl := hk.unique hdistinct hk'
      rw [hmember] at hmember'
      rw [hfield] at hfield'
      cases hmember'
      cases hfield'
      exact hne rfl

/-- **The check of the members finds the first flaw, if there is one.** Up to `position` no member
has a flaw, and `given` lists the fields that are taken. -/
theorem structFlaw?_spec {position : Nat} {given : List Nat}
    {rest : List (Option String × TypeId)} (hrest : members.drop position = rest)
    (hgiven : ∀ k, k ∈ given ↔ ∃ j < position, StandsFor fields members j k)
    (hclean : ∀ j < position, ∀ flaw, ¬ FlawAt fields members j flaw) :
    match structFlaw? fields position given rest with
    | none => ∀ j flaw, ¬ FlawAt fields members j flaw
    | some (i, flaw) => FirstFlaw fields members i flaw := by
  induction rest generalizing position given with
  | nil =>
    intro j flaw hflaw
    exact hclean j (Nat.lt_of_lt_of_le hflaw.lt (List.drop_eq_nil_iff.mp hrest)) flaw hflaw
  | cons member rest ih =>
    obtain ⟨name, found⟩ := member
    have hmember : members[position]? = some (name, found) := by
      rw [← List.head?_drop, hrest, List.head?_cons]
    have hindex := fun k => fieldIndex?_eq_some_iff hdistinct (k := k) hmember
    unfold structFlaw?
    cases hk : fieldIndex? fields position name with
    | none =>
      have hnone : ∀ k, ¬ StandsFor fields members position k := fun k h => by
        rw [← hindex, hk] at h
        cases h
      cases name with
      | some name => exact ⟨.unknownField hmember hnone, hclean⟩
      | none => exact ⟨.tooMany hmember hnone, hclean⟩
    | some k =>
      have hstands := (hindex k).mp hk
      obtain ⟨-, -, field, expected, -, hfield, -⟩ := id hstands
      by_cases htaken : k ∈ given
      · simp only [hfield, if_pos (List.contains_iff_mem.mpr htaken)]
        exact ⟨.repeated hstands hfield ((hgiven k).mp htaken), hclean⟩
      · have hfree : ∀ j < position, ¬ StandsFor fields members j k := fun j hj h =>
          htaken ((hgiven k).mpr ⟨j, hj, h⟩)
        simp only [hfield, if_neg (mt List.contains_iff_mem.mp htaken)]
        by_cases hsame : expected = found
        · rw [if_neg (not_not.mpr hsame)]
          -- the member has no flaw, and it has taken its field
          refine ih ?_ (fun k' => ?_) fun j hj => ?_
          · rw [← List.tail_drop, hrest, List.tail_cons]
          · rw [List.mem_cons, hgiven]
            constructor
            · rintro (rfl | ⟨j, hj, h⟩)
              · exact ⟨position, Nat.lt_succ_self _, hstands⟩
              · exact ⟨j, Nat.lt_succ_of_lt hj, h⟩
            · rintro ⟨j, hj, h⟩
              obtain hj | rfl := Nat.lt_succ_iff_lt_or_eq.mp hj
              · exact .inr ⟨j, hj, h⟩
              · exact .inl (h.unique hdistinct hstands)
          · obtain hj | rfl := Nat.lt_succ_iff_lt_or_eq.mp hj
            · exact hclean j hj
            · exact (not_flawAt_iff hdistinct hmember).mpr
                ⟨k, field, hstands, hsame ▸ hfield, hfree⟩
        · rw [if_pos hsame]
          exact ⟨.mismatch hstands hmember hfield hfree hsame, hclean⟩

/-- No member has a flaw exactly if the members assign fields. -/
theorem assigns_iff : Assigns fields members ↔ ∀ i flaw, ¬ FlawAt fields members i flaw := by
  constructor
  · rintro ⟨f, hinjective, hf⟩ i flaw hflaw
    have hlt := hflaw.lt
    obtain ⟨hstands, htype⟩ := hf ⟨i, hlt⟩
    refine (not_flawAt_iff hdistinct (List.getElem?_eq_getElem hlt)).mpr
      ⟨_, fields[f ⟨i, hlt⟩].1, hstands, ?_, fun j hj h => ?_⟩ flaw hflaw
    · exact List.getElem?_eq_some_iff.mpr ⟨(f ⟨i, hlt⟩).isLt, Prod.ext rfl htype.symm⟩
    · have hj' := Nat.lt_trans hj hlt
      have heq := hinjective (Fin.ext ((hf ⟨j, hj'⟩).1.unique hdistinct h))
      exact absurd (Fin.mk.inj heq) (Nat.ne_of_lt hj)
  · intro hclean
    have hfield : ∀ i : Fin members.length, ∃ k : Fin fields.length,
        StandsFor fields members i k ∧ members[i].2 = fields[k].2 ∧
          ∀ j < i, ¬ StandsFor fields members j k := by
      intro i
      obtain ⟨k, field, hk, hfield, hfree⟩ := (not_flawAt_iff hdistinct
        (List.getElem?_eq_getElem i.isLt)).mp (hclean i)
      obtain ⟨hlt, heq⟩ := List.getElem?_eq_some_iff.mp hfield
      exact ⟨⟨k, hlt⟩, hk, (congrArg Prod.snd heq).symm, fun j hj => hfree j hj⟩
    choose f hf using hfield
    refine ⟨f, fun i j heq => ?_, fun i => ⟨(hf i).1, (hf i).2.1⟩⟩
    obtain hlt | rfl | hlt := lt_trichotomy i j
    · exact absurd (heq ▸ (hf i).1) ((hf j).2.2 i hlt)
    · rfl
    · exact absurd (heq ▸ (hf j).1) ((hf i).2.2 j hlt)

/-- The check of all members finds out whether they assign fields. -/
theorem structFlaw?_decides (members : List (Option String × TypeId)) :
    match structFlaw? fields 0 [] members with
    | none => Assigns fields members
    | some (i, flaw) => ¬ Assigns fields members ∧ FirstFlaw fields members i flaw := by
  have hfresh : ∀ k, k ∈ ([] : List Nat) ↔ ∃ j < 0, StandsFor fields members j k := by simp
  have hspec := structFlaw?_spec hdistinct (List.drop_zero : members.drop 0 = members) hfresh
    (by simp)
  cases hflaw : structFlaw? fields 0 [] members with
  | none =>
    rw [hflaw] at hspec
    exact (assigns_iff hdistinct).mpr hspec
  | some found =>
    rw [hflaw] at hspec
    exact ⟨fun h => (assigns_iff hdistinct).mp h found.1 found.2 hspec.1, hspec⟩

end Distinct

theorem Assigns.length_le (h : Assigns fields members) : members.length ≤ fields.length := by
  obtain ⟨f, hinjective, -⟩ := h
  exact Fin.le_of_injective f hinjective

end Literal

/-! ## The literal -/

/-- The problem puts the flaw into words, with the texts of the types that it is about. -/
inductive MemberFlaw.Describes (t : TypeTable) (owner : TypeId) (fieldCount memberCount : Nat) :
    MemberFlaw → Problem → Prop
  | unknownField {name text : String} (h : t.text owner = .ok text) :
      Describes t owner fieldCount memberCount (.unknownField name) (.unknownField text name)
  | tooMany {text : String} (h : t.text owner = .ok text) :
      Describes t owner fieldCount memberCount .tooMany
        (.arityMismatch text fieldCount memberCount)
  | repeated {field text : String} (h : t.text owner = .ok text) :
      Describes t owner fieldCount memberCount (.repeated field) (.duplicateField text field)
  | mismatch {field text text' : String} {expected found : TypeId}
      (hexpected : t.text expected = .ok text) (hfound : t.text found = .ok text') :
      Describes t owner fieldCount memberCount (.mismatch field expected found)
        (.memberMismatch field text text')

/-- Where a flaw is reported: at the member, but that there are too many members at the literal. -/
def MemberFlaw.place (literal member : Span) : MemberFlaw → Span
  | tooMany => literal
  | unknownField _ | repeated _ | mismatch _ _ _ => member

namespace Check

open Literal

variable {cx : Setting} {depth : Nat} {s s' s₁ s₂ : State} {written : TypeExpr}
  {literal : Members} {memberTypes : List TypeId} {span : Span} {owner : TypeId}

theorem textOf_eq_ok {id : TypeId} {text : String} :
    textOf id s = .ok text s' ↔ s.table.text id = .ok text ∧ s = s' := inspect_eq_ok

theorem textOf_ne_error {id : TypeId} {finding : Finding} :
    textOf id s ≠ .error (.error finding) s' := by
  unfold textOf inspect
  split <;> simp

/-- A finding that names the text of a type. -/
theorem finding_of_textOf {α : Type} {id : TypeId} {f : String → Check α} {finding : Finding}
    (h : (textOf id >>= f) s = .error (.error finding) s') :
    ∃ text, s.table.text id = .ok text ∧ f text s = .error (.error finding) s' := by
  obtain h | ⟨text, _, hread, h⟩ := bind_eq_error.mp h
  · exact (textOf_ne_error h).elim
  · obtain ⟨htext, rfl⟩ := textOf_eq_ok.mp hread
    exact ⟨text, htext, h⟩

/-- What is reported of a flaw. -/
theorem finding_of_reportFlaw {α : Type} {fieldCount i : Nat} {flaw : MemberFlaw}
    {member : Option String × NodeId} {node : Node} {finding : Finding}
    (hmember : literal[i]? = some member) (hnode : cx.arena.node? member.2 = some node)
    (h : reportFlaw (α := α) cx owner fieldCount literal i flaw span s =
      .error (.error finding) s') :
    s = s' ∧ finding.span = flaw.place span node.span ∧
      flaw.Describes s.table owner fieldCount literal.length finding.problem := by
  unfold reportFlaw at h
  simp only [hmember, bind_of_ok (nodeOf_ok hnode s)] at h
  cases flaw with
  | unknownField | tooMany | repeated =>
    obtain ⟨text, htext, h⟩ := finding_of_textOf h
    cases h
    exact ⟨rfl, rfl, by constructor; exact htext⟩
  | mismatch field expected found =>
    obtain ⟨text, hexpected, h⟩ := finding_of_textOf h
    obtain ⟨text', hfound, h⟩ := finding_of_textOf h
    cases h
    exact ⟨rfl, rfl, .mismatch hexpected hfound⟩

theorem nodes_of_inferAll {ids : List NodeId} {types : List TypeId}
    (h : inferAll (inferAt cx depth) ids s = .ok types s') :
    types.length = ids.length ∧ ∀ id ∈ ids, ∃ node, cx.arena.node? id = some node := by
  induction ids generalizing s types with
  | nil =>
    obtain ⟨rfl, -⟩ := pure_eq_ok.mp h
    exact ⟨rfl, by simp⟩
  | cons id ids ih =>
    obtain ⟨type, s₁, rest, hfirst, hrest, rfl⟩ := inferAll_cons_eq_ok.mp h
    obtain ⟨hlength, hnodes⟩ := ih hrest
    refine ⟨by simp [hlength], List.forall_mem_cons.mpr ⟨?_, hnodes⟩⟩
    cases depth with
    | zero => exact (throw_eq_ok.mp hfirst).elim
    | succ depth =>
      obtain ⟨node, _, _, hnode, -⟩ := inferAt_succ_eq_ok hfirst
      exact ⟨node, hnode⟩

/-- A flawed member is in the literal, and its value is a node. -/
theorem exists_node_of_flawAt {fields : List (String × TypeId)} {i : Nat} {flaw : MemberFlaw}
    (h : FlawAt fields ((literal.map (·.1)).zip memberTypes) i flaw)
    (hmembers : inferAll (inferAt cx depth) (literal.map (·.2)) s = .ok memberTypes s₁) :
    ∃ member node, literal[i]? = some member ∧ cx.arena.node? member.2 = some node := by
  obtain ⟨hlength, hnodes⟩ := nodes_of_inferAll hmembers
  have hlt : i < literal.length := by simpa [hlength] using h.lt
  obtain ⟨node, hnode⟩ := hnodes literal[i].2
    (List.mem_map.mpr ⟨literal[i], List.getElem_mem hlt, rfl⟩)
  exact ⟨literal[i], node, List.getElem?_eq_getElem hlt, hnode⟩

/-- The check of a literal of a struct type comes down to the check of its members. -/
theorem inferLiteral_of_fields {form : Form} {fields : List (String × TypeId)}
    (hmembers : inferAll (inferAt cx depth) (literal.map (·.2)) s = .ok memberTypes s₁)
    (howner : resolveConcrete written span s₁ = .ok owner s₂)
    (hform : s₂.table.form? owner = some form) (hfields : form.fields? = some fields) :
    inferLiteral cx (inferAt cx depth) (some written) literal span s =
      match structFlaw? fields 0 [] ((literal.map (·.1)).zip memberTypes) with
      | none => .ok owner s₂
      | some (i, flaw) => reportFlaw cx owner fields.length literal i flaw span s₂ := by
  rw [inferLiteral, bind_of_ok hmembers]
  dsimp only
  rw [inferTyped, bind_of_ok howner, bind_of_ok (formOf_ok hform)]
  simp only [hfields]
  cases structFlaw? fields 0 [] ((literal.map (·.1)).zip memberTypes) <;> rfl

/-- In a sane state a literal whose members have types meets no fault. -/
theorem Sane.structLiteral_safe (hs : Sane cx s)
    (hmembers : inferAll (inferAt cx depth) (literal.map (·.2)) s = .ok memberTypes s₁) :
    Safe (inferLiteral cx (inferAt cx depth) (some written) literal span) s := by
  have hreveals : Reveals .known [] cx (inferAt cx depth) := inferAt_reveals depth
  obtain ⟨hknows, hknown⟩ := hreveals.inferAll hs.knows hmembers
  have hlater : Later (fun _ => True) s s₁ :=
    (inferAll_goes fun id _ => (hreveals.later id).goes).ok hmembers
  have hawaits : Awaits cx depth [] memberTypes s₁ :=
    ⟨hs.later hknows hlater, by simp, by simp, .nil, hknown⟩
  exact .step hmembers (hawaits.inferTyped_safe (nodes_of_inferAll hmembers).2 written span)

/-- **A struct literal gives each field at most one value.** It is accepted exactly if its members
assign fields, and then there are no more members than fields. Otherwise the finding is about the
first flawed member. In a sane state there is one: nothing that it names is without a text. -/
theorem struct_literal_outcome {form : Form} {fields : List (String × TypeId)}
    (hmembers : inferAll (inferAt cx depth) (literal.map (·.2)) s = .ok memberTypes s₁)
    (howner : resolveConcrete written span s₁ = .ok owner s₂)
    (hform : s₂.table.form? owner = some form) (hfields : form.fields? = some fields)
    (hdistinct : (fields.map (·.1)).Nodup) :
    let given := (literal.map (·.1)).zip memberTypes
    let outcome := inferLiteral cx (inferAt cx depth) (some written) literal span s
    ((∃ type s', outcome = .ok type s') ↔ Assigns fields given) ∧
    (Assigns fields given → outcome = .ok owner s₂ ∧ literal.length ≤ fields.length) ∧
    (¬ Assigns fields given → ∃ i flaw member node, FirstFlaw fields given i flaw ∧
      literal[i]? = some member ∧ cx.arena.node? member.2 = some node ∧
      (∀ finding s', outcome = .error (.error finding) s' →
        s₂ = s' ∧ finding.span = flaw.place span node.span ∧
          flaw.Describes s₂.table owner fields.length literal.length finding.problem) ∧
      (Sane cx s → ∃ finding, outcome = .error (.error finding) s₂)) := by
  intro given outcome
  have houtcome := inferLiteral_of_fields hmembers howner hform hfields
  have hdecides := structFlaw?_decides hdistinct given
  cases hflaw : structFlaw? fields 0 [] given with
  | none =>
    rw [hflaw] at hdecides
    have hok : outcome = .ok owner s₂ := by simpa only [given, hflaw] using houtcome
    have hcount : given.length = literal.length := by simp [given, (nodes_of_inferAll hmembers).1]
    exact ⟨iff_of_true ⟨owner, s₂, hok⟩ hdecides, fun _ => ⟨hok, hcount ▸ hdecides.length_le⟩,
      fun h => absurd hdecides h⟩
  | some found =>
    obtain ⟨i, flaw⟩ := found
    rw [hflaw] at hdecides
    obtain ⟨hassigns, hfirst⟩ := hdecides
    have hreport : outcome = reportFlaw cx owner fields.length literal i flaw span s₂ := by
      simpa only [given, hflaw] using houtcome
    obtain ⟨member, node, hmember, hnode⟩ := exists_node_of_flawAt hfirst.1 hmembers
    refine ⟨iff_of_false ?_ hassigns, fun h => absurd h hassigns, fun _ =>
      ⟨i, flaw, member, node, hfirst, hmember, hnode, fun finding s' h => ?_, fun hs => ?_⟩⟩
    · rintro ⟨type, s', h⟩
      exact reportFlaw_ne_ok (hreport.symm.trans h)
    · exact finding_of_reportFlaw hmember hnode (hreport.symm.trans h)
    · have hsafe : Safe (inferLiteral cx (inferAt cx depth) (some written) literal span) s :=
        hs.structLiteral_safe hmembers
      obtain ⟨type, s', h⟩ | ⟨finding, s', h⟩ := hsafe.ends
      · exact (reportFlaw_ne_ok (hreport.symm.trans h)).elim
      · obtain ⟨rfl, -⟩ := finding_of_reportFlaw hmember hnode (hreport.symm.trans h)
        exact ⟨finding, h⟩

/-- Three numbers, in one line. -/
def threeNumbers : Setting where
  arena := ⟨#[⟨.number, ⟨1, 1, 1⟩⟩, ⟨.number, ⟨1, 2, 1⟩⟩, ⟨.number, ⟨1, 3, 1⟩⟩]⟩
  builtin := ⟨⟨2⟩, ⟨2⟩, ⟨2⟩, .empty⟩
  config := .permissive

/-- The table has the type of numbers. -/
def numberKnown : State :=
  .start (endState ((TypeTable.internPrimitive "f64" : TableM TableError TypeId)
    (.new .standard))) 3

/-- Two fields. -/
def pairOfNumbers : TypeExpr := .record [("x", .named "f64"), ("y", .named "f64")]

/-- The second field by name, then a member at the second place, then an unknown name. -/
def doubledField : Members := [(some "y", ⟨0⟩), (none, ⟨1⟩), (some "z", ⟨2⟩)]

/-- The second member is the first that is wrong: its field is taken. -/
theorem struct_literal_outcome_doubledField :
    ∃ memberTypes s₁ owner s₂ fields finding i,
      inferAll (inferAt threeNumbers 7) (doubledField.map (·.2)) numberKnown =
        .ok memberTypes s₁ ∧
      resolveConcrete pairOfNumbers ⟨1, 0, 4⟩ s₁ = .ok owner s₂ ∧
      s₂.table.form? owner = some (.record fields) ∧ (fields.map (·.1)).Nodup ∧
      inferLiteral threeNumbers (inferAt threeNumbers 7) (some pairOfNumbers) doubledField
        ⟨1, 0, 4⟩ numberKnown = .error (.error finding) s₂ ∧ finding.span = ⟨1, 2, 1⟩ ∧
      FirstFlaw fields ((doubledField.map (·.1)).zip memberTypes) i (.repeated "y") := by
  have heval : (do
      let memberTypes ← inferAll (inferAt threeNumbers 7) (doubledField.map Prod.snd)
      let owner ← resolveConcrete pairOfNumbers ⟨1, 0, 4⟩
      let form ← formOf owner
      return decide (memberTypes.length = 3 ∧ form = .record [("x", ⟨2⟩), ("y", ⟨2⟩)]) :
        Check Bool).run' numberKnown = some true := by decide +kernel
  have hend : (do
      let r ← attempt (inferLiteral threeNumbers (inferAt threeNumbers 7) (some pairOfNumbers)
        doubledField ⟨1, 0, 4⟩) numberKnown
      return decide (r.1 =
        .error ⟨.duplicateField "struct\x7bx f64;y f64\x7d" "y", ⟨1, 2, 1⟩⟩)) = Except.ok true := by
    decide +kernel
  obtain ⟨_, heval⟩ := run'_eq_some.mp heval
  obtain ⟨memberTypes, s₁, hmembers, heval⟩ := bind_eq_ok.mp heval
  obtain ⟨owner, s₂, howner, heval⟩ := bind_eq_ok.mp heval
  obtain ⟨form, _, hread, heval⟩ := bind_eq_ok.mp heval
  obtain ⟨hform, rfl⟩ := formOf_eq_ok.mp hread
  obtain ⟨hlength, rfl⟩ := of_decide_eq_true (pure_eq_ok.mp heval).1
  obtain ⟨r, hattempt, hend⟩ := except_bind_eq_ok.mp hend
  have hr := of_decide_eq_true (Except.ok.inj hend)
  obtain ⟨_, heq, -⟩ | ⟨finding, s', _, heq, herror, -⟩ := attempt_eq_ok hattempt
  · cases hr.symm.trans heq
  obtain rfl := Except.error.inj (hr.symm.trans heq)
  obtain ⟨-, -, hrejected⟩ := struct_literal_outcome hmembers howner hform rfl (by decide)
  have htoo : ¬ Assigns [("x", (⟨2⟩ : TypeId)), ("y", ⟨2⟩)]
      ((doubledField.map (·.1)).zip memberTypes) := fun h => by
    have := h.length_le
    simp [doubledField, hlength] at this
  obtain ⟨i, flaw, member, node, hfirst, -, -, hfinding, -⟩ := hrejected htoo
  obtain ⟨rfl, hspan, hdescribes⟩ := hfinding _ _ herror
  cases hdescribes
  exact ⟨memberTypes, s₁, owner, s₂, _, _, i, hmembers, howner, hform, by decide, herror, rfl,
    hfirst⟩

end Check

end RuleTypes
