import Mathlib.Data.Fintype.EquivFin
import Mathlib.Order.WellFounded
import RuleTypes.Check.Layout
import RuleTypes.Proofs.TypeTable.Known
import RuleTypes.Proofs.TypeTable.Reachable

/-!
# Layouts of structs

The layout check follows references in two ways, and each search answers exactly what can be
reached (`search_ok`): whether a struct holds itself by value (`containsItself_ok`), and whether it
is made of anything that has no layout (`firstBroken?_ok`). In a canonical table a cycle of values
runs through a declared struct, so a type none of whose structs holds itself has a finite layout
(`hasLayout_of_acyclic`).
-/

namespace RuleTypes

open Relation

/-- Declared structs may occur if they are not pending and their name means them. -/
def Admission.unbroken (names : Names) (pending : List TypeId) : Admission where
  allows id form :=
    ∀ name fields, form = .declared name fields → id ∉ pending ∧ names.get? name = some id
  structural := by
    rintro id form hform name fields rfl
    cases hform

namespace TypeTable

variable {t : TypeTable} {id : TypeId} {form : Form}

/-! ## Searches -/

/-- The second type is among those that `next` lists for the form of the first. -/
def Refers (t : TypeTable) (next : Form → List TypeId) (id part : TypeId) : Prop :=
  ∃ form, t.form? id = some form ∧ part ∈ next form

section Searching

variable {β : Type} {next : Form → List TypeId} (stop? : TypeId → Form → Option β)

/-- A search that goes on from some visited types either meets an answer, or comes to an end with a
set of types that holds with every new type what that refers to. -/
theorem search_from (hnext : ∀ id form, t.form? id = some form → ∀ part ∈ next form,
      part.index < t.size) (visited stack : List TypeId)
    (hstack : ∀ id ∈ stack, id.index < t.size) :
    (∃ root ∈ stack, ∃ id form answer, ReflTransGen (t.Refers next) root id ∧
      t.form? id = some form ∧ stop? id form = some answer ∧
      t.search next stop? visited stack = .ok (some answer)) ∨
    t.search next stop? visited stack = .ok none ∧ ∃ seen : List TypeId, visited ⊆ seen ∧
      stack ⊆ seen ∧ ∀ id ∈ seen, id ∈ visited ∨
        ∃ form, t.form? id = some form ∧ stop? id form = none ∧ next form ⊆ seen := by
  fun_induction t.search next stop? visited stack with
  | case1 visited => exact .inr ⟨rfl, visited, fun _ => id, List.nil_subset _, fun _ => .inl⟩
  | case2 visited id stack hseen ih =>
    obtain ⟨root, hroot, hfound⟩ | ⟨heq, seen, hvisited, hstack', hclosed⟩ :=
      ih fun other hother => hstack other (List.mem_cons_of_mem _ hother)
    · exact .inl ⟨root, List.mem_cons_of_mem _ hroot, hfound⟩
    · have hid : id ∈ seen := hvisited (by simpa using hseen)
      exact .inr ⟨heq, seen, hvisited, List.cons_subset.mpr ⟨hid, hstack'⟩, hclosed⟩
  | case3 visited id stack hseen hform =>
    obtain ⟨form, hform'⟩ := exists_form?_of_lt (hstack id (List.mem_cons_self ..))
    cases hform'.symm.trans hform
  | case4 visited id stack hseen form hform answer hstop =>
    exact .inl ⟨id, List.mem_cons_self .., id, form, answer, .refl, hform, hstop, rfl⟩
  | case5 visited id stack hseen form hform hstop ih =>
    have hparts : ∀ part ∈ (next form).reverse, t.Refers next id part := fun part hpart =>
      ⟨form, hform, List.mem_reverse.mp hpart⟩
    have hmore : ∀ other ∈ (next form).reverse ++ stack, other.index < t.size := by
      intro other hother
      obtain hother | hother := List.mem_append.mp hother
      · exact hnext id form hform other (List.mem_reverse.mp hother)
      · exact hstack other (List.mem_cons_of_mem _ hother)
    obtain ⟨root, hroot, other, otherForm, answer, hreached, hfound⟩ |
      ⟨heq, seen, hvisited, hstack', hclosed⟩ := ih hmore
    · refine .inl ?_
      obtain hroot | hroot := List.mem_append.mp hroot
      · exact ⟨id, List.mem_cons_self .., other, otherForm, answer,
          .head (hparts root hroot) hreached, hfound⟩
      · exact ⟨root, List.mem_cons_of_mem _ hroot, other, otherForm, answer, hreached, hfound⟩
    · obtain ⟨hid, hvisited⟩ := List.cons_subset.mp hvisited
      obtain ⟨hnew, hstack'⟩ := List.append_subset.mp hstack'
      refine .inr ⟨heq, seen, hvisited, List.cons_subset.mpr ⟨hid, hstack'⟩, fun other hother => ?_⟩
      obtain hother | hother := hclosed other hother
      · obtain rfl | hother := List.mem_cons.mp hother
        · exact .inr ⟨form, hform, hstop, fun part hpart => hnew (List.mem_reverse.mpr hpart)⟩
        · exact .inl hother
      · exact .inr hother

/-- **A search answers nothing exactly if nothing that can be reached has an answer.** -/
theorem search_ok (hnext : ∀ id form, t.form? id = some form → ∀ part ∈ next form,
      part.index < t.size) (stack : List TypeId) (hstack : ∀ id ∈ stack, id.index < t.size) :
    ∃ found, t.search next stop? [] stack = .ok found ∧ (found = none ↔ ∀ root ∈ stack,
      ∀ id form, ReflTransGen (t.Refers next) root id → t.form? id = some form →
        stop? id form = none) := by
  obtain ⟨root, hroot, id, form, answer, hreached, hform, hstop, heq⟩ |
    ⟨heq, seen, -, hsubset, hclosed⟩ := search_from stop? hnext [] stack hstack
  · refine ⟨some answer, heq, iff_of_false nofun fun hnone => ?_⟩
    rw [hnone root hroot id form hreached hform] at hstop
    cases hstop
  · refine ⟨none, heq, iff_of_true rfl fun root hroot id form hreached hform => ?_⟩
    have hmem : id ∈ seen := by
      induction hreached generalizing form with
      | refl => exact hsubset hroot
      | tail _ hrefers ih =>
        obtain ⟨other, hother, hpart⟩ := hrefers
        obtain ⟨form', hform', -, hnew⟩ := (hclosed _ (ih other hother)).resolve_left
          List.not_mem_nil
        obtain rfl : other = form' := Option.some.inj (hother.symm.trans hform')
        exact hnew hpart
    obtain ⟨form', hform', hstop, -⟩ := (hclosed id hmem).resolve_left List.not_mem_nil
    obtain rfl : form = form' := Option.some.inj (hform.symm.trans hform')
    exact hstop

end Searching

/-! ## Values and mentions -/

theorem mem_components_of_heldByValue {part : TypeId} (h : part ∈ heldByValue form) :
    part ∈ form.components := by
  cases form with
  | record | declared => exact h
  | _ => cases h

/-- The first type is a struct and holds the second by value. -/
def HoldsByValue (t : TypeTable) : TypeId → TypeId → Prop := t.Refers heldByValue

theorem HoldsByValue.mentions {part : TypeId} (h : t.HoldsByValue id part) :
    t.Mentions id part := by
  obtain ⟨form, hform, hpart⟩ := h
  exact ⟨form, hform, mem_components_of_heldByValue hpart⟩

/-- What a type holds by value stays, as long as no struct is filled. -/
theorem Canonical.holds_of_extends {t' : TypeTable} (h : t.Canonical) (hextends : t.Extends t')
    (hid : id.index < t.size) {part : TypeId} (hpart : TransGen t'.HoldsByValue id part) :
    TransGen t.HoldsByValue id part := by
  have hstep : ∀ {a b}, a.index < t.size → t'.HoldsByValue a b →
      t.HoldsByValue a b ∧ b.index < t.size := by
    rintro a b ha ⟨form', hform', hb⟩
    obtain ⟨form, hform⟩ := exists_form?_of_lt ha
    obtain rfl := Option.some.inj ((hextends.form? hform).symm.trans hform')
    exact ⟨⟨form, hform, hb⟩, h.issued a form hform b (mem_components_of_heldByValue hb)⟩
  have hall : TransGen t.HoldsByValue id part ∧ part.index < t.size := by
    induction hpart with
    | single hholds => exact (hstep hid hholds).imp_left .single
    | tail _ hholds ih => exact (hstep ih.2 hholds).imp_left ih.1.tail
  exact hall.1

/-- The search for a struct among its own values finds it if it is there. -/
theorem containsItself_ok (h : t.Canonical) (hid : id.index < t.size) :
    ∃ found, t.containsItself id = .ok found ∧
      (found = true ↔ TransGen t.HoldsByValue id id) := by
  obtain ⟨form, hform⟩ := exists_form?_of_lt hid
  have hnext : ∀ id form, t.form? id = some form → ∀ part ∈ heldByValue form,
      part.index < t.size := fun id form hform part hpart =>
    h.issued id form hform part (mem_components_of_heldByValue hpart)
  obtain ⟨found, hsearch, hfound⟩ :=
    search_ok (fun other _ => if other = id then some () else none) hnext
      (heldByValue form).reverse fun part hpart =>
        hnext id form hform part (List.mem_reverse.mp hpart)
  refine ⟨found.isSome, ?_, ?_⟩
  · unfold containsItself
    rw [form_eq_ok.mpr hform]
    simp only [bind, Except.bind, hsearch, pure, Except.pure]
  · rw [Option.isSome_iff_ne_none, ne_eq, hfound, TransGen.head'_iff]
    constructor
    · intro hreached
      by_contra hnot
      refine hreached fun root hroot other form' hpath _ => if_neg ?_
      rintro rfl
      exact hnot ⟨root, ⟨form, hform, List.mem_reverse.mp hroot⟩, hpath⟩
    · rintro ⟨root, ⟨form', hform', hroot⟩, hpath⟩ hnone
      obtain rfl : form = form' := Option.some.inj (hform.symm.trans hform')
      have hstop := hnone root (List.mem_reverse.mpr hroot) id form hpath hform
      rw [if_pos rfl] at hstop
      cases hstop

theorem brokenName?_eq_none_iff {names : Names} :
    t.brokenName? names id form = none ↔ (Admission.unbroken names t.pending).allows id form := by
  cases form with
  | declared name fields =>
    by_cases hbound : t.isSealed id = true ∧ names.get? name = some id
    · simp_all [brokenName?, isSealed, Admission.unbroken]
    · simp_all [brokenName?, isSealed, Admission.unbroken]
  | _ => simp [brokenName?, Admission.unbroken]

/-- The search for a type without a layout finds none exactly in types that are clear of them. -/
theorem firstBroken?_ok (h : t.Canonical) (names : Names) (hid : id.index < t.size) :
    ∃ found, t.firstBroken? names id = .ok found ∧
      (found = none ↔ t.Clear (.unbroken names t.pending) id) := by
  obtain ⟨found, hsearch, hfound⟩ :=
    search_ok (t.brokenName? names) h.issued [id] (by simpa using hid)
  refine ⟨found, hsearch, hfound.trans ?_⟩
  simp only [List.mem_singleton, forall_eq, brokenName?_eq_none_iff]
  constructor
  · intro hallows part hpart
    have hissued : part.index < t.size := by
      obtain rfl | ⟨owner, -, ⟨form, hform, hmem⟩⟩ := ReflTransGen.cases_tail hpart
      · exact hid
      · exact h.issued owner form hform part hmem
    obtain ⟨form, hform⟩ := exists_form?_of_lt hissued
    exact ⟨form, hform, hallows part form hpart hform⟩
  · intro hclear part form hpart hform
    obtain ⟨form', hform', hallows⟩ := hclear part hpart
    exact Option.some.inj (hform'.symm.trans hform) ▸ hallows

/-! ## Finite layouts -/

/-- A chain of values that ends at an older type, or passes through a declared struct. -/
theorem Canonical.older_or_declared (h : t.Canonical) {a b : TypeId}
    (hab : TransGen t.HoldsByValue a b) : b.index < a.index ∨ ∃ part name fields,
      t.form? part = some (.declared name fields) ∧ ReflTransGen t.HoldsByValue a part ∧
      TransGen t.HoldsByValue part b := by
  induction hab using TransGen.head_induction_on with
  | @single a hab =>
    obtain ⟨form, hform, hpart⟩ := hab
    cases hdeclared : form.isDeclared with
    | false =>
      exact .inl (h.older a form hform hdeclared b (mem_components_of_heldByValue hpart))
    | true =>
      cases form with
      | declared name fields =>
        exact .inr ⟨a, name, fields, hform, .refl, .single ⟨_, hform, hpart⟩⟩
      | _ => cases hdeclared
  | @head a c hac hcb ih =>
    obtain hlt | ⟨part, name, fields, hpart, hreached, hrest⟩ := ih
    · obtain ⟨form, hform, hmem⟩ := hac
      cases hdeclared : form.isDeclared with
      | false =>
        have hlt' := h.older a form hform hdeclared c (mem_components_of_heldByValue hmem)
        exact .inl (Nat.lt_trans hlt hlt')
      | true =>
        cases form with
        | declared name fields =>
          exact .inr ⟨a, name, fields, hform, .refl, .head ⟨_, hform, hmem⟩ hcb⟩
        | _ => cases hdeclared
    · exact .inr ⟨part, name, fields, hpart, .head hac hreached, hrest⟩

/-- A type holds itself by value only through a declared struct that does. -/
theorem Canonical.declared_of_cycle (h : t.Canonical) (hcycle : TransGen t.HoldsByValue id id) :
    ∃ part name fields, t.form? part = some (.declared name fields) ∧
      ReflTransGen t.HoldsByValue id part ∧ TransGen t.HoldsByValue part part := by
  obtain hlt | ⟨part, name, fields, hpart, hreached, hrest⟩ := h.older_or_declared hcycle
  · exact absurd hlt (Nat.lt_irrefl _)
  · exact ⟨part, name, fields, hpart, hreached, hrest.trans_left hreached⟩

/-- The values in a type come to an end. -/
inductive HasLayout (t : TypeTable) : TypeId → Prop
  | intro {id : TypeId} {form : Form} (hform : t.form? id = some form)
      (h : ∀ part ∈ heldByValue form, HasLayout t part) : HasLayout t id

/-- There are finitely many types, so a type without cycles of values has a layout. -/
theorem Canonical.hasLayout_of_acyclic (h : t.Canonical) (hid : id.index < t.size)
    (hacyclic : ∀ part, ReflTransGen t.HoldsByValue id part → ¬ TransGen t.HoldsByValue part part) :
    t.HasLayout id := by
  -- what is reached from `id`, by what is held by it
  let Reached := { part : TypeId // part.index < t.size ∧ ReflTransGen t.HoldsByValue id part }
  have : Finite Reached := Finite.of_injective (β := Fin t.size) (fun part => ⟨_, part.2.1⟩) <| by
    rintro ⟨⟨a⟩, ha⟩ ⟨⟨b⟩, hb⟩ heq
    obtain rfl : a = b := congrArg Fin.val heq
    rfl
  let Within : Reached → Reached → Prop := fun a b => TransGen t.HoldsByValue b.1 a.1
  have : IsTrans Reached Within := ⟨fun _ _ _ hab hbc => hbc.trans hab⟩
  have : Std.Irrefl Within := ⟨fun part => hacyclic part.1 part.2.2⟩
  have hwf : WellFounded Within := Finite.wellFounded_of_trans_of_irrefl Within
  have hall : ∀ part : Reached, t.HasLayout part.1 := by
    intro part
    induction part using hwf.induction with
    | _ part ih =>
      obtain ⟨form, hform⟩ := exists_form?_of_lt part.2.1
      refine .intro hform fun next hnext => ?_
      have hholds : t.HoldsByValue part.1 next := ⟨form, hform, hnext⟩
      have hissued := h.issued part.1 form hform next (mem_components_of_heldByValue hnext)
      exact ih ⟨next, hissued, part.2.2.tail hholds⟩ (.single hholds)
  exact hall ⟨id, hid, .refl⟩

end TypeTable

end RuleTypes
