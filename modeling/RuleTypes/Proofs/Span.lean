import Mathlib.Data.Set.Insert
import Mathlib.Order.Bounds.Basic
import RuleTypes.Span

/-!
# The hull of spans on one line

Covering a row of spans one after another keeps the hull of those that have a source: it runs from
the least of their columns to the greatest of their ends (`IsHull`). One more span on the line is
covered without leaving the range of positions (`IsHull.cover?`). So the result of a whole row is
the hull, which does not depend on how often and in which order the spans come
(`covering_gives_hull`).
-/

namespace RuleTypes.Span

/-- Covers a row of spans from the left, beginning with the first. -/
def coverAll? : List Span → Option Span
  | [] => none
  | s :: ss => ss.foldlM cover? s

/-- The spans of a row that have a source. -/
def sourced (spans : List Span) : Set Span := {s | s ∈ spans ∧ s.isSynthetic = false}

/-- The span is on the line of all the spans and runs from the least column to the greatest end. -/
structure IsHull (spans : Set Span) (hull : Span) : Prop where
  line : ∀ s ∈ spans, s.line = hull.line
  col : IsLeast (Span.col '' spans) hull.col
  stop : IsGreatest (Span.stop '' spans) hull.stop

variable {spans seen rest : List Span} {S : Set Span} {s hull hull' : Span} {line : Nat}

@[simp] theorem mem_sourced : s ∈ sourced spans ↔ s ∈ spans ∧ s.isSynthetic = false := Iff.rfl

theorem sourced_singleton (h : s.isSynthetic = false) : sourced [s] = {s} := by
  ext x
  simp only [mem_sourced, List.mem_singleton, Set.mem_singleton_iff]
  exact and_iff_left_of_imp fun hx => hx ▸ h

/-- A synthetic span does not count. -/
theorem sourced_append_of_synthetic (h : s.isSynthetic = true) :
    sourced (seen ++ [s]) = sourced seen := by
  ext x
  have hne : x.isSynthetic = false → x ≠ s := by
    rintro hx rfl
    simp [h] at hx
  simp only [mem_sourced, List.mem_append, List.mem_singleton]
  exact and_congr_left fun hx => or_iff_left (hne hx)

theorem sourced_append (h : s.isSynthetic = false) :
    sourced (seen ++ [s]) = insert s (sourced seen) := by
  ext x
  simp only [mem_sourced, List.mem_append, List.mem_singleton, Set.mem_insert_iff]
  constructor
  · rintro ⟨hx | hx, hsourced⟩
    · exact .inr ⟨hx, hsourced⟩
    · exact .inl hx
  · rintro (rfl | ⟨hx, hsourced⟩)
    · exact ⟨.inr rfl, h⟩
    · exact ⟨.inl hx, hsourced⟩

/-! ## Hulls -/

namespace IsHull

theorem singleton (s : Span) : IsHull {s} s := by
  refine ⟨fun x hx => by rw [hx], ?_, ?_⟩
  · rw [Set.image_singleton]
    exact isLeast_singleton
  · rw [Set.image_singleton]
    exact isGreatest_singleton

/-- There is only one hull. -/
theorem unique (h : IsHull S hull) (h' : IsHull S hull') : hull = hull' := by
  obtain ⟨s, hs, -⟩ := h.col.1
  have hline : hull.line = hull'.line := (h.line s hs).symm.trans (h'.line s hs)
  have hcol : hull.col = hull'.col := h.col.unique h'.col
  have hstop : hull.col + hull.len = hull'.col + hull'.len := h.stop.unique h'.stop
  cases hull
  cases hull'
  simp only [Span.mk.injEq] at hline hcol hstop ⊢
  exact ⟨hline, hcol, by omega⟩

/-- **One more span.** A hull within the range covers a span of its line that is within the range,
and what results is the hull with that span. -/
theorem cover? (h : IsHull S hull) (hsource : hull.isSynthetic = false) (hfits : hull.stop < limit)
    (hs : s.isSynthetic = false) (hline : s.line = hull.line) (hlimit : s.stop < limit) :
    ∃ hull', Span.cover? hull s = some hull' ∧ IsHull (insert s S) hull' ∧
      hull'.line = hull.line ∧ hull'.stop < limit := by
  have hstop : min hull.col s.col + (max hull.stop s.stop - min hull.col s.col) =
      max hull.stop s.stop := by
    have hle : hull.col ≤ hull.stop := Nat.le_add_right ..
    omega
  refine ⟨⟨hull.line, min hull.col s.col, max hull.stop s.stop - min hull.col s.col⟩, ?_, ?_, rfl,
    ?_⟩
  · simp [Span.cover?, hsource, hs, hline, hfits, hlimit]
  · refine ⟨?_, ?_, ?_⟩
    · rintro x (rfl | hx)
      · exact hline
      · exact h.line x hx
    · rw [Set.image_insert_eq, Nat.min_comm]
      exact h.col.insert s.col
    · change IsGreatest _ (min hull.col s.col + (max hull.stop s.stop - min hull.col s.col))
      rw [hstop, Set.image_insert_eq, Nat.max_comm]
      exact h.stop.insert s.stop
  · change min hull.col s.col + (max hull.stop s.stop - min hull.col s.col) < limit
    rw [hstop]
    exact Nat.max_lt.mpr ⟨hfits, hlimit⟩

end IsHull

/-! ## Rows of spans -/

/-- What covering the spans seen so far has come to: their hull, or a synthetic span as long as none
of them has a source. -/
inductive Covers (line : Nat) (seen : List Span) (s : Span) : Prop
  | synthetic (hs : s.isSynthetic = true) (hseen : sourced seen = ∅)
  | hull (hs : s.isSynthetic = false) (hline : s.line = line) (hfits : s.stop < limit)
      (h : IsHull (sourced seen) s)

theorem Covers.first (hline : s.isSynthetic = false → s.line = line)
    (hfits : s.isSynthetic = false → s.stop < limit) : Covers line [s] s := by
  cases hs : s.isSynthetic with
  | true =>
    refine .synthetic hs ?_
    rw [← List.nil_append [s], sourced_append_of_synthetic hs]
    exact Set.eq_empty_of_forall_notMem fun x hx => List.not_mem_nil hx.1
  | false => exact .hull hs (hline hs) (hfits hs) (sourced_singleton hs ▸ .singleton s)

/-- The step for one span. -/
theorem Covers.step {acc : Span} (h : Covers line seen acc)
    (hline : s.isSynthetic = false → s.line = line)
    (hfits : s.isSynthetic = false → s.stop < limit) :
    ∃ acc', Span.cover? acc s = some acc' ∧ Covers line (seen ++ [s]) acc' := by
  cases h with
  | synthetic hacc hseen =>
    refine ⟨s, by simp [Span.cover?, hacc], ?_⟩
    cases hs : s.isSynthetic with
    | true => exact .synthetic hs (by rw [sourced_append_of_synthetic hs, hseen])
    | false =>
      refine .hull hs (hline hs) (hfits hs) ?_
      rw [sourced_append hs, hseen, insert_empty_eq]
      exact .singleton s
  | hull hacc haccLine haccFits h =>
    cases hs : s.isSynthetic with
    | true =>
      refine ⟨acc, by simp [Span.cover?, hacc, hs], .hull hacc haccLine haccFits ?_⟩
      rwa [sourced_append_of_synthetic hs]
    | false =>
      obtain ⟨acc', hcover, hhull, hline', hfits'⟩ :=
        h.cover? hacc haccFits hs ((hline hs).trans haccLine.symm) (hfits hs)
      have hacc' : acc'.isSynthetic = false := by
        rw [isSynthetic, hline']
        exact hacc
      exact ⟨acc', hcover, .hull hacc' (hline'.trans haccLine) hfits' (sourced_append hs ▸ hhull)⟩

/-- The rest of the row. -/
theorem Covers.foldlM {acc : Span} (h : Covers line seen acc)
    (hline : ∀ s ∈ rest, s.isSynthetic = false → s.line = line)
    (hfits : ∀ s ∈ rest, s.isSynthetic = false → s.stop < limit) :
    ∃ acc', rest.foldlM Span.cover? acc = some acc' ∧ Covers line (seen ++ rest) acc' := by
  induction rest generalizing seen acc with
  | nil => exact ⟨acc, rfl, by rwa [List.append_nil]⟩
  | cons s rest ih =>
    obtain ⟨hs, hrest⟩ := List.forall_mem_cons.mp hline
    obtain ⟨hs', hrest'⟩ := List.forall_mem_cons.mp hfits
    obtain ⟨acc₁, hcover, h₁⟩ := h.step hs hs'
    obtain ⟨acc', hfold, h'⟩ := ih h₁ hrest hrest'
    refine ⟨acc', ?_, by rwa [List.append_assoc] at h'⟩
    rw [List.foldlM_cons, hcover]
    exact hfold

theorem isHull_of_coverAll? (hsourced : ∃ s ∈ spans, s.isSynthetic = false)
    (hline : ∀ s ∈ spans, s.isSynthetic = false → s.line = line)
    (hfits : ∀ s ∈ spans, s.isSynthetic = false → s.stop < limit) :
    ∃ hull, coverAll? spans = some hull ∧ hull.line = line ∧ IsHull (sourced spans) hull := by
  obtain ⟨s, hs, hsource⟩ := hsourced
  cases spans with
  | nil => cases hs
  | cons first rest =>
    obtain ⟨hfirst, hrest⟩ := List.forall_mem_cons.mp hline
    obtain ⟨hfirst', hrest'⟩ := List.forall_mem_cons.mp hfits
    obtain ⟨hull, hfold, hcovers⟩ := (Covers.first hfirst hfirst').foldlM hrest hrest'
    cases hcovers with
    | synthetic _ hnone =>
      have hmem : s ∈ sourced ([first] ++ rest) := ⟨hs, hsource⟩
      exact absurd (hnone ▸ hmem) (Set.notMem_empty s)
    | hull _ hline _ h => exact ⟨hull, hfold, hline, h⟩

/-- **Covering spans on one line gives their hull, in any order.** Take a row of spans, some of
which have a source; those are on one line and end within the range of positions. Covering the row
from the left never leaves the range. The result is on that line, from the least column to the
greatest end of the spans with a source. Every row with the same sourced spans, whatever their order
and however often they come, has the same result. -/
theorem covering_gives_hull (hsourced : ∃ s ∈ spans, s.isSynthetic = false)
    (hline : ∀ s ∈ spans, s.isSynthetic = false → s.line = line)
    (hfits : ∀ s ∈ spans, s.isSynthetic = false → s.stop < limit) :
    ∃ hull, coverAll? spans = some hull ∧ hull.line = line ∧
      IsLeast (Span.col '' sourced spans) hull.col ∧
      IsGreatest (Span.stop '' sourced spans) hull.stop ∧
      ∀ others : List Span,
        (∀ s, s.isSynthetic = false → (s ∈ others ↔ s ∈ spans)) → coverAll? others = some hull := by
  obtain ⟨hull, hcover, hline', hhull⟩ := isHull_of_coverAll? hsourced hline hfits
  refine ⟨hull, hcover, hline', hhull.col, hhull.stop, fun others hsame => ?_⟩
  have hset : sourced others = sourced spans := by
    ext s
    exact and_congr_left fun hs => hsame s hs
  obtain ⟨s, hs, hsource⟩ := hsourced
  obtain ⟨hull', hcover', -, hhull'⟩ := isHull_of_coverAll? ⟨s, (hsame s hsource).mpr hs, hsource⟩
    (fun x hx hxs => hline x ((hsame x hxs).mp hx) hxs)
    (fun x hx hxs => hfits x ((hsame x hxs).mp hx) hxs)
  rw [hcover', hhull'.unique (hset ▸ hhull)]

/-- Among spans without a source, two on line `1` and one there that ends at the last position. -/
theorem covering_gives_hull_lastPosition :
    ∃ hull,
      coverAll? [⟨0, 9, 9⟩, ⟨1, 12, 4⟩, ⟨0, 0, 0⟩, ⟨1, 4294967290, 5⟩, ⟨1, 5, 3⟩] = some hull ∧
      hull = ⟨1, 5, 4294967290⟩ ∧ hull.stop + 1 = limit ∧
      coverAll? [⟨1, 5, 3⟩, ⟨1, 4294967290, 5⟩, ⟨1, 5, 3⟩, ⟨0, 7, 7⟩, ⟨1, 12, 4⟩] = some hull := by
  obtain ⟨hull, hcover, -, -, -, hsame⟩ := @covering_gives_hull
    [⟨0, 9, 9⟩, ⟨1, 12, 4⟩, ⟨0, 0, 0⟩, ⟨1, 4294967290, 5⟩, ⟨1, 5, 3⟩] 1
    (by decide) (by decide) (by decide)
  have hhull : hull = ⟨1, 5, 4294967290⟩ := Option.some.inj (hcover.symm.trans rfl)
  refine ⟨hull, hcover, hhull, by rw [hhull]; rfl, hsame _ fun s hs => ?_⟩
  have hne : ∀ col len, s ≠ ⟨0, col, len⟩ := by
    rintro col len rfl
    cases hs
  simp only [List.mem_cons, List.not_mem_nil, or_false, hne, false_or]
  tauto

end RuleTypes.Span
