import RuleTypes.Proofs.TypeTable.Outline
import RuleTypes.Proofs.TypeTable.Searches

/-!
# Text and fingerprint come to an end

Declared structs may hold each other, but the text and the fingerprint of a type stop at them, and
whatever else stands in a type was there before it. So a type of the table is read through in as
many steps down as its id counts, and any bound beyond that is not met. What a reading can meet on
its way is a slice without an argument, which has no text; a slice has its argument unless slices
were declared to take none.
-/

namespace RuleTypes

/-! ## Readings of an outline -/

/-- The reading ends with an answer, or at a slice without an argument. -/
def Reads {α : Type} (x : Except Fault α) : Prop := x = .error .outOfRange ∨ ∃ a, x = .ok a

namespace Reads

variable {α β : Type} {x : Except Fault α} {f : α → Except Fault β}

theorem ok (a : α) : Reads (.ok a) := .inr ⟨a, rfl⟩

theorem bind (hx : Reads x) (hf : ∀ a, Reads (f a)) : Reads (x >>= f) := by
  obtain rfl | ⟨a, rfl⟩ := hx
  · exact .inl rfl
  · exact hf a

end Reads

namespace Outline

mutual

theorem text_reads : ∀ o : Outline, Reads o.text
  | auto | noValue | primitive _ | declared _ => by
    rw [text]
    exact .ok _
  | pointer base => by
    rw [text]
    exact (text_reads base).bind fun _ => .ok _
  | function params result => by
    rw [text]
    refine (texts_reads params).bind fun params => ?_
    dsimp only
    split
    · exact .ok _
    · exact (text_reads result).bind fun _ => .ok _
  | generic name args => by
    rw [text.eq_def]
    dsimp only
    split
    · cases args with
      | nil => exact .inl rfl
      | cons element rest => exact (text_reads element).bind fun _ => .ok _
    · exact (texts_reads args).bind fun _ => .ok _
  | record fields => by
    rw [text]
    exact (fieldTexts_reads fields).bind fun _ => .ok _

theorem texts_reads : ∀ os : List Outline, Reads (texts os)
  | [] => .ok _
  | o :: os => (text_reads o).bind fun _ => (texts_reads os).bind fun _ => .ok _

theorem fieldTexts_reads : ∀ fields : List (String × Outline), Reads (fieldTexts fields)
  | [] => .ok _
  | (_, o) :: fields => (text_reads o).bind fun _ => (fieldTexts_reads fields).bind fun _ => .ok _

end

end Outline

namespace TypeTable

variable {t : TypeTable} {id : TypeId} {form : Form} {o : Outline}

/-! ## Readings of a type -/

/-- At whatever depth beyond its id a type is read, its text and its fingerprint are the same. -/
theorem Canonical.read_at (h : t.Canonical) (ho : t.outline id = .ok o) {depth : Nat}
    (hdepth : id.index < depth) :
    t.textAt depth id = t.text id ∧ t.fingerprintAt depth id = t.fingerprint id := by
  have hdeep : t.outlineAt depth id = .ok o := (Keeps.refl t).outlineAt hdepth ho
  constructor
  · rw [textAt_of_outlineAt h hdeep, h.text_of_outline ho]
  · rw [fingerprintAt_of_outlineAt hdeep, fingerprint_of_outline ho]

/-- Text and fingerprint of a type are made from those of its components, with no bound on how far
down these are read. -/
theorem Canonical.read_of_form? (h : t.Canonical) (hform : t.form? id = some form) :
    t.text id = form.text t.text ∧ t.fingerprint id = form.fingerprint t.fingerprint := by
  obtain ⟨o, ho⟩ := h.exists_outline (form?_eq_some_lt hform)
  have hparts : form.outline t.outline = .ok o := (h.outline_of_form? hform).symm.trans ho
  constructor
  · rw [h.text_of_outline ho]
    exact (Form.text_of_outline (fun _ _ => h.text_of_outline) (fun _ _ => h.isNoValue_iff)
      hparts).symm
  · rw [fingerprint_of_outline ho]
    exact (Form.fingerprint_of_outline (fun _ _ => fingerprint_of_outline) hparts).symm

/-- **Text and fingerprint of every type come to an end**, in every table that any operations have
made. What stands in a type that is no declared struct has a smaller id. So reading a type needs no
more steps down than its id counts, however declared structs refer to each other: text and
fingerprint are the same at any greater depth, and they are made from those of the components, as
the form says. The fingerprint is always there. The text is there if slices were never declared to
take no argument, and else at worst a slice without an argument is met. -/
theorem readings_end {generics : Generics} {ops : List Op}
    (ht : ops.foldl Op.apply (new generics) = t) :
    (∀ id form part, t.form? id = some form → form.isDeclared = false → t.Link id part →
      part.index < id.index) ∧
    ∀ id form, t.form? id = some form →
      (t.text id = form.text t.text ∧ t.fingerprint id = form.fingerprint t.fingerprint) ∧
      (∀ depth, id.index < depth →
        t.textAt depth id = t.text id ∧ t.fingerprintAt depth id = t.fingerprint id) ∧
      (∃ fingerprint, t.fingerprint id = .ok fingerprint) ∧
      (t.text id = .error .outOfRange ∨ ∃ text, t.text id = .ok text) ∧
      (¬ EverDeclared generics ops Form.sliceName 0 → ∃ text, t.text id = .ok text) := by
  have hcanonical : t.Canonical := ht ▸ (canonical_new generics).foldl ops
  constructor
  · intro id form part hform hdeclared hlink
    obtain ⟨form', hform', hpart⟩ := link_iff.mp hlink
    obtain rfl : form = form' := Option.some.inj (hform.symm.trans hform')
    exact hcanonical.older id form hform hdeclared part hpart
  · intro id form hform
    have hissued := form?_eq_some_lt hform
    obtain ⟨o, ho⟩ := hcanonical.exists_outline hissued
    refine ⟨hcanonical.read_of_form? hform, fun depth => hcanonical.read_at ho,
      hcanonical.exists_fingerprint hissued, ?_, fun hnever => ?_⟩
    · rw [hcanonical.text_of_outline ho]
      exact o.text_reads
    · refine hcanonical.exists_text (fun other hslice => hnever ?_) hissued
      rw [← ht] at hslice
      exact (arities_foldl_apply generics ops).form? other _ _ hslice

/-- A slice that was declared to take no argument has no text. -/
example : ([.declareGeneric Form.sliceName 0, .generic Form.sliceName []].foldl Op.apply
    (new .empty)).text ⟨2⟩ = .error .outOfRange := by
  decide

/-- Two structs that hold each other, one of them in a struct without a name, and a function that
takes a list of pointers to the first and the struct without a name. -/
def evenAndOdd : List Op :=
  [.reserve "Even", .reserve "Odd", .pointer ⟨2⟩, .record [("odd", ⟨3⟩)],
    .fill ⟨2⟩ [("rest", ⟨5⟩)], .fill ⟨3⟩ [("even", ⟨2⟩)], .slice ⟨4⟩,
    .function [⟨6⟩, ⟨5⟩] .noValue]

theorem readings_end_evenAndOdd :
    ∃ t, evenAndOdd.foldl Op.apply (new Generics.standard) = t ∧
      ¬ EverDeclared Generics.standard evenAndOdd Form.sliceName 0 ∧
      t.form? ⟨2⟩ = some (.declared "Even" [("rest", ⟨5⟩)]) ∧
      t.form? ⟨5⟩ = some (.record [("odd", ⟨3⟩)]) ∧
      t.form? ⟨3⟩ = some (.declared "Odd" [("even", ⟨2⟩)]) ∧
      ∃ text fingerprint, t.text ⟨7⟩ = .ok text ∧ t.fingerprint ⟨7⟩ = .ok fingerprint := by
  obtain ⟨t, ht⟩ : ∃ t, evenAndOdd.foldl Op.apply (new Generics.standard) = t := ⟨_, rfl⟩
  have hnever : ¬ EverDeclared Generics.standard evenAndOdd Form.sliceName 0 := by
    rintro (hgenerics | hop)
    · cases hgenerics
    · simp [evenAndOdd] at hop
  have heven : t.form? ⟨2⟩ = some (.declared "Even" [("rest", ⟨5⟩)]) := ht ▸ by decide
  have hrest : t.form? ⟨5⟩ = some (.record [("odd", ⟨3⟩)]) := ht ▸ by decide
  have hodd : t.form? ⟨3⟩ = some (.declared "Odd" [("even", ⟨2⟩)]) := ht ▸ by decide
  have hfunction : t.form? ⟨7⟩ = some (.function [⟨6⟩, ⟨5⟩] .noValue) := ht ▸ by decide
  obtain ⟨-, -, ⟨fingerprint, hfingerprint⟩, -, htext⟩ := (readings_end ht).2 ⟨7⟩ _ hfunction
  obtain ⟨text, htext⟩ := htext hnever
  exact ⟨t, ht, hnever, heven, hrest, hodd, text, fingerprint, htext, hfingerprint⟩

end TypeTable

end RuleTypes
