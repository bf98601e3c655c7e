import Mathlib.Data.List.Basic
import RuleTypes.Proofs.TypeTable.Growth
import RuleTypes.TypeTable.Render

/-!
# Fingerprints as texts

The text of a fingerprint has a fixed length and determines the fingerprint, so a text that ends in
one determines both parts (`append_text_inj`). A type keeps its fingerprint when its table is
extended (`fingerprint_extends`).
-/

namespace RuleTypes

namespace Fingerprint

/-! ## Reading the text back -/

/-- The value of a hexadecimal digit. -/
def digitValue (c : Char) : Nat := "0123456789abcdef".toList.idxOf c

/-- The number that hexadecimal digits write. -/
def readDigits (digits : List Char) : Nat := digits.foldl (fun n c => 16 * n + digitValue c) 0

theorem digitValue_digitChar {d : Nat} (h : d < 16) : digitValue d.digitChar = d := by
  have hall : ∀ d < 16, digitValue d.digitChar = d := by decide
  exact hall d h

theorem readDigits_toDigits (n : Nat) : readDigits (Nat.toDigits 16 n) = n := by
  induction n using Nat.strongRecOn with
  | _ n ih =>
    by_cases hn : n < 16
    · rw [Nat.toDigits_of_lt_base hn]
      exact (Nat.zero_add _).trans (digitValue_digitChar hn)
    · have hdigit := digitValue_digitChar (Nat.mod_lt n (by decide : 16 > 0))
      rw [Nat.toDigits_of_base_le (by decide) (Nat.le_of_not_lt hn), readDigits, List.foldl_append]
      change 16 * readDigits (Nat.toDigits 16 (n / 16)) + digitValue (n % 16).digitChar = n
      rw [ih (n / 16) (by omega), hdigit]
      omega

/-- Leading zeros do not count. -/
theorem readDigits_replicate_append (k : Nat) (digits : List Char) :
    readDigits (List.replicate k '0' ++ digits) = readDigits digits := by
  induction k with
  | zero => rfl
  | succ k ih => exact ih

theorem readDigits_text (f : Fingerprint) : readDigits f.text.toList = f.bits.toNat := by
  rw [text, String.toList_ofList, readDigits_replicate_append, readDigits_toDigits]

theorem text_injective {f g : Fingerprint} (h : f.text = g.text) : f = g := by
  have hbits : f.bits.toNat = g.bits.toNat := by
    rw [← readDigits_text, h, readDigits_text]
  cases f
  cases g
  exact congrArg _ (UInt64.toNat_inj.mp hbits)

theorem length_text (f : Fingerprint) : f.text.toList.length = 16 := by
  have hdigits : (Nat.toDigits 16 f.bits.toNat).length ≤ 16 :=
    (Nat.length_toDigits_le_iff (by decide) (by decide)).mpr f.bits.toNat_lt
  rw [text, String.toList_ofList, List.length_append, List.length_replicate]
  omega

/-- A text that ends in a fingerprint determines what comes before and the fingerprint. -/
theorem append_text_inj {before before' : String} {f g : Fingerprint} :
    before ++ f.text = before' ++ g.text ↔ before = before' ∧ f = g := by
  constructor
  · intro h
    have hchars : before.toList ++ f.text.toList = before'.toList ++ g.text.toList := by
      rw [← String.toList_append, h, String.toList_append]
    obtain ⟨hbefore, htext⟩ :=
      List.append_inj' hchars ((length_text f).trans (length_text g).symm)
    exact ⟨String.toList_injective hbefore, text_injective (String.toList_injective htext)⟩
  · rintro ⟨rfl, rfl⟩
    rfl

end Fingerprint

/-! ## Fingerprints in a growing table -/

/-- The fingerprint of a form uses those of its components only when they are known. -/
theorem Form.fingerprint_mono {known known' : TypeId → Except Fault Fingerprint}
    (h : ∀ id f, known id = .ok f → known' id = .ok f) {form : Form} {f : Fingerprint}
    (hform : form.fingerprint known = .ok f) : form.fingerprint known' = .ok f := by
  cases form with
  | auto | noValue | primitive | declared => exact hform
  | pointer base =>
    obtain ⟨b, hb, hform⟩ := except_bind_eq_ok.mp hform
    exact except_bind_eq_ok.mpr ⟨b, h base b hb, hform⟩
  | function params result =>
    obtain ⟨ps, hps, hform⟩ := except_bind_eq_ok.mp hform
    obtain ⟨r, hr, hform⟩ := except_bind_eq_ok.mp hform
    exact except_bind_eq_ok.mpr ⟨ps, except_mapM_mono h hps,
      except_bind_eq_ok.mpr ⟨r, h result r hr, hform⟩⟩
  | generic name args =>
    obtain ⟨as, has, hform⟩ := except_bind_eq_ok.mp hform
    exact except_bind_eq_ok.mpr ⟨as, except_mapM_mono h has, hform⟩
  | record fields =>
    obtain ⟨fs, hfs, hform⟩ := except_bind_eq_ok.mp hform
    refine except_bind_eq_ok.mpr ⟨fs, except_mapM_mono (fun field b hb => ?_) hfs, hform⟩
    obtain ⟨type, htype, hb⟩ := except_bind_eq_ok.mp hb
    exact except_bind_eq_ok.mpr ⟨type, h _ type htype, hb⟩

namespace TypeTable

variable {t t' : TypeTable} {id : TypeId} {f : Fingerprint}

theorem fingerprintAt_extends (h : t.Extends t') {depth : Nat}
    (hf : t.fingerprintAt depth id = .ok f) : t'.fingerprintAt depth id = .ok f := by
  induction depth generalizing id f with
  | zero => cases hf
  | succ depth ih =>
    obtain ⟨form, hform, hf⟩ := except_bind_eq_ok.mp hf
    exact except_bind_eq_ok.mpr ⟨form, form_eq_ok.mpr (h.form? (form_eq_ok.mp hform)),
      Form.fingerprint_mono (fun _ _ => ih) hf⟩

/-- A type keeps its fingerprint when the table is extended. -/
theorem fingerprint_extends (h : t.Extends t') (hf : t.fingerprint id = .ok f) :
    t'.fingerprint id = .ok f := fingerprintAt_extends h hf

end TypeTable

end RuleTypes
