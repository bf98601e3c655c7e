import RuleTypes.Proofs.TypeTable.Renaming

/-!
# Tables that grew apart

Two tables that have grown from one table, each in its own way, share the types of that table and
hold many others under different ids. Any two ways of relating their ids that leave the shared ones
alone agree with each other, since a type that is no declared struct is told by its form, and the
declared structs are all shared. So there is a greatest renaming between the two tables
(`Matches.exists_greatest`), and whatever was found to be related can be gathered in it.
-/

namespace RuleTypes.TypeTable

open List (Forall₂)

variable {t t₁ t₂ : TypeTable} {R R' : Renaming} {a b b' : TypeId} {form : Form}

/-- Declared structs are not added, so those of the later table were there before. -/
theorem Extends.index_lt_of_isDeclared (h : t.Extends t₁) (hform : t₁.form? a = some form)
    (hdeclared : form.isDeclared = true) : a.index < t.size := by
  induction h with
  | refl => exact form?_eq_some_lt hform
  | tail _ hadd ih =>
    obtain ⟨new, -, hadmits, -, rfl⟩ := hadd
    rw [form?_push] at hform
    split at hform
    · obtain rfl := Option.some.inj hform
      cases new with
      | declared => exact hadmits.shaped.elim
      | _ => cases hdeclared
    · exact ih hform

/-! ## The ids of a table -/

/-- The renaming that leaves the ids of a table as they are. -/
def Canonical.same (h : t.Canonical) : Renaming := .below t.size (form?_eq_some_lt h.noValue)

theorem Canonical.matches_same (h : t.Canonical) : Matches h.same t t :=
  .of_agreement _ h h le_rfl (fun _ _ => rfl)
    (fun id form _ hform part hpart => h.issued id form hform part hpart) (fun _ _ => Iff.rfl)
    (refl_of SameBasis t) fun _ _ hid => form?_eq_some_lt (form?_of_find? hid)

theorem Canonical.same_le_symm (h : t.Canonical) (hR : h.same ≤ R) : h.same ≤ R.symm := by
  rintro a _ ⟨rfl, ha⟩
  exact hR a a ⟨rfl, ha⟩

/-! ## The greatest renaming -/

namespace Matches

theorem exists_rel_of_mem {ids ids' : List TypeId} (h : Forall₂ R.rel ids ids') (ha : a ∈ ids) :
    ∃ b, R.rel a b := by
  induction h with
  | nil => cases ha
  | cons hab _ ih =>
    obtain rfl | ha := List.mem_cons.mp ha
    · exact ⟨_, hab⟩
    · exact ih ha

/-- Renamings that leave the shared ids alone agree. The induction is on the age of the type: a
declared struct is shared, and other types are told by their components, which are older. -/
theorem eq_of_rel (hbase : t.Canonical) (hext : t.Extends t₁) (hR : hbase.same ≤ R)
    (hR' : hbase.same ≤ R') (h : Matches R t₁ t₂) (h' : Matches R' t₁ t₂) (hab : R.rel a b)
    (hab' : R'.rel a b') : b = b' := by
  induction hn : a.index using Nat.strong_induction_on generalizing a b b' with
  | _ n ih =>
    subst hn
    obtain ⟨f, g, hf, hg, hform⟩ := h.form a b hab
    obtain ⟨f', g', hf', hg', hform'⟩ := h'.form a b' hab'
    obtain rfl := Option.some.inj (hf.symm.trans hf')
    cases hdeclared : f.isDeclared with
    | true =>
      have hshared : hbase.same.rel a a := ⟨rfl, hext.index_lt_of_isDeclared hf hdeclared⟩
      have hb : b = a := R.biUnique.2 hab (hR a a hshared)
      have hb' : b' = a := R'.biUnique.2 hab' (hR' a a hshared)
      rw [hb, hb']
    | false =>
      have hparts : g'.Renames (fun d c => R.rel c d) f := by
        refine hform'.symm.imp_mem fun d c hcd hc => ?_
        obtain ⟨d', hd'⟩ := exists_rel_of_mem hform.components hc
        have heq := ih c.index (h.left.older a f hf hdeclared c hc) hd' hcd rfl
        exact heq ▸ hd'
      obtain rfl := (Form.Renames.biUnique R.symm.biUnique).1 hform.symm hparts
      exact h.right.unique b b' g hg hg' (hform.isDeclared.trans hdeclared)

/-- **Two tables that grew from one have a greatest renaming.** -/
theorem exists_greatest (hbase : t.Canonical) (hext₁ : t.Extends t₁) (hext₂ : t.Extends t₂) :
    ∃ R, hbase.same ≤ R ∧ Matches R t₁ t₂ ∧
      ∀ R', hbase.same ≤ R' → Matches R' t₁ t₂ → R' ≤ R := by
  have hsame : Matches hbase.same t₁ t₂ := hbase.matches_same.of_extends hext₁ hext₂
  let R : Renaming :=
    { rel := fun a b => ∃ R, hbase.same ≤ R ∧ Matches R t₁ t₂ ∧ R.rel a b
      biUnique := by
        constructor
        · rintro a b c ⟨R, hR, h, hac⟩ ⟨R', hR', h', hbc⟩
          exact eq_of_rel hbase hext₂ (hbase.same_le_symm hR) (hbase.same_le_symm hR') h.symm
            h'.symm hac hbc
        · rintro a b c ⟨R, hR, h, hab⟩ ⟨R', hR', h', hac⟩
          exact eq_of_rel hbase hext₁ hR hR' h h' hab hac
      auto := ⟨_, le_rfl, hsame, hbase.same.auto⟩
      noValue := ⟨_, le_rfl, hsame, hbase.same.noValue⟩ }
  have hle : ∀ R', hbase.same ≤ R' → Matches R' t₁ t₂ → R' ≤ R :=
    fun R' hR' h a b hab => ⟨R', hR', h, hab⟩
  refine ⟨R, hle _ le_rfl hsame, ⟨hsame.left, hsame.right, ?_, ?_, hsame.generics, ?_⟩, hle⟩
  · rintro a b ⟨R', hR', h, hab⟩
    obtain ⟨f, g, hf, hg, hform⟩ := h.form a b hab
    exact ⟨f, g, hf, hg, hform.mono (hle R' hR' h)⟩
  · rintro a b ⟨R', -, h, hab⟩
    exact h.pending a b hab
  · exact fun name => optionRel_imp (hle _ le_rfl hsame) (hsame.primitive? name)

end Matches

end RuleTypes.TypeTable
