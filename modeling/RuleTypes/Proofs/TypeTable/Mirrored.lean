import RuleTypes.Check.Expression
import RuleTypes.Proofs.TypeTable.Renaming

/-!
# Operations on matching tables

Each operation on a table, asked with some ids, is followed by the same operation on a matching
table, asked with the ids that stand for them. It answers with ids that stand for each other, which
the renaming then relates, or is refused with the same error.
-/

namespace RuleTypes

open List (Forall₂)

/-! ## Maps -/

/-- The maps bind the same names, to related values. -/
def NameMap.Related {α β : Type} (r : α → β → Prop) (m : NameMap α) (m' : NameMap β) : Prop :=
  ∀ name, Option.Rel r (m.get? name) (m'.get? name)

namespace NameMap.Related

variable {α β : Type} {r r' : α → β → Prop} {m : NameMap α} {m' : NameMap β}

theorem empty : Related r .empty .empty := fun _ => .none

theorem mono (hr : ∀ a b, r a b → r' a b) (h : Related r m m') : Related r' m m' :=
  fun name => optionRel_imp hr (h name)

theorem insert (h : Related r m m') (name : String) {a : α} {b : β} (hab : r a b) :
    Related r (m.insert name a) (m'.insert name b) := by
  intro other
  rw [get?_insert, get?_insert]
  split
  · exact .some hab
  · exact h other

theorem erase (h : Related r m m') (name : String) : Related r (m.erase name) (m'.erase name) := by
  intro other
  rw [get?_erase, get?_erase]
  split
  · exact .none
  · exact h other

theorem contains (h : Related r m m') (name : String) : m'.contains name = m.contains name := by
  unfold NameMap.contains
  rcases optionRel_cases (h name) with ⟨hx, hy⟩ | ⟨a, b, hx, hy, -⟩ <;>
    simp only [hx, hy, Option.isSome]

end NameMap.Related

namespace TypeTable

variable {ε α β : Type} {R : Renaming} {t t' : TypeTable} {a b : TypeId} {f g : Form}
  {fields fields' : List (String × TypeId)} {ids ids' args args' : List TypeId}

/-! ## Adding types -/

theorem Matches.all_issued (h : Matches R t t') (hids : Forall₂ R.rel ids ids') :
    (∀ id ∈ ids, id.index < t.size) ∧ ∀ id ∈ ids', id.index < t'.size := by
  induction hids with
  | nil => exact ⟨nofun, nofun⟩
  | cons hab _ ih =>
    obtain ⟨ha, hb⟩ := h.issued hab
    exact ⟨List.forall_mem_cons.mpr ⟨ha, ih.1⟩, List.forall_mem_cons.mpr ⟨hb, ih.2⟩⟩

theorem Shaped.renames (hshaped : t.Shaped f) (hform : f.Renames R.rel g)
    (hgenerics : t'.generics = t.generics) : t'.Shaped g := by
  cases hform with
  | auto | noValue | declared => exact hshaped
  | primitive | pointer | function => trivial
  | generic name hargs =>
    change t'.generics.get? name = _
    rw [hgenerics, ← hargs.length_eq]
    exact hshaped
  | record hfields =>
    change FieldNames _
    rw [Form.map_fst_of_sameFields hfields]
    exact hshaped

/-- Related forms are found or added under ids that can be related. -/
theorem Matches.internIssued (h : Matches R t t') (hform : f.Renames R.rel g)
    (hshaped : t.Shaped f) (hprimitive : ∀ name, f ≠ .primitive name) :
    Agree Matches Renaming.rel R
      ((requireIssued f.components >>= fun _ => intern f : TableM ε TypeId) t)
      ((requireIssued g.components >>= fun _ => intern g : TableM ε TypeId) t') := by
  have hprimitive' : ∀ name, g ≠ .primitive name := by
    rintro name rfl
    cases hform
    exact hprimitive name rfl
  have hshaped' := hshaped.renames hform h.generics
  obtain ⟨hissued, hissued'⟩ := h.all_issued hform.components
  have hext := internIssued_at (ε := ε) (R := Extends) f hshaped hprimitive
  have hext' := internIssued_at (ε := ε) (R := Extends) g hshaped' hprimitive'
  rw [bind_of_ok (requireIssued_eq_ok (u := ()).mpr ⟨hissued, rfl⟩)] at hext ⊢
  rw [bind_of_ok (requireIssued_eq_ok (u := ()).mpr ⟨hissued', rfl⟩)] at hext' ⊢
  obtain ⟨a, t₁, hok⟩ := intern_ok (ε := ε) f t
  obtain ⟨b, t₁', hok'⟩ := intern_ok (ε := ε) g t'
  rw [hok] at hext ⊢
  rw [hok'] at hext' ⊢
  have hstructural : f.isStructural = true := (Admits.mk hshaped hissued).isStructural
  obtain ⟨R', hle, hab, hmatches⟩ := (h.of_extends hext hext').insert (form?_of_intern hok)
    (form?_of_intern hok') hform (Form.isDeclared_eq_false hstructural)
  exact .ok hle hmatches hab

theorem internPointer_mirrors (hab : R.rel a b) :
    Mirrors Matches Renaming.rel R (internPointer a : TableM ε TypeId) (internPointer b) :=
  fun _ hR _ _ h => h.internIssued (.pointer (hR _ _ hab)) trivial nofun

theorem internFunction_mirrors (hids : Forall₂ R.rel ids ids') (hab : R.rel a b) :
    Mirrors Matches Renaming.rel R (internFunction ids a : TableM ε TypeId)
      (internFunction ids' b) :=
  fun _ hR _ _ h => h.internIssued (.function (hids.imp hR) (hR _ _ hab)) trivial nofun

theorem internGeneric_mirrors (name : String) (hargs : Forall₂ R.rel args args') :
    Mirrors Matches Renaming.rel R (internGeneric name args) (internGeneric name args') := by
  intro R' hR t t' h
  rw [internGeneric_eq, internGeneric_eq, h.generics]
  cases hget : t.generics.get? name with
  | none => exact .error le_rfl h
  | some arity =>
    dsimp only
    rw [← hargs.length_eq]
    split
    · exact .error le_rfl h
    · rename_i harity
      exact h.internIssued (.generic name (hargs.imp hR)) (by simpa [Shaped, hget] using harity)
        nofun

theorem internSlice_mirrors (hab : R.rel a b) :
    Mirrors Matches Renaming.rel R (internSlice a : TableM ε TypeId) (internSlice b) := by
  intro R' hR t t' h
  have hgeneric := internGeneric_mirrors Form.sliceName (.cons hab .nil) R' hR t t' h
  unfold internSlice
  revert hgeneric
  generalize internGeneric Form.sliceName [a] t = result
  generalize internGeneric Form.sliceName [b] t' = result'
  intro hgeneric
  cases hgeneric with
  | ok hw hs hq => exact .ok hw hs hq
  | error => exact .fault _ _ _
  | fault => exact .fault _ _ _

theorem mapError_mirrors {ε' : Type} {S : Renaming → TypeTable → TypeTable → Prop}
    {Q : Renaming → α → β → Prop} {x : TableM ε α} {y : TableM ε β} (reword : ε → ε')
    (hxy : Mirrors S Q R x y) : Mirrors S Q R (x.mapError reword) (y.mapError reword) := by
  intro R' hR t t' h
  have hagree := hxy R' hR t t' h
  unfold TableM.mapError
  revert hagree
  generalize x t = result
  generalize y t' = result'
  intro hagree
  cases hagree with
  | ok hw hs hq => exact .ok hw hs hq
  | error hw hs => exact .error hw hs
  | fault => exact .fault _ _ _

/-- Where the names are not refused, they can stand together. -/
theorem requireFieldNames_mirrors (owner : String) (names : List String) :
    Mirrors Matches (fun _ _ _ => FieldNames names) R (requireFieldNames owner names)
      (requireFieldNames owner names) := by
  unfold requireFieldNames
  cases hnone : fieldNamesError? owner [] names with
  | some cause => exact .throw cause
  | none => exact .pure fun _ _ => (fieldNamesError?_eq_none_iff.mp hnone).1

theorem internRecord_mirrors (hfields : Forall₂ (Form.SameField R.rel) fields fields') :
    Mirrors Matches Renaming.rel R (internRecord fields) (internRecord fields') := by
  unfold internRecord
  rw [Form.map_fst_of_sameFields hfields]
  refine (requireFieldNames_mirrors _ _).bind fun R₁ hR₁ _ _ hnames R₂ hR₂ t t' h => ?_
  have hform : (Form.record fields).Renames R₂.rel (.record fields') :=
    .record (hfields.imp fun _ _ hfield => ⟨hfield.1, (hR₁.trans hR₂) _ _ hfield.2⟩)
  exact h.internIssued hform hnames nofun

/-! ## Declared structs -/

theorem reserve_mirrors (name : String) :
    Mirrors Matches Renaming.rel R (reserve name : TableM ε TypeId) (reserve name) := by
  intro R' hR t t' h
  obtain ⟨R₁, hle, hab, hmatches⟩ := h.reserve name
  rw [reserve_eq, reserve_eq]
  exact .ok hle hmatches hab

theorem Matches.isSealed (h : Matches R t t') (hab : R.rel a b) :
    t'.isSealed b = t.isSealed a := by
  have hpending := h.pending a b hab
  rw [← isSealed_eq_false_iff, ← isSealed_eq_false_iff] at hpending
  cases hsealed : t.isSealed a with
  | true => simpa [hsealed] using hpending
  | false => exact hpending.mp hsealed

/-- Structs that wait for their fields are filled or refused together. -/
theorem Matches.fill_pending (h : Matches R t t') (hab : R.rel a b) (hpending : a ∈ t.pending)
    (hfields : Forall₂ (Form.SameField R.rel) fields fields') :
    Agree Matches (fun _ _ _ => True) R (TypeTable.fill a fields t)
      (TypeTable.fill b fields' t') := by
  have hpending' : b ∈ t'.pending := (h.pending a b hab).mp hpending
  obtain ⟨name, hform⟩ := h.left.pending a hpending
  obtain ⟨name', hform'⟩ := h.right.pending b hpending'
  obtain ⟨rfl⟩ : name = name' := by
    have hrenames := h.renames hab hform hform'
    cases hrenames
    rfl
  obtain ⟨hissued, hissued'⟩ := h.all_issued (Form.map_snd_of_sameFields hfields)
  rw [fill_eq hform hpending, fill_eq hform' hpending', Form.map_fst_of_sameFields hfields,
    bind_of_ok (requireIssued_eq_ok (u := ()).mpr ⟨hissued, rfl⟩),
    bind_of_ok (requireIssued_eq_ok (u := ()).mpr ⟨hissued', rfl⟩)]
  unfold requireFieldNames
  cases hnone : fieldNamesError? name [] (fields.map (·.1)) with
  | some cause => exact .error le_rfl h
  | none =>
    have hnames : FieldNames (fields.map (·.1)) := (fieldNamesError?_eq_none_iff.mp hnone).1
    have hnames' : FieldNames (fields'.map (·.1)) := Form.map_fst_of_sameFields hfields ▸ hnames
    refine .ok le_rfl (h.fill hab hform hform' (.fill hform hpending ?_ hnames)
      (.fill hform' hpending' ?_ hnames') hfields) trivial
    · exact fun field hfield => hissued field.2 (List.mem_map_of_mem hfield)
    · exact fun field hfield => hissued' field.2 (List.mem_map_of_mem hfield)

theorem fill_mirrors (hab : R.rel a b) (hfields : Forall₂ (Form.SameField R.rel) fields fields') :
    Mirrors Matches (fun _ _ _ => True) R (TypeTable.fill a fields)
      (TypeTable.fill b fields') := by
  intro R' hR t t' h
  have hab' := hR _ _ hab
  by_cases hpending : a ∈ t.pending
  · exact h.fill_pending hab' hpending
      (hfields.imp fun _ _ hfield => ⟨hfield.1, hR _ _ hfield.2⟩)
  -- any other type is refused under its text
  have hsealed : t.isSealed a = true := by
    rw [← isSealed_eq_false_iff] at hpending
    simpa using hpending
  obtain ⟨f, g, hf, hg, hform⟩ := h.form a b hab'
  unfold TypeTable.fill
  cases htext : t.text a with
  | error cause =>
    have hfault : (TableM.ofExcept (fun t => t.text a) : TableM TableError String) t =
        .error (.fault cause) t := by
      simp only [TableM.ofExcept, htext]
    rw [bind_of_error hfault]
    exact .fault _ _ _
  | ok owner =>
    have htext' := (h.text hab').eq_ok htext
    rw [bind_of_ok (ofExcept_eq_ok.mpr ⟨htext, rfl⟩),
      bind_of_ok (ofExcept_eq_ok.mpr ⟨form_eq_ok.mpr hf, rfl⟩),
      bind_of_ok (ofExcept_eq_ok.mpr ⟨htext', rfl⟩),
      bind_of_ok (ofExcept_eq_ok.mpr ⟨form_eq_ok.mpr hg, rfl⟩), get_bind, get_bind, hsealed,
      (h.isSealed hab').trans hsealed, if_pos rfl, if_pos rfl, hform.isDeclared]
    exact .error le_rfl h

/-! ## Searches -/

section Searching

variable {id : TypeId} {next : Form → List TypeId} {stop? stop?' : TypeId → Form → Option β}

theorem search_of_form? {visited : List TypeId} (hnew : id ∉ visited) (hform : t.form? id = some f)
    (stack : List TypeId) : t.search next stop? visited (id :: stack) =
      match stop? id f with
      | some answer => .ok (some answer)
      | none => t.search next stop? (id :: visited) ((next f).reverse ++ stack) := by
  rw [TypeTable.search, dif_neg (by simpa using hnew)]
  split
  · rename_i hnone
    cases hnone.symm.trans hform
  · rename_i other hother
    obtain rfl := Option.some.inj (hother.symm.trans hform)
    rfl

/-- Searches that stop at related types go the same way. -/
theorem Matches.search (h : Matches R t t')
    (hnext : ∀ f g, f.Renames R.rel g → Forall₂ R.rel (next f) (next g))
    (hstop : ∀ a b f g, R.rel a b → f.Renames R.rel g → stop?' b g = stop? a f)
    {visited visited' stack stack' : List TypeId} (hvisited : Forall₂ R.rel visited visited')
    (hstack : Forall₂ R.rel stack stack') :
    Echoes Eq (t.search next stop? visited stack) (t'.search next stop?' visited' stack') := by
  fun_induction t.search next stop? visited stack generalizing visited' stack' with
  | case1 visited =>
    cases hstack
    rw [TypeTable.search]
    exact .ok rfl
  | case2 visited id stack hseen ih =>
    cases hstack with
    | cons hab hstack =>
      have hseen' := (R.mem_iff hab hvisited).mp (by simpa using hseen)
      rw [TypeTable.search, dif_pos (by simpa using hseen')]
      exact ih hvisited hstack
  | case3 visited id stack hseen hform => exact .error _ _
  | case4 visited id stack hseen form hform answer hanswer =>
    cases hstack with
    | cons hab hstack =>
      have hseen' := mt (R.mem_iff hab hvisited).mpr (by simpa using hseen)
      obtain ⟨f, g, hf, hg, hrenames⟩ := h.form _ _ hab
      obtain rfl := Option.some.inj (hf.symm.trans hform)
      rw [search_of_form? hseen' hg, hstop _ _ _ _ hab hrenames, hanswer]
      exact .ok rfl
  | case5 visited id stack hseen form hform hanswer ih =>
    cases hstack with
    | cons hab hstack =>
      have hseen' := mt (R.mem_iff hab hvisited).mpr (by simpa using hseen)
      obtain ⟨f, g, hf, hg, hrenames⟩ := h.form _ _ hab
      obtain rfl := Option.some.inj (hf.symm.trans hform)
      rw [search_of_form? hseen' hg, hstop _ _ _ _ hab hrenames, hanswer]
      exact ih (.cons hab hvisited)
        (List.rel_append (List.rel_reverse (hnext _ _ hrenames)) hstack)

end Searching

theorem heldByValue_renames (hform : f.Renames R.rel g) :
    Forall₂ R.rel (heldByValue f) (heldByValue g) := by
  unfold heldByValue
  rcases optionRel_cases hform.fields? with ⟨hf, hg⟩ | ⟨fields, fields', hf, hg, hfields⟩ <;>
    rw [hf, hg]
  · exact .nil
  · exact Form.map_snd_of_sameFields hfields

/-- A struct holds itself by value in both tables or in none. -/
theorem Matches.containsItself (h : Matches R t t') (hab : R.rel a b) :
    Echoes Eq (t.containsItself a) (t'.containsItself b) := by
  refine (h.form_echoes hab).bind fun f g hform => ?_
  refine Echoes.bind (h.search (fun _ _ => heldByValue_renames) (fun c d f g hcd _ => ?_) .nil
    (List.rel_reverse (heldByValue_renames hform))) fun _ _ heq => .ok (heq ▸ rfl)
  by_cases hca : c = a
  · rw [if_pos hca, if_pos ((R.eq_iff hcd hab).mp hca)]
  · rw [if_neg hca, if_neg fun heq => hca ((R.eq_iff hcd hab).mpr heq)]

/-- A type mentions the same broken struct in both tables. -/
theorem Matches.firstBroken? (h : Matches R t t') {names names' : Names}
    (hnames : NameMap.Related R.rel names names') (hab : R.rel a b) :
    Echoes Eq (t.firstBroken? names a) (t'.firstBroken? names' b) := by
  refine h.search (fun _ _ => Form.Renames.components) (fun c d f g hcd hform => ?_) .nil
    (.cons hab .nil)
  cases hform with
  | declared name hfields =>
    have hname : names.get? name = some c ↔ names'.get? name = some d := by
      rcases optionRel_cases (hnames name) with ⟨hx, hy⟩ | ⟨x, y, hx, hy, hxy⟩
      · simp [hx, hy]
      · simpa [hx, hy] using R.eq_iff hxy hcd
    unfold brokenName?
    simp only [h.isSealed hcd, hname]
  | _ => rfl

/-! ## Selecting and reading -/

theorem Matches.matching (h : Matches R t t') (hargs : Forall₂ R.rel args args')
    (hids : Forall₂ R.rel ids ids') :
    Echoes (Forall₂ R.rel) (t.matching args ids) (t'.matching args' ids') := by
  induction hids with
  | nil => exact .ok .nil
  | cons hab _ ih =>
    refine (h.form_echoes hab).bind fun f g hform => ih.bind fun _ _ hrest => .ok ?_
    have hparams : f.signature?.map (·.1) = some args ↔ g.signature?.map (·.1) = some args' := by
      rcases optionRel_cases hform.signature? with ⟨hf, hg⟩ | ⟨x, y, hf, hg, hxy⟩
      · simp [hf, hg]
      · simpa [hf, hg] using Relator.rel_eq R.biUnique.forall₂ hxy.1 hargs
    simp only [hparams]
    split
    · exact .cons hab hrest
    · exact hrest

/-- The choice between candidates has the same outcome in both tables. -/
theorem Matches.selectExact (h : Matches R t t') (symbol : String)
    (hids : Forall₂ R.rel ids ids') (hargs : Forall₂ R.rel args args') :
    Echoes R.rel (t.selectExact symbol ids args) (t'.selectExact symbol ids' args') ∧
      ∀ cause, t.selectExact symbol ids args = .error (.error cause) →
        t'.selectExact symbol ids' args' = .error (.error cause) := by
  unfold TypeTable.selectExact
  cases hfound : t.matching args ids with
  | error cause => exact ⟨.error _ _, nofun⟩
  | ok found =>
    obtain ⟨found', hfound', hrel⟩ := h.matching hargs hids found hfound
    rw [hfound']
    cases hrel with
    | nil =>
      cases htext : t.listText args with
      | error cause => exact ⟨.error _ _, nofun⟩
      | ok text =>
        simp only [(h.listText hargs).eq_ok htext]
        exact ⟨.error _ _, fun _ => id⟩
    | cons hab hrest =>
      cases hrest with
      | nil => exact ⟨.ok hab, nofun⟩
      | cons hcd hrest =>
        cases htext : t.listText args with
        | error cause => exact ⟨.error _ _, nofun⟩
        | ok text =>
          simp only [(h.listText hargs).eq_ok htext, List.length_cons, hrest.length_eq]
          exact ⟨.error _ _, fun _ => id⟩

/-- The candidates are found in their order. -/
theorem matching_perm (t : TypeTable) (args : List TypeId) (h : ids.Perm ids') :
    Echoes List.Perm (t.matching args ids) (t.matching args ids') := by
  induction h with
  | nil => exact .ok .nil
  | cons id _ ih =>
    refine (Echoes.of_eq (t.form id)).bind fun f _ hf => ih.bind fun _ _ hrest => .ok ?_
    subst hf
    split
    · exact hrest.cons id
    · exact hrest
  | swap a b ids =>
    intro found hfound
    simp only [matching] at hfound ⊢
    obtain ⟨g, hg, hfound⟩ := except_bind_eq_ok.mp hfound
    obtain ⟨rest, hrest, hfound⟩ := except_bind_eq_ok.mp hfound
    obtain ⟨f, hf, hrest⟩ := except_bind_eq_ok.mp hrest
    obtain ⟨last, hlast, hrest⟩ := except_bind_eq_ok.mp hrest
    cases hrest
    cases hfound
    rw [hf, hg, hlast]
    refine ⟨_, rfl, ?_⟩
    split <;> split <;> first | exact .swap a b last | exact .refl _
  | trans _ _ ih ih' =>
    intro found hfound
    obtain ⟨found', hfound', hperm⟩ := ih found hfound
    obtain ⟨found'', hfound'', hperm'⟩ := ih' found' hfound'
    exact ⟨found'', hfound'', hperm.trans hperm'⟩

/-- The choice between candidates does not depend on their order. -/
theorem selectExact_perm (t : TypeTable) (symbol : String) (args : List TypeId)
    (h : ids.Perm ids') :
    Echoes Eq (t.selectExact symbol ids args) (t.selectExact symbol ids' args) ∧
      ∀ cause, t.selectExact symbol ids args = .error (.error cause) →
        t.selectExact symbol ids' args = .error (.error cause) := by
  unfold TypeTable.selectExact
  cases hfound : t.matching args ids with
  | error cause => exact ⟨.error _ _, nofun⟩
  | ok found =>
    obtain ⟨found', hfound', hperm⟩ := t.matching_perm args h found hfound
    rw [hfound']
    rcases found with _ | ⟨a, _ | ⟨c, rest⟩⟩
    · obtain rfl := hperm.nil_eq
      exact ⟨.of_eq _, fun _ => id⟩
    · obtain rfl := List.singleton_perm.mp hperm
      exact ⟨.of_eq _, fun _ => id⟩
    · have hlength := hperm.length_eq
      rcases found' with _ | ⟨b, _ | ⟨d, rest'⟩⟩
      · cases hlength
      · cases hlength
      · dsimp only
        rw [hlength]
        exact ⟨.of_eq _, fun _ => id⟩

theorem Matches.resultOf (h : Matches R t t') (hab : R.rel a b) :
    Echoes R.rel (t.resultOf a) (t'.resultOf b) := by
  refine (h.form_echoes hab).bind fun f g hform => ?_
  rcases optionRel_cases hform.signature? with ⟨hf, hg⟩ | ⟨x, y, hf, hg, hxy⟩ <;> rw [hf, hg]
  · exact .error _ _
  · exact .ok hxy.2

/-- Related owners with related fields. -/
def SameStruct (R : Renaming) (x y : TypeId × List (String × TypeId)) : Prop :=
  R.rel x.1 y.1 ∧ Forall₂ (Form.SameField R.rel) x.2 y.2

theorem fields?_sameStruct (hab : R.rel a b) (hform : f.Renames R.rel g) :
    Option.Rel (SameStruct R) (f.fields?.map (a, ·)) (g.fields?.map (b, ·)) := by
  rcases optionRel_cases hform.fields? with ⟨hf, hg⟩ | ⟨x, y, hf, hg, hxy⟩ <;> rw [hf, hg]
  · exact .none
  · exact .some ⟨hab, hxy⟩

theorem Matches.structOf (h : Matches R t t') (hab : R.rel a b) :
    Echoes (Option.Rel (SameStruct R)) (t.structOf a) (t'.structOf b) := by
  refine (h.form_echoes hab).bind fun f g hform => ?_
  cases hform with
  | pointer hbase =>
    exact (h.form_echoes hbase).bind fun f g hform => .ok (fields?_sameStruct hbase hform)
  | auto => exact .ok (fields?_sameStruct hab .auto)
  | noValue => exact .ok (fields?_sameStruct hab .noValue)
  | primitive name => exact .ok (fields?_sameStruct hab (.primitive name))
  | function hparams hresult => exact .ok (fields?_sameStruct hab (.function hparams hresult))
  | generic name hargs => exact .ok (fields?_sameStruct hab (.generic name hargs))
  | record hfields => exact .ok (fields?_sameStruct hab (.record hfields))
  | declared name hfields => exact .ok (fields?_sameStruct hab (.declared name hfields))

end TypeTable

/-! ## Written types -/

namespace TypeExpr

open TypeTable

variable {R : Renaming} {names names' : Names}

theorem resolveName_mirrors (hnames : NameMap.Related R.rel names names') (name : String) :
    Mirrors Matches Renaming.rel R (resolveName names name) (resolveName names' name) := by
  intro R' hR t t' h
  unfold resolveName
  rcases optionRel_cases (hnames name) with ⟨hx, hy⟩ | ⟨x, y, hx, hy, hxy⟩ <;> rw [hx, hy]
  · rcases optionRel_cases (h.primitive? name) with ⟨hu, hv⟩ | ⟨u, v, hu, hv, huv⟩ <;> rw [hu, hv]
    · exact .error le_rfl h
    · exact .ok le_rfl h huv
  · exact .ok le_rfl h (hR _ _ hxy)

theorem assemble_mirrors (e : TypeExpr) {ids ids' : List TypeId} (hids : Forall₂ R.rel ids ids') :
    Mirrors Matches Renaming.rel R (e.assemble ids) (e.assemble ids') := by
  cases e with
  | auto | named => exact .throw _
  | pointer base =>
    obtain _ | ⟨hbase, _ | ⟨_, _⟩⟩ := hids
    · exact .throw _
    · exact internPointer_mirrors hbase
    · exact .throw _
  | slice element =>
    obtain _ | ⟨helement, _ | ⟨_, _⟩⟩ := hids
    · exact .throw _
    · exact internSlice_mirrors helement
    · exact .throw _
  | generic name args => exact mapError_mirrors _ (internGeneric_mirrors name hids)
  | function params result =>
    cases result with
    | none => exact internFunction_mirrors hids R.noValue
    | some result =>
      exact internFunction_mirrors (forall₂_dropLast hids) (forall₂_getLastD hids R.noValue)
  | record fields => exact mapError_mirrors _ (internRecord_mirrors (forall₂_zip_left _ hids))

theorem resolution_mirrors :
    (∀ (e : TypeExpr) (R : Renaming), NameMap.Related R.rel names names' →
      Mirrors Matches Renaming.rel R (e.resolveConcrete names) (e.resolveConcrete names')) ∧
    ∀ (es : List TypeExpr) (R : Renaming), NameMap.Related R.rel names names' →
      Mirrors Matches (fun R => Forall₂ R.rel) R (resolveAll names es) (resolveAll names' es) := by
  refine parts_induction ?auto ?named ?compound ?nil ?cons
  case auto =>
    intro R _
    rw [resolveConcrete, resolveConcrete]
    exact .throw _
  case named =>
    intro name R hnames
    rw [resolveConcrete, resolveConcrete]
    exact resolveName_mirrors hnames name
  case compound =>
    intro e he hparts R hnames
    rw [resolveConcrete_compound names he, resolveConcrete_compound names' he]
    exact (hparts R hnames).bind fun _ _ _ _ => assemble_mirrors e
  case nil =>
    intro R _
    rw [resolveAll, resolveAll]
    exact .pure fun _ _ => .nil
  case cons =>
    intro e es he hes R hnames
    rw [resolveAll, resolveAll]
    exact (he R hnames).bind fun R₁ hR₁ _ _ hab =>
      (hes R₁ (hnames.mono hR₁)).bind fun _ hR₂ _ _ hrest =>
        .pure fun _ hR₃ => .cons (hR₃ _ _ (hR₂ _ _ hab)) (hrest.imp hR₃)

theorem resolveConcrete_mirrors (e : TypeExpr) (hnames : NameMap.Related R.rel names names') :
    Mirrors Matches Renaming.rel R (e.resolveConcrete names) (e.resolveConcrete names') :=
  resolution_mirrors.1 e R hnames

theorem resolve_mirrors (e : TypeExpr) (hnames : NameMap.Related R.rel names names') :
    Mirrors Matches Renaming.rel R (e.resolve names) (e.resolve names') := by
  unfold resolve
  split
  · exact .pure fun R' _ => R'.auto
  · exact resolveConcrete_mirrors e hnames

end TypeExpr

end RuleTypes
