import RuleTypes.Proofs.Mirror
import RuleTypes.Proofs.TypeTable.Failures
import RuleTypes.Proofs.TypeTable.Layout

/-!
# The same types under other ids

Two tables can hold the same types under different ids, each among types that the other does not
have. A `Renaming` says which ids stand for each other, and `TypeTable.Matches` that they do so
rightly: they have the same form up to the renaming, and are pending together. Then every reading of
a type is the same in both tables (`Matches.appearance_eq`), and every operation on the
one is followed by the operation on the other, whatever else the tables hold (`Matches.insert`,
`Matches.reserve`, `Matches.fill`). What is left of other programs therefore never shows.
-/

namespace RuleTypes

open List (Forall₂)

/-! ## Forms -/

namespace Form

variable {r r' : TypeId → TypeId → Prop} {f g : Form}

/-- Two fields of one name with related types. -/
def SameField (r : TypeId → TypeId → Prop) (field field' : String × TypeId) : Prop :=
  field.1 = field'.1 ∧ r field.2 field'.2

/-- The two forms differ in the ids of their components only, and these are related. -/
inductive Renames (r : TypeId → TypeId → Prop) : Form → Form → Prop
  | auto : Renames r .auto .auto
  | noValue : Renames r .noValue .noValue
  | primitive (name : String) : Renames r (.primitive name) (.primitive name)
  | pointer {base base' : TypeId} (hbase : r base base') :
      Renames r (.pointer base) (.pointer base')
  | function {params params' : List TypeId} {result result' : TypeId}
      (hparams : Forall₂ r params params') (hresult : r result result') :
      Renames r (.function params result) (.function params' result')
  | generic (name : String) {args args' : List TypeId} (hargs : Forall₂ r args args') :
      Renames r (.generic name args) (.generic name args')
  | record {fields fields' : List (String × TypeId)}
      (hfields : Forall₂ (SameField r) fields fields') :
      Renames r (.record fields) (.record fields')
  | declared (name : String) {fields fields' : List (String × TypeId)}
      (hfields : Forall₂ (SameField r) fields fields') :
      Renames r (.declared name fields) (.declared name fields')

theorem map_fst_of_sameFields {fields fields' : List (String × TypeId)}
    (h : Forall₂ (SameField r) fields fields') : fields'.map (·.1) = fields.map (·.1) := by
  induction h with
  | nil => rfl
  | cons hfield _ ih => rw [List.map_cons, List.map_cons, ih, hfield.1]

theorem map_snd_of_sameFields {fields fields' : List (String × TypeId)}
    (h : Forall₂ (SameField r) fields fields') :
    Forall₂ r (fields.map (·.2)) (fields'.map (·.2)) := by
  induction h with
  | nil => exact .nil
  | cons hfield _ ih => exact .cons hfield.2 ih

theorem lookup_of_sameFields {fields fields' : List (String × TypeId)}
    (h : Forall₂ (SameField r) fields fields') (name : String) :
    Option.Rel r (fields.lookup name) (fields'.lookup name) := by
  induction h with
  | nil => exact .none
  | @cons field field' _ _ hfield _ ih =>
    rw [List.lookup_cons, List.lookup_cons, ← hfield.1]
    cases name == field.1 with
    | true => exact .some hfield.2
    | false => exact ih

theorem sameField_biUnique (h : Relator.BiUnique r) : Relator.BiUnique (SameField r) := by
  constructor
  · intro a b c hac hbc
    exact Prod.ext (hac.1.trans hbc.1.symm) (h.1 hac.2 hbc.2)
  · intro a b c hab hac
    exact Prod.ext (hab.1.symm.trans hac.1) (h.2 hab.2 hac.2)

namespace Renames

/-- A component of the second form may be taken for one. -/
theorem imp_mem (h : f.Renames r g) (hr : ∀ a b, r a b → b ∈ g.components → r' a b) :
    f.Renames r' g := by
  have hids : ∀ {ids ids' : List TypeId}, Forall₂ r ids ids' →
      (∀ a b, r a b → b ∈ ids' → r' a b) → Forall₂ r' ids ids' := by
    intro ids ids' h hr
    induction h with
    | nil => exact .nil
    | cons hab _ ih =>
      exact .cons (hr _ _ hab (List.mem_cons_self ..))
        (ih fun a b hab hb => hr a b hab (List.mem_cons_of_mem _ hb))
  have hfields : ∀ {fields fields'}, Forall₂ (SameField r) fields fields' →
      (∀ a b, r a b → b ∈ fields'.map (·.2) → r' a b) →
      Forall₂ (SameField r') fields fields' := by
    intro fields fields' h hr
    induction h with
    | nil => exact .nil
    | cons hab _ ih =>
      exact .cons ⟨hab.1, hr _ _ hab.2 (List.mem_cons_self ..)⟩
        (ih fun a b hab hb => hr a b hab (List.mem_cons_of_mem _ hb))
  cases h with
  | auto => exact .auto
  | noValue => exact .noValue
  | primitive name => exact .primitive name
  | pointer hbase => exact .pointer (hr _ _ hbase (List.mem_singleton.mpr rfl))
  | function hparams hresult =>
    exact .function (hids hparams fun a b hab hb => hr a b hab (List.mem_append_left _ hb))
      (hr _ _ hresult (List.mem_append_right _ (List.mem_singleton.mpr rfl)))
  | generic name hargs => exact .generic name (hids hargs hr)
  | record h => exact .record (hfields h hr)
  | declared name h => exact .declared name (hfields h hr)

theorem mono (h : f.Renames r g) (hr : ∀ a b, r a b → r' a b) : f.Renames r' g :=
  h.imp_mem fun a b hab _ => hr a b hab

theorem components (h : f.Renames r g) : Forall₂ r f.components g.components := by
  cases h with
  | auto | noValue | primitive => exact .nil
  | pointer hbase => exact .cons hbase .nil
  | function hparams hresult => exact List.rel_append hparams (.cons hresult .nil)
  | generic _ hargs => exact hargs
  | record h | declared _ h => exact map_snd_of_sameFields h

theorem isDeclared (h : f.Renames r g) : g.isDeclared = f.isDeclared := by cases h <;> rfl

theorem fields? (h : f.Renames r g) :
    Option.Rel (Forall₂ (SameField r)) f.fields? g.fields? := by
  cases h with
  | record h | declared _ h => exact .some h
  | _ => exact .none

theorem signature? (h : f.Renames r g) :
    Option.Rel (fun s s' => Forall₂ r s.1 s'.1 ∧ r s.2 s'.2) f.signature? g.signature? := by
  cases h with
  | function hparams hresult => exact .some ⟨hparams, hresult⟩
  | _ => exact .none

theorem base? (h : f.Renames r g) : Option.Rel r f.base? g.base? := by
  cases h with
  | pointer hbase => exact .some hbase
  | _ => exact .none

theorem element? (h : f.Renames r g) : Option.Rel r f.element? g.element? := by
  cases h with
  | generic name hargs =>
    cases hargs with
    | nil => exact .none
    | cons helement _ =>
      by_cases hname : name = sliceName
      · simpa only [Form.element?, if_pos hname] using .some helement
      · simpa only [Form.element?, if_neg hname] using .none
  | _ => exact .none

/-- If ids are told apart on both sides, so are forms. -/
theorem biUnique (hr : Relator.BiUnique r) : Relator.BiUnique (Renames r) := by
  have hlist := hr.forall₂
  have hfields := (sameField_biUnique hr).forall₂
  constructor
  · intro f f' g h h'
    cases h with
    | auto | noValue | primitive =>
      cases h'
      rfl
    | pointer hbase =>
      cases h' with
      | pointer hbase' => rw [hr.1 hbase hbase']
    | function hparams hresult =>
      cases h' with
      | function hparams' hresult' => rw [hlist.1 hparams hparams', hr.1 hresult hresult']
    | generic _ hargs =>
      cases h' with
      | generic _ hargs' => rw [hlist.1 hargs hargs']
    | record h =>
      cases h' with
      | record h' => rw [hfields.1 h h']
    | declared _ h =>
      cases h' with
      | declared _ h' => rw [hfields.1 h h']
  · intro f g g' h h'
    cases h with
    | auto | noValue | primitive =>
      cases h'
      rfl
    | pointer hbase =>
      cases h' with
      | pointer hbase' => rw [hr.2 hbase hbase']
    | function hparams hresult =>
      cases h' with
      | function hparams' hresult' => rw [hlist.2 hparams hparams', hr.2 hresult hresult']
    | generic _ hargs =>
      cases h' with
      | generic _ hargs' => rw [hlist.2 hargs hargs']
    | record h =>
      cases h' with
      | record h' => rw [hfields.2 h h']
    | declared _ h =>
      cases h' with
      | declared _ h' => rw [hfields.2 h h']

theorem symm (h : f.Renames r g) : g.Renames (fun b a => r a b) f := by
  have hfields : ∀ {fields fields'}, Forall₂ (SameField r) fields fields' →
      Forall₂ (SameField fun b a => r a b) fields' fields := fun h =>
    (h.imp fun _ _ hfield => ⟨hfield.1.symm, hfield.2⟩ : Forall₂ (fun field field' =>
      SameField (fun b a => r a b) field' field) _ _).flip
  cases h with
  | auto => exact .auto
  | noValue => exact .noValue
  | primitive name => exact .primitive name
  | pointer hbase => exact .pointer hbase
  | function hparams hresult => exact .function hparams.flip hresult
  | generic name hargs => exact .generic name hargs.flip
  | record h => exact .record (hfields h)
  | declared name h => exact .declared name (hfields h)

end Renames

end Form

/-! ## Renamings -/

/-- Which ids of one table stand for which of another. Every id stands for at most one, and the two
ids that every table begins with stand for themselves. -/
structure Renaming where
  rel : TypeId → TypeId → Prop
  biUnique : Relator.BiUnique rel
  auto : rel .auto .auto
  noValue : rel .noValue .noValue

namespace Renaming

variable {R R' : Renaming} {a b a' b' : TypeId}

/-- A renaming grows by relating more ids. -/
instance : Preorder Renaming where
  le R R' := ∀ a b, R.rel a b → R'.rel a b
  le_refl _ _ _ := id
  le_trans _ _ _ h h' a b hab := h' a b (h a b hab)

theorem eq_iff (R : Renaming) (h : R.rel a b) (h' : R.rel a' b') : a = a' ↔ b = b' :=
  Relator.rel_eq R.biUnique h h'

theorem mem_iff (R : Renaming) {ids ids' : List TypeId} (h : R.rel a b)
    (hids : Forall₂ R.rel ids ids') : a ∈ ids ↔ b ∈ ids' := List.rel_mem R.biUnique h hids

/-- The ids stand for those of the other list, in some order. -/
def Shuffles (R : Renaming) (ids ids' : List TypeId) : Prop :=
  ∃ mid, Forall₂ R.rel ids mid ∧ mid.Perm ids'

namespace Shuffles

variable {ids ids' others others' : List TypeId}

theorem of_forall₂ (h : Forall₂ R.rel ids ids') : R.Shuffles ids ids' := ⟨ids', h, .refl _⟩

theorem nil : R.Shuffles [] [] := of_forall₂ .nil

theorem mono (hR : R ≤ R') (h : R.Shuffles ids ids') : R'.Shuffles ids ids' := by
  obtain ⟨mid, hmid, hperm⟩ := h
  exact ⟨mid, hmid.imp hR, hperm⟩

theorem append (h : R.Shuffles ids ids') (hothers : R.Shuffles others others') :
    R.Shuffles (ids ++ others) (ids' ++ others') := by
  obtain ⟨mid, hmid, hperm⟩ := h
  obtain ⟨mid', hmid', hperm'⟩ := hothers
  exact ⟨mid ++ mid', List.rel_append hmid hmid', hperm.append hperm'⟩

theorem perm (h : R.Shuffles ids ids') (hperm : ids'.Perm others) : R.Shuffles ids others := by
  obtain ⟨mid, hmid, hperm'⟩ := h
  exact ⟨mid, hmid, hperm'.trans hperm⟩

theorem mem_iff (h : R.Shuffles ids ids') (hab : R.rel a b) : a ∈ ids ↔ b ∈ ids' := by
  obtain ⟨mid, hmid, hperm⟩ := h
  exact (R.mem_iff hab hmid).trans hperm.mem_iff

end Shuffles

/-- The renaming back. -/
def symm (R : Renaming) : Renaming where
  rel b a := R.rel a b
  biUnique := ⟨fun _ _ _ h h' => R.biUnique.2 h h', fun _ _ _ h h' => R.biUnique.1 h h'⟩
  auto := R.auto
  noValue := R.noValue

/-- The renaming that leaves the first `n` ids as they are. -/
def below (n : Nat) (hn : 2 ≤ n) : Renaming where
  rel a b := a = b ∧ a.index < n
  biUnique := ⟨fun _ _ _ h h' => h.1.trans h'.1.symm, fun _ _ _ h h' => h.1.symm.trans h'.1⟩
  auto := ⟨rfl, Nat.lt_of_lt_of_le Nat.zero_lt_two hn⟩
  noValue := ⟨rfl, Nat.lt_of_lt_of_le Nat.one_lt_two hn⟩

/-- The renaming that relates one more pair, neither side of which is related to another id. -/
def insert (R : Renaming) (a b : TypeId) (h : ∀ a' b', R.rel a' b' → (a' = a ↔ b' = b)) :
    Renaming where
  rel a' b' := R.rel a' b' ∨ a' = a ∧ b' = b
  biUnique := by
    constructor
    · rintro x y z (hx | ⟨rfl, rfl⟩) (hy | ⟨rfl, hz⟩)
      · exact R.biUnique.1 hx hy
      · exact (h x z hx).mpr hz
      · exact ((h y z hy).mpr rfl).symm
      · rfl
    · rintro x y z (hy | ⟨rfl, rfl⟩) (hz | ⟨hx, rfl⟩)
      · exact R.biUnique.2 hy hz
      · exact (h x y hy).mp hx
      · exact ((h x z hz).mp rfl).symm
      · rfl
  auto := .inl R.auto
  noValue := .inl R.noValue

theorem le_insert (h : ∀ a' b', R.rel a' b' → (a' = a ↔ b' = b)) : R ≤ R.insert a b h :=
  fun _ _ => .inl

end Renaming

namespace Form.Renames

variable {R : Renaming} {f g : Form}

theorem text {textOf textOf' : TypeId → Except Fault String}
    (h : f.Renames (fun c d => R.rel c d ∧
      (g.isDeclared = false → Echoes Eq (textOf c) (textOf' d))) g) :
    Echoes Eq (f.text textOf) (g.text textOf') := by
  cases h with
  | auto | noValue | primitive | declared => exact .ok rfl
  | pointer hbase => exact (hbase.2 rfl).bind fun _ _ heq => .ok (heq ▸ rfl)
  | @function _ _ result _ hparams hresult =>
    refine (Echoes.mapM_eq (hparams.imp fun _ _ h => h.2 rfl)).bind fun texts _ heq => ?_
    subst heq
    dsimp only
    by_cases hnone : result = .noValue
    · rw [if_pos hnone, if_pos ((R.eq_iff hresult.1 R.noValue).mp hnone)]
      exact .ok rfl
    · rw [if_neg hnone, if_neg fun heq => hnone ((R.eq_iff hresult.1 R.noValue).mpr heq)]
      exact (hresult.2 rfl).bind fun _ _ heq => .ok (heq ▸ rfl)
  | generic name hargs =>
    change Echoes Eq (ite (name = sliceName) _ _) (ite (name = sliceName) _ _)
    by_cases hname : name = sliceName
    · rw [if_pos hname, if_pos hname]
      cases hargs with
      | nil => exact .error _ _
      | cons helement _ => exact (helement.2 rfl).bind fun _ _ heq => .ok (heq ▸ rfl)
    · rw [if_neg hname, if_neg hname]
      exact (Echoes.mapM_eq (hargs.imp fun _ _ h => h.2 rfl)).bind fun _ _ heq => .ok (heq ▸ rfl)
  | record hfields =>
    refine (Echoes.mapM_eq (hfields.imp fun field field' h => ?_)).bind fun _ _ heq =>
      .ok (heq ▸ rfl)
    exact (h.2.2 rfl).bind fun _ _ heq => .ok (by rw [h.1, heq])

theorem fingerprint {known known' : TypeId → Except Fault Fingerprint}
    (h : f.Renames (fun c d => R.rel c d ∧
      (g.isDeclared = false → Echoes Eq (known c) (known' d))) g) :
    Echoes Eq (f.fingerprint known) (g.fingerprint known') := by
  cases h with
  | auto | noValue | primitive | declared => exact .ok rfl
  | pointer hbase => exact (hbase.2 rfl).bind fun _ _ heq => .ok (heq ▸ rfl)
  | function hparams hresult =>
    exact (Echoes.mapM_eq (hparams.imp fun _ _ h => h.2 rfl)).bind fun _ _ hps =>
      (hresult.2 rfl).bind fun _ _ heq => .ok (by rw [hps, heq])
  | generic name hargs =>
    exact (Echoes.mapM_eq (hargs.imp fun _ _ h => h.2 rfl)).bind fun _ _ heq => .ok (heq ▸ rfl)
  | record hfields =>
    refine (Echoes.mapM_eq (hfields.imp fun field field' h => ?_)).bind fun _ _ heq =>
      .ok (heq ▸ rfl)
    exact (h.2.2 rfl).bind fun _ _ heq => .ok (by rw [h.1, heq])

end Form.Renames

/-! ## Matching tables -/

namespace TypeTable

variable {ε : Type} {R R' : Renaming} {t t' t₁ t₁' : TypeTable} {a b : TypeId} {f g : Form}

theorem Canonical.not_pending (h : t.Canonical) (hf : t.form? a = some f)
    (hdeclared : f.isDeclared = false) : a ∉ t.pending := by
  intro ha
  obtain ⟨name, hname⟩ := h.pending a ha
  obtain rfl := Option.some.inj (hf.symm.trans hname)
  cases hdeclared

/-- How a type appears: its text and its fingerprint, if there are any. -/
def appearance (t : TypeTable) (id : TypeId) : Option String × Option Fingerprint :=
  ((t.text id).toOption, (t.fingerprint id).toOption)

/-- Ids that stand for each other have the same form, up to the ids in it. -/
structure Matches (R : Renaming) (t t' : TypeTable) : Prop where
  left : t.Canonical
  right : t'.Canonical
  form : ∀ a b, R.rel a b →
    ∃ f g, t.form? a = some f ∧ t'.form? b = some g ∧ f.Renames R.rel g
  pending : ∀ a b, R.rel a b → (a ∈ t.pending ↔ b ∈ t'.pending)
  generics : t'.generics = t.generics
  primitive? : ∀ name, Option.Rel R.rel (t.primitive? name) (t'.primitive? name)

namespace Matches

theorem issued (h : Matches R t t') (hab : R.rel a b) : a.index < t.size ∧ b.index < t'.size := by
  obtain ⟨f, g, hf, hg, -⟩ := h.form a b hab
  exact ⟨form?_eq_some_lt hf, form?_eq_some_lt hg⟩

theorem renames (h : Matches R t t') (hab : R.rel a b) (hf : t.form? a = some f)
    (hg : t'.form? b = some g) : f.Renames R.rel g := by
  obtain ⟨f', g', hf', hg', hform⟩ := h.form a b hab
  obtain rfl := Option.some.inj (hf.symm.trans hf')
  obtain rfl := Option.some.inj (hg.symm.trans hg')
  exact hform

theorem form_echoes (h : Matches R t t') (hab : R.rel a b) :
    Echoes (Form.Renames R.rel) (t.form a) (t'.form b) := by
  intro f hf
  obtain ⟨f', g, hf', hg, hform⟩ := h.form a b hab
  obtain rfl := Option.some.inj ((form_eq_ok.mp hf).symm.trans hf')
  exact ⟨g, form_eq_ok.mpr hg, hform⟩

theorem symm (h : Matches R t t') : Matches R.symm t' t where
  left := h.right
  right := h.left
  form b a hab := by
    obtain ⟨f, g, hf, hg, hform⟩ := h.form a b hab
    exact ⟨g, f, hg, hf, hform.symm⟩
  pending b a hab := (h.pending a b hab).symm
  generics := h.generics.symm
  primitive? name := by
    obtain ⟨hx, hy⟩ | ⟨a, b, hx, hy, hab⟩ := optionRel_cases (h.primitive? name)
    · rw [hx, hy]
      exact .none
    · rw [hx, hy]
      exact .some hab

/-- Tables that agree on their first `n` ids match on them, if nothing there mentions a later id. -/
theorem of_agreement {n : Nat} (hn : 2 ≤ n) (left : t.Canonical) (right : t'.Canonical)
    (hlt : n ≤ t.size) (hforms : ∀ id : TypeId, id.index < n → t'.form? id = t.form? id)
    (hparts : ∀ (id : TypeId) form, id.index < n → t.form? id = some form →
      ∀ part ∈ form.components, part.index < n)
    (hpending : ∀ id : TypeId, id.index < n → (id ∈ t.pending ↔ id ∈ t'.pending))
    (hbasis : t.SameBasis t')
    (hprimitive : ∀ name id, t.primitive? name = some id → id.index < n) :
    Matches (.below n hn) t t' where
  left := left
  right := right
  form := by
    rintro a _ ⟨rfl, ha⟩
    obtain ⟨f, hf⟩ := exists_form?_of_lt (Nat.lt_of_lt_of_le ha hlt)
    have hids : ∀ {ids : List TypeId}, (∀ part ∈ ids, part.index < n) →
        Forall₂ (Renaming.below n hn).rel ids ids := fun hids =>
      List.forall₂_same.mpr fun part hpart => ⟨rfl, hids part hpart⟩
    have hfields : ∀ {fields : List (String × TypeId)},
        (∀ part ∈ fields.map (·.2), part.index < n) →
        Forall₂ (Form.SameField (Renaming.below n hn).rel) fields fields := fun hids =>
      List.forall₂_same.mpr fun field hfield =>
        ⟨rfl, rfl, hids field.2 (List.mem_map_of_mem hfield)⟩
    have hparts := hparts a f ha hf
    refine ⟨f, f, hf, (hforms a ha).trans hf, ?_⟩
    cases f with
    | auto => exact .auto
    | noValue => exact .noValue
    | primitive name => exact .primitive name
    | pointer base => exact .pointer ⟨rfl, hparts base (List.mem_singleton.mpr rfl)⟩
    | function params result =>
      obtain ⟨hparams, hresult⟩ := List.forall_mem_append.mp hparts
      exact .function (hids hparams) ⟨rfl, hresult result (List.mem_singleton.mpr rfl)⟩
    | generic name args => exact .generic name (hids hparts)
    | record fields => exact .record (hfields hparts)
    | declared name fields => exact .declared name (hfields hparts)
  pending := by
    rintro a _ ⟨rfl, ha⟩
    exact hpending a ha
  generics := hbasis.generics
  primitive? name := by
    rw [hbasis.primitive? name]
    cases hname : t.primitive? name with
    | none => exact .none
    | some id => exact .some ⟨rfl, hprimitive name id hname⟩

/-! ### Readings -/

/-- A reading of a type that is made from those of its components, declared structs apart, is the
same in both tables. The induction is on the depth that the second table is read to: there the
components of a type are older than the type. -/
theorem reading {β : Type} (h : Matches R t t') {read read' : Nat → TypeId → Except Fault β}
    (hzero : ∀ id, ∃ cause, read 0 id = .error cause)
    (hread : ∀ depth depth' a b f g, t.form? a = some f → t'.form? b = some g →
      f.Renames (fun c d => R.rel c d ∧
        (g.isDeclared = false → Echoes Eq (read depth c) (read' depth' d))) g →
      Echoes Eq (read (depth + 1) a) (read' (depth' + 1) b))
    (hab : R.rel a b) (depth : Nat) : Echoes Eq (read depth a) (read' (b.index + 1) b) := by
  have hall : ∀ depth' depth a b, R.rel a b → b.index < depth' →
      Echoes Eq (read depth a) (read' depth' b) := by
    intro depth'
    induction depth' with
    | zero => exact fun depth a b _ hlt => absurd hlt (Nat.not_lt_zero _)
    | succ depth' ih =>
      intro depth a b hab hlt
      cases depth with
      | zero =>
        obtain ⟨cause, hcause⟩ := hzero a
        exact hcause ▸ .error cause _
      | succ depth =>
        obtain ⟨f, g, hf, hg, hform⟩ := h.form a b hab
        refine hread depth depth' a b f g hf hg (hform.imp_mem fun c d hcd hd => ⟨hcd, ?_⟩)
        intro hdeclared
        have holder := h.right.older b g hg hdeclared d hd
        exact ih depth c d hcd (by omega)
  exact hall _ depth a b hab (Nat.lt_succ_self _)

/-- **A type has the same text in both tables.** -/
theorem text (h : Matches R t t') (hab : R.rel a b) : Echoes Eq (t.text a) (t'.text b) := by
  refine h.reading (fun _ => ⟨_, rfl⟩) (fun depth depth' a b f g hf hg hform => ?_) hab _
  unfold textAt
  rw [form_eq_ok.mpr hf, form_eq_ok.mpr hg]
  exact hform.text

/-- **A type has the same fingerprint in both tables.** -/
theorem fingerprint (h : Matches R t t') (hab : R.rel a b) :
    Echoes Eq (t.fingerprint a) (t'.fingerprint b) := by
  refine h.reading (fun _ => ⟨_, rfl⟩) (fun depth depth' a b f g hf hg hform => ?_) hab _
  unfold fingerprintAt
  rw [form_eq_ok.mpr hf, form_eq_ok.mpr hg]
  exact hform.fingerprint

/-- **A type appears the same in both tables.** -/
theorem appearance_eq (h : Matches R t t') (hab : R.rel a b) :
    t'.appearance b = t.appearance a := by
  unfold appearance
  rw [(h.text hab).toOption_eq (h.symm.text hab),
    (h.fingerprint hab).toOption_eq (h.symm.fingerprint hab)]

theorem listText (h : Matches R t t') {ids ids' : List TypeId} (hids : Forall₂ R.rel ids ids') :
    Echoes Eq (t.listText ids) (t'.listText ids') :=
  (Echoes.mapM_eq (hids.imp fun _ _ hab => h.text hab)).bind fun _ _ heq => .ok (heq ▸ rfl)

/-! ### Growing -/

/-- What is added on either side changes nothing about the types that are related. -/
theorem of_extends (h : Matches R t t') (hext : t.Extends t₁) (hext' : t'.Extends t₁') :
    Matches R t₁ t₁' where
  left := h.left.extends hext
  right := h.right.extends hext'
  form a b hab := by
    obtain ⟨f, g, hf, hg, hform⟩ := h.form a b hab
    exact ⟨f, g, hext.form? hf, hext'.form? hg, hform⟩
  pending a b hab := by
    rw [hext.pending, hext'.pending]
    exact h.pending a b hab
  generics := hext'.generics.trans (h.generics.trans hext.generics.symm)
  primitive? name := by
    rw [hext.sameBasis.primitive?, hext'.sameBasis.primitive?]
    exact h.primitive? name

/-- Two types of one form, up to related ids, can be related as well: what is related to one of them
already has its form, and so is the other. -/
theorem insert (h : Matches R t t') (hf : t.form? a = some f) (hg : t'.form? b = some g)
    (hform : f.Renames R.rel g) (hdeclared : f.isDeclared = false) :
    ∃ R', R ≤ R' ∧ R'.rel a b ∧ Matches R' t t' := by
  have hdeclared' : g.isDeclared = false := hform.isDeclared.trans hdeclared
  have hunique : ∀ a' b', R.rel a' b' → (a' = a ↔ b' = b) := by
    intro a' b' hab
    obtain ⟨f', g', hf', hg', hform'⟩ := h.form a' b' hab
    constructor
    · rintro rfl
      obtain rfl := Option.some.inj (hf'.symm.trans hf)
      obtain rfl := (Form.Renames.biUnique R.biUnique).2 hform' hform
      exact h.right.unique b' b g' hg' hg hdeclared'
    · rintro rfl
      obtain rfl := Option.some.inj (hg'.symm.trans hg)
      obtain rfl := (Form.Renames.biUnique R.biUnique).1 hform' hform
      exact h.left.unique a' a f' hf' hf hdeclared
  have hle := R.le_insert hunique
  refine ⟨R.insert a b hunique, hle, .inr ⟨rfl, rfl⟩, h.left, h.right, ?_, ?_, h.generics, ?_⟩
  · rintro a' b' (hab | ⟨rfl, rfl⟩)
    · obtain ⟨f', g', hf', hg', hform'⟩ := h.form a' b' hab
      exact ⟨f', g', hf', hg', hform'.mono hle⟩
    · exact ⟨f, g, hf, hg, hform.mono hle⟩
  · rintro a' b' (hab | ⟨rfl, rfl⟩)
    · exact h.pending a' b' hab
    · exact iff_of_false (h.left.not_pending hf hdeclared) (h.right.not_pending hg hdeclared')
  · intro name
    exact optionRel_imp hle (h.primitive? name)

/-- New declared structs of one name can be related. -/
theorem reserve (h : Matches R t t') (name : String) :
    ∃ R', R ≤ R' ∧ R'.rel ⟨t.size⟩ ⟨t'.size⟩ ∧
      Matches R' (t.withReserved name) (t'.withReserved name) := by
  have hnew : ∀ a' b', R.rel a' b' → (a' = ⟨t.size⟩ ↔ b' = ⟨t'.size⟩) := by
    intro a' b' hab
    obtain ⟨ha, hb⟩ := h.issued hab
    refine iff_of_false ?_ ?_
    · rintro rfl
      exact Nat.lt_irrefl _ ha
    · rintro rfl
      exact Nat.lt_irrefl _ hb
  have hle := R.le_insert hnew
  refine ⟨R.insert _ _ hnew, hle, .inr ⟨rfl, rfl⟩, h.left.step (.reserve name),
    h.right.step (.reserve name), ?_, ?_, h.generics, ?_⟩
  · rintro a b (hab | ⟨rfl, rfl⟩)
    · obtain ⟨f, g, hf, hg, hform⟩ := h.form a b hab
      exact ⟨f, g, form?_push_of_some hf, form?_push_of_some hg, hform.mono hle⟩
    · exact ⟨_, _, form?_push.trans (if_pos rfl), form?_push.trans (if_pos rfl),
        .declared name .nil⟩
  · rintro a b (hab | ⟨rfl, rfl⟩)
    · exact (List.mem_cons.trans (or_congr (hnew a b hab) (h.pending a b hab))).trans
        List.mem_cons.symm
    · exact iff_of_true (List.mem_cons_self ..) (List.mem_cons_self ..)
  · intro other
    rw [(sameBasis_withReserved t name).primitive?, (sameBasis_withReserved t' name).primitive?]
    exact optionRel_imp hle (h.primitive? other)

/-- Pending structs that stand for each other still do so with related fields. -/
theorem fill (h : Matches R t t') (hab : R.rel a b) {name name' : String}
    {old old' fields fields' : List (String × TypeId)}
    (hform : t.form? a = some (.declared name old))
    (hform' : t'.form? b = some (.declared name' old'))
    (hstep : t.Step (t.withFilled a fields)) (hstep' : t'.Step (t'.withFilled b fields'))
    (hfields : Forall₂ (Form.SameField R.rel) fields fields') :
    Matches R (t.withFilled a fields) (t'.withFilled b fields') where
  left := h.left.step hstep
  right := h.right.step hstep'
  form c d hcd := by
    obtain ⟨f, g, hf, hg, hcform⟩ := h.form c d hcd
    rw [form?_withFilled hform, form?_withFilled hform']
    by_cases hca : c = a
    · have hdb : d = b := (R.eq_iff hcd hab).mp hca
      have hdeclared := h.renames hab hform hform'
      cases hdeclared
      exact ⟨_, _, if_pos hca, if_pos hdb, .declared name hfields⟩
    · have hdb : d ≠ b := fun heq => hca ((R.eq_iff hcd hab).mpr heq)
      exact ⟨f, g, (if_neg hca).trans hf, (if_neg hdb).trans hg, hcform⟩
  pending c d hcd := by
    change c ∈ t.pending.filter _ ↔ d ∈ t'.pending.filter _
    rw [List.mem_filter, List.mem_filter, h.pending c d hcd, decide_eq_true_iff,
      decide_eq_true_iff, Ne, Ne, R.eq_iff hcd hab]
  generics := by
    rw [generics_withFilled, generics_withFilled]
    exact h.generics
  primitive? other := by
    rw [(sameBasis_withFilled t a fields).primitive?,
      (sameBasis_withFilled t' b fields').primitive?]
    exact h.primitive? other

end Matches

end TypeTable

end RuleTypes
