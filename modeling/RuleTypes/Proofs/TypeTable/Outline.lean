import RuleTypes.Proofs.TypeTable.Failures
import RuleTypes.Proofs.TypeTable.Interning

/-!
# Text and fingerprint follow from structure

The outline of a type is the type with its components unfolded, down to declared structs, of which
it has the name only. It does not mention a table. Text and fingerprint of a type are those of its
outline (`Canonical.text_of_outline`, `fingerprint_of_outline`), and the outline of a type stays as
it is, whatever is done to the table (`Keeps.outline`). So two types of the same structure have the
same text and the same fingerprint, in whatever tables and under whatever ids they are.
-/

namespace RuleTypes

/-- A type with its components unfolded, down to declared structs. -/
inductive Outline
  | auto
  | noValue
  | primitive (name : String)
  | pointer (base : Outline)
  | function (params : List Outline) (result : Outline)
  | generic (name : String) (args : List Outline)
  | record (fields : List (String × Outline))
  /-- A declared struct is known by its name. -/
  | declared (name : String)
  deriving Repr, Inhabited

/-! ## Readings of an outline -/

namespace Outline

/-- Whether the outline is that of the type without values. -/
def isNoValue : Outline → Bool
  | noValue => true
  | _ => false

mutual

/-- The text of an outline. A slice without an element has none. -/
def text : Outline → Except Fault String
  | auto => .ok "auto"
  | noValue => .ok "none"
  | primitive name => .ok name
  | pointer base => do return "*" ++ (← base.text)
  | function params result => do
    let params ← texts params
    let head := "func(" ++ ",".intercalate params ++ ")"
    if result.isNoValue then return head
    return head ++ ":" ++ (← result.text)
  | generic name args =>
    if name = Form.sliceName then
      match args with
      | [] => .error .outOfRange
      | element :: _ => do return "[]" ++ (← element.text)
    else do
      let args ← texts args
      return name ++ "<" ++ ",".intercalate args ++ ">"
  | record fields => do
    let fields ← fieldTexts fields
    return "struct\x7b" ++ ";".intercalate fields ++ "\x7d"
  | declared name => .ok name

/-- The texts of outlines. -/
def texts : List Outline → Except Fault (List String)
  | [] => .ok []
  | o :: os => do return (← o.text) :: (← texts os)

/-- The texts of fields, name before type. -/
def fieldTexts : List (String × Outline) → Except Fault (List String)
  | [] => .ok []
  | (name, o) :: fields => do return (name ++ " " ++ (← o.text)) :: (← fieldTexts fields)

end

mutual

/-- The fingerprint of an outline. -/
def fingerprint : Outline → Fingerprint
  | auto => .auto
  | noValue => .noValue
  | primitive name => .primitive name
  | pointer base => .pointer base.fingerprint
  | function params result => .function (fingerprints params) result.fingerprint
  | generic name args => .generic name (fingerprints args)
  | record fields => .record (fieldFingerprints fields)
  | declared name => .declared name

/-- The fingerprints of outlines. -/
def fingerprints : List Outline → List Fingerprint
  | [] => []
  | o :: os => o.fingerprint :: fingerprints os

/-- Fields with the fingerprints of their types. -/
def fieldFingerprints : List (String × Outline) → List (String × Fingerprint)
  | [] => []
  | (name, o) :: fields => (name, o.fingerprint) :: fieldFingerprints fields

end

theorem texts_eq_mapM (os : List Outline) : texts os = os.mapM text := by
  induction os with
  | nil => rfl
  | cons o os ih => rw [texts, ih, List.mapM_cons]

theorem fieldTexts_eq_mapM (fields : List (String × Outline)) :
    fieldTexts fields = fields.mapM fun field => do
      return field.1 ++ " " ++ (← field.2.text) := by
  induction fields with
  | nil => rfl
  | cons field fields ih =>
    rw [fieldTexts, ih, List.mapM_cons]
    simp

theorem fingerprints_eq_map (os : List Outline) : fingerprints os = os.map fingerprint := by
  induction os with
  | nil => rfl
  | cons o os ih => rw [fingerprints, ih, List.map_cons]

theorem fieldFingerprints_eq_map (fields : List (String × Outline)) :
    fieldFingerprints fields = fields.map fun field => (field.1, field.2.fingerprint) := by
  induction fields with
  | nil => rfl
  | cons field fields ih => rw [fieldFingerprints, ih, List.map_cons]

end Outline

/-! ## The outline of a type -/

namespace Form

/-- The outline of a form, given the outlines of its components. -/
def outline (outlineOf : TypeId → Except Fault Outline) : Form → Except Fault Outline
  | auto => .ok .auto
  | noValue => .ok .noValue
  | primitive name => .ok (.primitive name)
  | pointer base => do return .pointer (← outlineOf base)
  | function params result => do
    let params ← params.mapM outlineOf
    return .function params (← outlineOf result)
  | generic name args => do return .generic name (← args.mapM outlineOf)
  | record fields => do
    let fields ← fields.mapM fun field => return (field.1, ← outlineOf field.2)
    return .record fields
  | declared name _ => .ok (.declared name)

end Form

namespace TypeTable

/-- The outline of an id, following components at most `depth` steps down. -/
def outlineAt (t : TypeTable) : Nat → TypeId → Except Fault Outline
  | 0, _ => .error .endless
  | depth + 1, id => do (← t.form id).outline (t.outlineAt depth)

/-- The outline of a type. -/
def outline (t : TypeTable) (id : TypeId) : Except Fault Outline := t.outlineAt (id.index + 1) id

end TypeTable

/-! ## Readings of a type are readings of its outline -/

namespace Form

variable {form : Form} {o : Outline} {outlineOf outlineOf' : TypeId → Except Fault Outline}

/-- The text of a form is that of its outline, if this holds of its components. The result of a
function is left out if it is `noValue`, which is the only type of that outline. -/
theorem text_of_outline {textOf : TypeId → Except Fault String}
    (h : ∀ part o, outlineOf part = .ok o → textOf part = o.text)
    (hvalue : ∀ part o, outlineOf part = .ok o → (part = .noValue ↔ o.isNoValue = true))
    (ho : form.outline outlineOf = .ok o) : form.text textOf = o.text := by
  cases form with
  | auto | noValue | primitive | declared =>
    obtain rfl := Except.ok.inj ho
    rfl
  | pointer base =>
    obtain ⟨b, hb, ho⟩ := except_bind_eq_ok.mp ho
    obtain rfl := Except.ok.inj ho
    rw [text, Outline.text, h base b hb]
  | function params result =>
    obtain ⟨ps, hps, ho⟩ := except_bind_eq_ok.mp ho
    obtain ⟨r, hr, ho⟩ := except_bind_eq_ok.mp ho
    obtain rfl := Except.ok.inj ho
    rw [text, Outline.text, Outline.texts_eq_mapM, except_mapM_through (fun a _ => h a) hps,
      h result r hr]
    simp only [hvalue result r hr]
  | generic name args =>
    obtain ⟨as, has, ho⟩ := except_bind_eq_ok.mp ho
    obtain rfl := Except.ok.inj ho
    by_cases hname : name = sliceName
    · subst hname
      cases args with
      | nil =>
        obtain rfl : [] = as := Except.ok.inj has
        rfl
      | cons element rest =>
        rw [List.mapM_cons] at has
        obtain ⟨a, ha, has⟩ := except_bind_eq_ok.mp has
        obtain ⟨as', -, has⟩ := except_bind_eq_ok.mp has
        obtain rfl := Except.ok.inj has
        rw [text, if_pos rfl, Outline.text, if_pos rfl, h element a ha]
    · have hform : (generic name args).text textOf = _ := if_neg hname
      rw [hform, except_mapM_through (fun a _ => h a) has, ← Outline.texts_eq_mapM,
        Outline.text.eq_def]
      exact (if_neg hname).symm
  | record fields =>
    obtain ⟨fs, hfs, ho⟩ := except_bind_eq_ok.mp ho
    obtain rfl := Except.ok.inj ho
    rw [text, Outline.text, Outline.fieldTexts_eq_mapM]
    refine congrArg (· >>= _) (except_mapM_through (fun field _ b hb => ?_) hfs)
    obtain ⟨type, htype, hb⟩ := except_bind_eq_ok.mp hb
    obtain rfl := Except.ok.inj hb
    rw [h field.2 type htype]

theorem fingerprint_of_outline {fingerprintOf : TypeId → Except Fault Fingerprint}
    (h : ∀ part o, outlineOf part = .ok o → fingerprintOf part = .ok o.fingerprint)
    (ho : form.outline outlineOf = .ok o) :
    form.fingerprint fingerprintOf = .ok o.fingerprint := by
  have hall : ∀ {ids : List TypeId} {os : List Outline}, ids.mapM outlineOf = .ok os →
      ids.mapM fingerprintOf = .ok (os.map Outline.fingerprint) := fun hids =>
    (except_mapM_through (fun part _ => h part) hids).trans List.mapM_pure
  cases form with
  | auto | noValue | primitive | declared =>
    obtain rfl := Except.ok.inj ho
    rfl
  | pointer base =>
    obtain ⟨b, hb, ho⟩ := except_bind_eq_ok.mp ho
    obtain rfl := Except.ok.inj ho
    exact except_bind_eq_ok.mpr ⟨_, h base b hb, rfl⟩
  | function params result =>
    obtain ⟨ps, hps, ho⟩ := except_bind_eq_ok.mp ho
    obtain ⟨r, hr, ho⟩ := except_bind_eq_ok.mp ho
    obtain rfl := Except.ok.inj ho
    rw [Outline.fingerprint, Outline.fingerprints_eq_map]
    exact except_bind_eq_ok.mpr ⟨_, hall hps, except_bind_eq_ok.mpr ⟨_, h result r hr, rfl⟩⟩
  | generic name args =>
    obtain ⟨as, has, ho⟩ := except_bind_eq_ok.mp ho
    obtain rfl := Except.ok.inj ho
    rw [Outline.fingerprint, Outline.fingerprints_eq_map]
    exact except_bind_eq_ok.mpr ⟨_, hall has, rfl⟩
  | record fields =>
    obtain ⟨fs, hfs, ho⟩ := except_bind_eq_ok.mp ho
    obtain rfl := Except.ok.inj ho
    rw [Outline.fingerprint, Outline.fieldFingerprints_eq_map]
    refine except_bind_eq_ok.mpr ⟨_, Eq.trans (except_mapM_through (fun field _ b hb => ?_) hfs)
      List.mapM_pure, rfl⟩
    obtain ⟨type, htype, hb⟩ := except_bind_eq_ok.mp hb
    obtain rfl := Except.ok.inj hb
    exact except_bind_eq_ok.mpr ⟨_, h field.2 type htype, rfl⟩

/-- The outline of a form uses those of its components only when they are known, and no fields of
declared structs. -/
theorem outline_mono (h : ∀ part o, outlineOf part = .ok o → outlineOf' part = .ok o)
    (ho : form.outline outlineOf = .ok o) : form.outline outlineOf' = .ok o := by
  cases form with
  | auto | noValue | primitive | declared => exact ho
  | pointer base =>
    obtain ⟨b, hb, ho⟩ := except_bind_eq_ok.mp ho
    exact except_bind_eq_ok.mpr ⟨b, h base b hb, ho⟩
  | function params result =>
    obtain ⟨ps, hps, ho⟩ := except_bind_eq_ok.mp ho
    obtain ⟨r, hr, ho⟩ := except_bind_eq_ok.mp ho
    exact except_bind_eq_ok.mpr ⟨ps, except_mapM_mono h hps,
      except_bind_eq_ok.mpr ⟨r, h result r hr, ho⟩⟩
  | generic name args =>
    obtain ⟨as, has, ho⟩ := except_bind_eq_ok.mp ho
    exact except_bind_eq_ok.mpr ⟨as, except_mapM_mono h has, ho⟩
  | record fields =>
    obtain ⟨fs, hfs, ho⟩ := except_bind_eq_ok.mp ho
    refine except_bind_eq_ok.mpr ⟨fs, except_mapM_mono (fun field b hb => ?_) hfs, ho⟩
    obtain ⟨type, htype, hb⟩ := except_bind_eq_ok.mp hb
    exact except_bind_eq_ok.mpr ⟨type, h _ type htype, hb⟩

theorem eq_noValue_of_outline (ho : form.outline outlineOf = .ok o) (h : o.isNoValue = true) :
    form = .noValue := by
  cases form with
  | noValue => rfl
  | auto | primitive | declared =>
    cases ho
    cases h
  | pointer | generic | record =>
    obtain ⟨_, _, ho⟩ := except_bind_eq_ok.mp ho
    cases ho
    cases h
  | function =>
    obtain ⟨_, _, ho⟩ := except_bind_eq_ok.mp ho
    obtain ⟨_, _, ho⟩ := except_bind_eq_ok.mp ho
    cases ho
    cases h

theorem exists_outline
    (h : form.isDeclared = false → ∀ part ∈ form.components, ∃ o, outlineOf part = .ok o) :
    ∃ o, form.outline outlineOf = .ok o := by
  cases form with
  | auto | noValue | primitive | declared => exact ⟨_, rfl⟩
  | pointer base =>
    obtain ⟨o, ho⟩ := h rfl base (List.mem_singleton.mpr rfl)
    exact ⟨_, except_bind_eq_ok.mpr ⟨o, ho, rfl⟩⟩
  | function params result =>
    obtain ⟨os, hos⟩ := except_mapM_ok fun param hparam =>
      h rfl param (List.mem_append_left _ hparam)
    obtain ⟨o, ho⟩ := h rfl result (List.mem_append_right _ (List.mem_singleton.mpr rfl))
    exact ⟨_, except_bind_eq_ok.mpr ⟨os, hos, except_bind_eq_ok.mpr ⟨o, ho, rfl⟩⟩⟩
  | generic name args =>
    obtain ⟨os, hos⟩ := except_mapM_ok fun arg harg => h rfl arg harg
    exact ⟨_, except_bind_eq_ok.mpr ⟨os, hos, rfl⟩⟩
  | record fields =>
    obtain ⟨os, hos⟩ : ∃ os, fields.mapM (fun field => do
        return (field.1, ← outlineOf field.2)) = .ok os := by
      refine except_mapM_ok fun field hfield => ?_
      obtain ⟨o, ho⟩ := h rfl field.2 (List.mem_map_of_mem hfield)
      exact ⟨_, except_bind_eq_ok.mpr ⟨o, ho, rfl⟩⟩
    exact ⟨_, except_bind_eq_ok.mpr ⟨os, hos, rfl⟩⟩

end Form

namespace TypeTable

variable {t t' : TypeTable} {id : TypeId} {o : Outline}

theorem outlineAt_succ {depth : Nat} : t.outlineAt (depth + 1) id = .ok o ↔
    ∃ form, t.form? id = some form ∧ form.outline (t.outlineAt depth) = .ok o := by
  simp only [outlineAt, except_bind_eq_ok, form_eq_ok]

/-- Only `noValue` has the outline of the type without values. -/
theorem Canonical.isNoValue_iff (h : t.Canonical) {depth : Nat}
    (ho : t.outlineAt depth id = .ok o) : id = .noValue ↔ o.isNoValue = true := by
  cases depth with
  | zero => cases ho
  | succ depth =>
    obtain ⟨form, hform, ho⟩ := outlineAt_succ.mp ho
    constructor
    · rintro rfl
      cases hform.symm.trans h.noValue
      obtain rfl := Except.ok.inj ho
      rfl
    · intro hvalue
      obtain rfl := Form.eq_noValue_of_outline ho hvalue
      exact h.unique _ _ _ hform h.noValue rfl

theorem textAt_of_outlineAt (h : t.Canonical) {depth : Nat} (ho : t.outlineAt depth id = .ok o) :
    t.textAt depth id = o.text := by
  induction depth generalizing id o with
  | zero => cases ho
  | succ depth ih =>
    obtain ⟨form, hform, ho⟩ := outlineAt_succ.mp ho
    rw [textAt, form_eq_ok.mpr hform]
    exact Form.text_of_outline (fun _ _ => ih) (fun _ _ => h.isNoValue_iff) ho

theorem fingerprintAt_of_outlineAt {depth : Nat} (ho : t.outlineAt depth id = .ok o) :
    t.fingerprintAt depth id = .ok o.fingerprint := by
  induction depth generalizing id o with
  | zero => cases ho
  | succ depth ih =>
    obtain ⟨form, hform, ho⟩ := outlineAt_succ.mp ho
    rw [fingerprintAt, form_eq_ok.mpr hform]
    exact Form.fingerprint_of_outline (fun _ _ => ih) ho

/-- **The text of a type is that of its outline.** -/
theorem Canonical.text_of_outline (h : t.Canonical) (ho : t.outline id = .ok o) :
    t.text id = o.text := textAt_of_outlineAt h ho

/-- **The fingerprint of a type is that of its outline.** -/
theorem fingerprint_of_outline (ho : t.outline id = .ok o) :
    t.fingerprint id = .ok o.fingerprint := fingerprintAt_of_outlineAt ho

/-- Every type of the table has an outline. -/
theorem Canonical.exists_outline (h : t.Canonical) (hid : id.index < t.size) :
    ∃ o, t.outline id = .ok o := by
  refine h.exists_reading (fun depth id form hform hparts => ?_) hid
  obtain ⟨o, ho⟩ := Form.exists_outline hparts
  exact ⟨o, outlineAt_succ.mpr ⟨form, hform, ho⟩⟩

/-! ## Outlines stay -/

/-- Every type of the first table has its form in the second, up to the fields of a declared
struct. -/
structure Keeps (t t' : TypeTable) : Prop where
  form? : ∀ id form, t.form? id = some form → form.isDeclared = false → t'.form? id = some form
  declared : ∀ id name fields, t.form? id = some (.declared name fields) →
    ∃ fields', t'.form? id = some (.declared name fields')

theorem Keeps.refl (t : TypeTable) : t.Keeps t :=
  ⟨fun _ _ hform _ => hform, fun _ _ fields hform => ⟨fields, hform⟩⟩

theorem keeps_foldl_apply (t : TypeTable) (ops : List Op) : t.Keeps (ops.foldl Op.apply t) :=
  ⟨fun _ _ => form?_foldl_apply ops, fun _ _ _ => declared_foldl_apply ops⟩

/-- An outline that is found is found at any greater depth, and in any table that keeps forms. -/
theorem Keeps.outlineAt (h : t.Keeps t') {depth depth' : Nat} (hle : depth ≤ depth')
    (ho : t.outlineAt depth id = .ok o) : t'.outlineAt depth' id = .ok o := by
  induction depth generalizing depth' id o with
  | zero => cases ho
  | succ depth ih =>
    obtain ⟨depth', rfl⟩ := Nat.exists_eq_add_of_le' (Nat.le_trans (Nat.succ_pos _) hle)
    obtain ⟨form, hform, ho⟩ := outlineAt_succ.mp ho
    have ho' := Form.outline_mono (fun _ _ => ih (Nat.le_of_succ_le_succ hle)) ho
    cases hdeclared : form.isDeclared with
    | false => exact outlineAt_succ.mpr ⟨form, h.form? id form hform hdeclared, ho'⟩
    | true =>
      cases form with
      | declared name fields =>
        obtain ⟨fields', hform'⟩ := h.declared id name fields hform
        exact outlineAt_succ.mpr ⟨.declared name fields', hform', ho'⟩
      | _ => cases hdeclared

/-- **A type keeps its outline**, and with it its text and its fingerprint. -/
theorem Keeps.outline (h : t.Keeps t') (ho : t.outline id = .ok o) : t'.outline id = .ok o :=
  h.outlineAt (Nat.le_refl _) ho

theorem outlineAt_unique {depth depth' : Nat} {o' : Outline} (ho : t.outlineAt depth id = .ok o)
    (ho' : t.outlineAt depth' id = .ok o') : o = o' := by
  have h := (Keeps.refl t).outlineAt (Nat.le_max_left depth depth') ho
  have h' := (Keeps.refl t).outlineAt (Nat.le_max_right depth depth') ho'
  exact Except.ok.inj (h.symm.trans h')

/-- The outline of a type is made of the outlines of its components, as its form says. -/
theorem Canonical.outline_of_form? (h : t.Canonical) {form : Form}
    (hform : t.form? id = some form) : t.outline id = form.outline t.outline := by
  obtain ⟨o, ho⟩ := h.exists_outline (form?_eq_some_lt hform)
  obtain ⟨form', hform', ho'⟩ := outlineAt_succ.mp ho
  cases hform.symm.trans hform'
  rw [ho]
  refine (Form.outline_mono (fun part o hpart => ?_) ho').symm
  have hissued : part.index < t.size := by
    cases hdepth : id.index with
    | zero => simp [hdepth, outlineAt] at hpart
    | succ depth =>
      rw [hdepth] at hpart
      obtain ⟨form, hform, -⟩ := outlineAt_succ.mp hpart
      exact form?_eq_some_lt hform
  obtain ⟨o', hpart'⟩ := h.exists_outline hissued
  rw [outlineAt_unique hpart hpart', hpart']

/-! ## Slices have an element -/

/-- Slices take one argument wherever they are declared, before the operations and by them. -/
def SlicesUnary (generics : Generics) (ops : List Op) : Prop :=
  (∀ arity, generics.get? Form.sliceName = some arity → arity = 1) ∧
    ∀ arity, Op.declareGeneric Form.sliceName arity ∈ ops → arity = 1

/-- Slices take one argument if they are declared, and no slice lacks it. -/
structure FullSlices (t : TypeTable) : Prop where
  arity : ∀ arity, t.generics.get? Form.sliceName = some arity → arity = 1
  form? : ∀ id, t.form? id ≠ some (.generic Form.sliceName [])

theorem SlicesUnary.fullSlices {generics : Generics} {ops : List Op}
    (h : SlicesUnary generics ops) : (ops.foldl Op.apply (new generics)).FullSlices := by
  have hunary : ∀ arity, EverDeclared generics ops Form.sliceName arity → arity = 1 := by
    rintro arity (hgenerics | hop)
    · exact h.1 arity hgenerics
    · exact h.2 arity hop
  have harities := arities_foldl_apply generics ops
  refine ⟨fun arity harity => hunary arity (harities.declared _ _ harity), fun id hform => ?_⟩
  cases hunary 0 (harities.form? id _ _ hform)

/-- **Text and fingerprint depend on structure only.** Take any two tables, each made by any
operations, of which none declares slices with another number of arguments than one. If a type of
the first and a type of the second have the same outline, then they have the same text and the same
fingerprint. -/
theorem same_text_of_same_outline {generics generics' : Generics} {ops ops' : List Op}
    (hslices : SlicesUnary generics ops)
    (ht : ops.foldl Op.apply (new generics) = t) (ht' : ops'.foldl Op.apply (new generics') = t')
    {a b : TypeId} (ha : t.isIssued a = true) (h : t.outline a = t'.outline b) :
    ∃ text fingerprint, t.text a = .ok text ∧ t'.text b = .ok text ∧
      t.fingerprint a = .ok fingerprint ∧ t'.fingerprint b = .ok fingerprint := by
  have hcanonical : t.Canonical := ht ▸ (canonical_new generics).foldl ops
  have hcanonical' : t'.Canonical := ht' ▸ (canonical_new generics').foldl ops'
  have hfull : t.FullSlices := ht ▸ hslices.fullSlices
  obtain ⟨o, ho⟩ := hcanonical.exists_outline (isIssued_iff.mp ha)
  obtain ⟨text, htext⟩ := hcanonical.exists_text hfull.form? (isIssued_iff.mp ha)
  have ho' : t'.outline b = .ok o := h.symm.trans ho
  refine ⟨text, o.fingerprint, htext, ?_, fingerprint_of_outline ho, fingerprint_of_outline ho'⟩
  rw [hcanonical'.text_of_outline ho', ← hcanonical.text_of_outline ho, htext]

/-- Functions of a node, which is sealed, and a list of numbers. -/
def sealedNode : List Op :=
  [.primitive "f64", .reserve "Node", .pointer ⟨3⟩, .slice ⟨2⟩, .fill ⟨3⟩ [("next", ⟨4⟩)],
    .function [⟨4⟩, ⟨5⟩] .noValue]

/-- The same, but the node is pending, and the types were added in another order. -/
def pendingNodeLater : List Op :=
  [.reserve "Other", .primitive "f64", .declareGeneric Form.sliceName 1, .slice ⟨3⟩,
    .reserve "Node", .pointer ⟨5⟩, .function [⟨6⟩, ⟨4⟩] .noValue]

/-- What the functions have in common. -/
def nodeFunction : Outline :=
  .function [.pointer (.declared "Node"), .generic Form.sliceName [.primitive "f64"]] .noValue

theorem same_text_of_node_functions :
    ∃ t t', sealedNode.foldl Op.apply (new Generics.standard) = t ∧
      pendingNodeLater.foldl Op.apply (new .empty) = t' ∧
      t.outline ⟨6⟩ = .ok nodeFunction ∧ t'.outline ⟨7⟩ = .ok nodeFunction ∧
      ∃ text fingerprint, t.text ⟨6⟩ = .ok text ∧ t'.text ⟨7⟩ = .ok text ∧
        t.fingerprint ⟨6⟩ = .ok fingerprint ∧ t'.fingerprint ⟨7⟩ = .ok fingerprint := by
  have hslices : SlicesUnary Generics.standard sealedNode := by
    refine ⟨fun arity harity => (Option.some.inj harity).symm, fun arity hmem => ?_⟩
    simp [sealedNode] at hmem
  have houtline : (sealedNode.foldl Op.apply (new Generics.standard)).outline ⟨6⟩ =
      .ok nodeFunction := rfl
  have houtline' : (pendingNodeLater.foldl Op.apply (new .empty)).outline ⟨7⟩ =
      .ok nodeFunction := rfl
  exact ⟨_, _, rfl, rfl, houtline, houtline',
    same_text_of_same_outline hslices rfl rfl rfl (houtline.trans houtline'.symm)⟩

end TypeTable

end RuleTypes
