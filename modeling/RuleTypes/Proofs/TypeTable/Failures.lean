import RuleTypes.Finding
import RuleTypes.Operators
import RuleTypes.Proofs.TypeTable.Reachable

/-!
# How table operations fail

Given types that the table issued, an operation on it meets no fault. It is refused for two reasons
only, a wrong number of arguments and names that cannot name the fields of one struct, and both are
problems of the code that asked. In a canonical table, the descent into a type that its text and its
fingerprint take comes to an end (`Canonical.exists_text`, `Canonical.exists_fingerprint`).
-/

namespace RuleTypes

/-- The error is a problem of rule code. -/
def TableError.IsProblem (cause : TableError) : Prop :=
  ∃ problem, Problem.ofTable cause = .ok problem

/-- The error is a problem of rule code. -/
def LoadError.IsProblem (cause : LoadError) : Prop :=
  ∃ problem, Problem.ofLoad cause = .ok problem

namespace TypeTable

variable {ε : Type} {P : ε → Prop} {t : TypeTable} {id : TypeId}

section Rewording

variable {ε' α : Type} {f : ε → ε'} {x : TableM ε α}

theorem mapError_safe (h : Safe x t) : Safe (x.mapError f) t := by
  intro fault t' he
  unfold TableM.mapError at he
  obtain ⟨a, t₁, hok⟩ | ⟨cause, t₁, herror⟩ := h.ends
  · simp [hok] at he
  · simp [herror, Failure.mapError] at he

theorem mapError_refuses {Q : ε' → Prop} (hPQ : ∀ cause, P cause → Q (f cause))
    (h : Refuses P x t) : Refuses Q (x.mapError f) t := by
  intro cause t' he
  unfold TableM.mapError at he
  cases hx : x t with
  | ok a t₁ => simp [hx] at he
  | error e t₁ =>
    cases e with
    | fault fault => simp [hx, Failure.mapError] at he
    | error cause =>
      simp only [hx, Failure.mapError, EStateM.Result.error.injEq, Failure.error.injEq] at he
      exact he.1 ▸ hPQ cause (h cause t₁ hx)

end Rewording

/-! ## Adding types -/

theorem intern_ok (form : Form) (t : TypeTable) :
    ∃ id t', (intern form : TableM ε TypeId) t = .ok id t' := by
  cases hfind : t.find? form with
  | some id => exact ⟨id, t, intern_eq_ok.mpr (.inl ⟨hfind, rfl⟩)⟩
  | none => exact ⟨_, _, intern_eq_ok.mpr (.inr ⟨hfind, rfl, rfl⟩)⟩

/-- A form whose components were issued is found or added. -/
theorem internIssued_safe (form : Form) (h : ∀ part ∈ form.components, part.index < t.size) :
    Safe (requireIssued form.components >>= fun _ => intern form : TableM ε TypeId) t := by
  refine .bind (.of_ok (requireIssued_eq_ok (u := ()).mpr ⟨h, rfl⟩)) fun _ t' _ => ?_
  obtain ⟨id, t'', hok⟩ := intern_ok (ε := ε) form t'
  exact .of_ok hok

theorem requireIssued_refuses (ids : List TypeId) :
    Refuses P (requireIssued ids : TableM ε Unit) t := by
  intro cause t' h
  unfold requireIssued at h
  cases hfind : ids.find? fun id => !t.isIssued id <;> simp [hfind] at h

/-- A form is never refused for its components. -/
theorem internIssued_refuses (form : Form) :
    Refuses P (requireIssued form.components >>= fun _ => intern form : TableM ε TypeId) t := by
  refine .bind (requireIssued_refuses _) fun _ t' _ => ?_
  obtain ⟨id, t'', hok⟩ := intern_ok (ε := ε) form t'
  exact .of_ok hok

theorem internPointer_safe {base : TypeId} (h : base.index < t.size) :
    Safe (internPointer base : TableM ε TypeId) t :=
  internIssued_safe (.pointer base) (by simpa [Form.components] using h)

theorem internPointer_refuses (base : TypeId) :
    Refuses P (internPointer base : TableM ε TypeId) t :=
  internIssued_refuses (.pointer base)

theorem internFunction_safe {params : List TypeId} {result : TypeId}
    (hparams : ∀ param ∈ params, param.index < t.size) (hresult : result.index < t.size) :
    Safe (internFunction params result : TableM ε TypeId) t := by
  refine internIssued_safe (.function params result) fun part hpart => ?_
  obtain hpart | hpart := List.mem_append.mp hpart
  · exact hparams part hpart
  · exact List.mem_singleton.mp hpart ▸ hresult

theorem internFunction_refuses (params : List TypeId) (result : TypeId) :
    Refuses P (internFunction params result : TableM ε TypeId) t :=
  internIssued_refuses (.function params result)

theorem internGeneric_safe {args : List TypeId} (hargs : ∀ arg ∈ args, arg.index < t.size)
    (name : String) : Safe (internGeneric name args) t := by
  have heq := internGeneric_eq name args t
  split at heq
  · exact .of_error heq
  · split at heq
    · exact .of_error heq
    · exact .congr heq (internIssued_safe (.generic name args) hargs)

theorem internGeneric_refuses (name : String) (args : List TypeId) :
    Refuses (fun cause => cause.IsProblem ∧ t.generics.get? name ≠ some args.length)
      (internGeneric name args) t := by
  have heq := internGeneric_eq name args t
  split at heq
  case h_1 hget => exact .of_error heq ⟨⟨_, rfl⟩, by simp [hget]⟩
  case h_2 arity hget =>
    split at heq
    case isTrue harity => exact .of_error heq ⟨⟨_, rfl⟩, by simpa [hget] using harity⟩
    case isFalse => exact .congr heq (internIssued_refuses (.generic name args))

theorem internSlice_safe {element : TypeId} (harity : t.generics.get? Form.sliceName = some 1)
    (h : element.index < t.size) : Safe (internSlice element : TableM ε TypeId) t := by
  have hargs : ∀ arg ∈ [element], arg.index < t.size := by simpa using h
  obtain ⟨id, t', hok⟩ | ⟨cause, t', herror⟩ := (internGeneric_safe hargs Form.sliceName).ends
  · have heq : (internSlice element : TableM ε TypeId) t = .ok id t' := by
      unfold internSlice
      rw [hok]
    exact .of_ok heq
  · exact absurd harity (internGeneric_refuses _ _ cause t' herror).2

/-- What the generic is refused for is a fault of the slice. -/
theorem internSlice_refuses (element : TypeId) :
    Refuses P (internSlice element : TableM ε TypeId) t := by
  intro cause t' h
  unfold internSlice at h
  cases hgeneric : internGeneric Form.sliceName [element] t with
  | ok id t₁ => simp [hgeneric] at h
  | error e t₁ => cases e <;> simp [hgeneric] at h

theorem fieldNamesError?_isProblem {owner : String} {before names : List String}
    {cause : TableError} (h : fieldNamesError? owner before names = some cause) :
    cause.IsProblem := by
  fun_induction fieldNamesError? owner before names with
  | case1 => cases h
  | case2 | case3 =>
    cases h
    exact ⟨_, rfl⟩
  | case4 before name names _ _ ih => exact ih h

theorem requireFieldNames_safe (owner : String) (names : List String) :
    Safe (requireFieldNames owner names) t := by
  unfold requireFieldNames
  cases fieldNamesError? owner [] names with
  | none => exact .pure _
  | some cause => exact .throw cause

theorem requireFieldNames_refuses (owner : String) (names : List String) :
    Refuses (fun cause => cause.IsProblem ∧ ¬ FieldNames names)
      (requireFieldNames owner names) t := by
  unfold requireFieldNames
  cases h : fieldNamesError? owner [] names with
  | none => exact .pure _
  | some cause =>
    refine .throw ⟨fieldNamesError?_isProblem h, fun hnames => ?_⟩
    have hnone : fieldNamesError? owner [] names = none :=
      fieldNamesError?_eq_none_iff.mpr ⟨hnames, fun _ _ => List.not_mem_nil⟩
    rw [h] at hnone
    cases hnone

theorem internRecord_safe {fields : List (String × TypeId)}
    (h : ∀ field ∈ fields, field.2.index < t.size) : Safe (internRecord fields) t := by
  refine .bind (requireFieldNames_safe _ _) fun _ t' hnames => ?_
  obtain ⟨-, rfl⟩ := requireFieldNames_eq_ok.mp hnames
  refine internIssued_safe (.record fields) fun part hpart => ?_
  obtain ⟨field, hfield, rfl⟩ := List.mem_map.mp hpart
  exact h field hfield

theorem internRecord_refuses (fields : List (String × TypeId)) :
    Refuses (fun cause => cause.IsProblem ∧ ¬ FieldNames (fields.map (·.1)))
      (internRecord fields) t :=
  .bind (requireFieldNames_refuses _ _) fun _ _ _ => internIssued_refuses (.record fields)

/-! ## Filling structs -/

theorem text_of_declared {name : String} {fields : List (String × TypeId)}
    (h : t.form? id = some (.declared name fields)) : t.text id = .ok name := by
  unfold text textAt
  rw [form_eq_ok.mpr h]
  rfl

section Filling

variable {name : String} {old fields : List (String × TypeId)}
  (hform : t.form? id = some (.declared name old)) (hpending : id ∈ t.pending)

include hform hpending

/-- What filling a pending struct comes to. -/
theorem fill_eq (fields : List (String × TypeId)) : fill id fields t =
    (requireIssued (fields.map (·.2)) >>= fun _ => requireFieldNames name (fields.map (·.1)) >>=
      fun _ => modify fun t => t.withFilled id fields : TableM TableError Unit) t := by
  have hsealed : t.isSealed id = false := isSealed_eq_false_iff.mpr hpending
  unfold fill
  rw [bind_of_ok (ofExcept_eq_ok.mpr ⟨text_of_declared hform, rfl⟩),
    bind_of_ok (ofExcept_eq_ok.mpr ⟨form_eq_ok.mpr hform, rfl⟩), get_bind, hsealed,
    if_neg Bool.false_ne_true]
  rfl

/-- A pending struct is filled unless the field names are refused. -/
theorem fill_safe (h : ∀ field ∈ fields, field.2.index < t.size) : Safe (fill id fields) t := by
  have hissued : ∀ part ∈ fields.map (·.2), part.index < t.size := by
    intro part hpart
    obtain ⟨field, hfield, rfl⟩ := List.mem_map.mp hpart
    exact h field hfield
  refine .congr (fill_eq hform hpending fields) ?_
  exact .bind (.of_ok (requireIssued_eq_ok (u := ()).mpr ⟨hissued, rfl⟩)) fun _ _ _ =>
    .bind (requireFieldNames_safe _ _) fun _ _ _ => .of_ok rfl

theorem fill_refuses (fields : List (String × TypeId)) :
    Refuses (fun cause => cause.IsProblem ∧ ¬ FieldNames (fields.map (·.1))) (fill id fields) t :=
  .congr (fill_eq hform hpending fields) <| .bind (requireIssued_refuses _) fun _ _ _ =>
    .bind (requireFieldNames_refuses _ _) fun _ _ _ => .of_ok rfl

end Filling

/-! ## Readings -/

/-- A reading of a type that is made from those of its components, declared structs apart, has
enough depth in the place that the type has in the table. -/
theorem Canonical.exists_reading {β : Type} (h : t.Canonical)
    {read : Nat → TypeId → Except Fault β}
    (hread : ∀ depth id form, t.form? id = some form →
      (form.isDeclared = false → ∀ part ∈ form.components, ∃ b, read depth part = .ok b) →
      ∃ b, read (depth + 1) id = .ok b)
    (hid : id.index < t.size) : ∃ b, read (id.index + 1) id = .ok b := by
  have hall : ∀ depth id, id.index < depth → id.index < t.size → ∃ b, read depth id = .ok b := by
    intro depth
    induction depth with
    | zero => exact fun id hlt => absurd hlt (Nat.not_lt_zero _)
    | succ depth ih =>
      intro id hlt hid
      obtain ⟨form, hform⟩ := exists_form?_of_lt hid
      refine hread depth id form hform fun hdeclared part hpart => ih part ?_ ?_
      · have holder := h.older id form hform hdeclared part hpart
        omega
      · exact h.issued id form hform part hpart
  exact hall _ id (Nat.lt_succ_self _) hid

end TypeTable

theorem Form.exists_text {form : Form} {textOf : TypeId → Except Fault String}
    (hslice : form ≠ .generic sliceName [])
    (h : form.isDeclared = false → ∀ part ∈ form.components, ∃ text, textOf part = .ok text) :
    ∃ text, form.text textOf = .ok text := by
  cases form with
  | auto | noValue | primitive | declared => exact ⟨_, rfl⟩
  | pointer base =>
    obtain ⟨text, htext⟩ := h rfl base (List.mem_singleton.mpr rfl)
    exact ⟨_, except_bind_eq_ok.mpr ⟨text, htext, rfl⟩⟩
  | function params result =>
    obtain ⟨texts, htexts⟩ := except_mapM_ok fun param hparam =>
      h rfl param (List.mem_append_left _ hparam)
    obtain ⟨text, htext⟩ := h rfl result (List.mem_append_right _ (List.mem_singleton.mpr rfl))
    by_cases hresult : result = .noValue
    · exact ⟨_, except_bind_eq_ok.mpr ⟨texts, htexts, if_pos hresult⟩⟩
    · exact ⟨_, except_bind_eq_ok.mpr ⟨texts, htexts, (if_neg hresult).trans
        (except_bind_eq_ok.mpr ⟨text, htext, rfl⟩)⟩⟩
  | generic name args =>
    by_cases hname : name = sliceName
    · subst hname
      cases args with
      | nil => exact absurd rfl hslice
      | cons element rest =>
        obtain ⟨text, htext⟩ := h rfl element (List.mem_cons_self ..)
        refine ⟨"[]" ++ text, ?_⟩
        rw [Form.text, if_pos rfl]
        exact except_bind_eq_ok.mpr ⟨text, htext, rfl⟩
    · obtain ⟨texts, htexts⟩ := except_mapM_ok fun arg harg => h rfl arg harg
      exact ⟨_, (if_neg hname).trans (except_bind_eq_ok.mpr ⟨texts, htexts, rfl⟩)⟩
  | record fields =>
    obtain ⟨texts, htexts⟩ : ∃ texts, fields.mapM (fun field => do
        return field.1 ++ " " ++ (← textOf field.2)) = .ok texts := by
      refine except_mapM_ok fun field hfield => ?_
      obtain ⟨text, htext⟩ := h rfl field.2 (List.mem_map_of_mem hfield)
      exact ⟨_, except_bind_eq_ok.mpr ⟨text, htext, rfl⟩⟩
    exact ⟨_, except_bind_eq_ok.mpr ⟨texts, htexts, rfl⟩⟩

theorem Form.exists_fingerprint {form : Form} {fingerprintOf : TypeId → Except Fault Fingerprint}
    (h : form.isDeclared = false → ∀ part ∈ form.components, ∃ f, fingerprintOf part = .ok f) :
    ∃ f, form.fingerprint fingerprintOf = .ok f := by
  cases form with
  | auto | noValue | primitive | declared => exact ⟨_, rfl⟩
  | pointer base =>
    obtain ⟨f, hf⟩ := h rfl base (List.mem_singleton.mpr rfl)
    exact ⟨_, except_bind_eq_ok.mpr ⟨f, hf, rfl⟩⟩
  | function params result =>
    obtain ⟨fs, hfs⟩ := except_mapM_ok fun param hparam =>
      h rfl param (List.mem_append_left _ hparam)
    obtain ⟨f, hf⟩ := h rfl result (List.mem_append_right _ (List.mem_singleton.mpr rfl))
    exact ⟨_, except_bind_eq_ok.mpr ⟨fs, hfs, except_bind_eq_ok.mpr ⟨f, hf, rfl⟩⟩⟩
  | generic name args =>
    obtain ⟨fs, hfs⟩ := except_mapM_ok fun arg harg => h rfl arg harg
    exact ⟨_, except_bind_eq_ok.mpr ⟨fs, hfs, rfl⟩⟩
  | record fields =>
    obtain ⟨fs, hfs⟩ : ∃ fs, fields.mapM (fun field => do
        return (field.1, ← fingerprintOf field.2)) = .ok fs := by
      refine except_mapM_ok fun field hfield => ?_
      obtain ⟨f, hf⟩ := h rfl field.2 (List.mem_map_of_mem hfield)
      exact ⟨_, except_bind_eq_ok.mpr ⟨f, hf, rfl⟩⟩
    exact ⟨_, except_bind_eq_ok.mpr ⟨fs, hfs, rfl⟩⟩

namespace TypeTable

variable {t : TypeTable} {id : TypeId} {args candidates : List TypeId}

/-- Every type of the table has a text, as long as no slice lacks its argument. -/
theorem Canonical.exists_text (h : t.Canonical)
    (hslices : ∀ id, t.form? id ≠ some (.generic Form.sliceName [])) (hid : id.index < t.size) :
    ∃ text, t.text id = .ok text := by
  refine h.exists_reading (fun depth id form hform hparts => ?_) hid
  obtain ⟨text, htext⟩ := Form.exists_text (fun heq => hslices id (heq ▸ hform)) hparts
  exact ⟨text, except_bind_eq_ok.mpr ⟨form, form_eq_ok.mpr hform, htext⟩⟩

theorem Canonical.exists_fingerprint (h : t.Canonical) (hid : id.index < t.size) :
    ∃ f, t.fingerprint id = .ok f := by
  refine h.exists_reading (fun depth id form hform hparts => ?_) hid
  obtain ⟨f, hf⟩ := Form.exists_fingerprint hparts
  exact ⟨f, except_bind_eq_ok.mpr ⟨form, form_eq_ok.mpr hform, hf⟩⟩

theorem exists_matching (args : List TypeId) (h : ∀ id ∈ candidates, id.index < t.size) :
    ∃ found, t.matching args candidates = .ok found := by
  induction candidates with
  | nil => exact ⟨[], rfl⟩
  | cons candidate candidates ih =>
    obtain ⟨hfirst, hrest⟩ := List.forall_mem_cons.mp h
    obtain ⟨form, hform⟩ := exists_form?_of_lt hfirst
    obtain ⟨found, hfound⟩ := ih hrest
    exact ⟨_, except_bind_eq_ok.mpr ⟨form, form_eq_ok.mpr hform,
      except_bind_eq_ok.mpr ⟨found, hfound, rfl⟩⟩⟩

/-- The choice of an overload is refused for the arguments only, which have texts. -/
theorem selectExact_ne_fault (symbol : String) (h : ∀ id ∈ candidates, id.index < t.size)
    (hargs : ∀ arg ∈ args, ∃ text, t.text arg = .ok text) (cause : Fault) :
    t.selectExact symbol candidates args ≠ .error (.fault cause) := by
  obtain ⟨found, hfound⟩ := exists_matching args h
  obtain ⟨texts, htexts⟩ := except_mapM_ok hargs
  have htext : t.listText args = .ok (", ".intercalate texts) :=
    except_bind_eq_ok.mpr ⟨texts, htexts, rfl⟩
  unfold selectExact
  rw [hfound, htext]
  intro heq
  split at heq <;> simp_all
  split at heq <;> cases heq

end TypeTable

end RuleTypes
