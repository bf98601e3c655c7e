import Mathlib.Data.List.TakeWhile
import RuleTypes.Proofs.TypeExpr.Flaws
import RuleTypes.Proofs.TypeExpr.Identity
import RuleTypes.Proofs.TypeTable.Permanence

/-!
# What resolution adds to the table

Resolving a written type may add forms, and what it has added before it fails stays. It adds the
forms of the compound parts that are resolved by then, in the order in which they are, and only
those that are not in the table yet (`resolve_adds_what_is_written`). The parts are resolved from
left to right, each after its own parts, up to the first that cannot be.

An operation that adds a form does so or fails and changes nothing (`Requests`). So a resolution
that has come through a list of parts has recorded them (`Records`), and this is carried along its
steps (`Traces`).
-/

namespace RuleTypes

namespace TypeTable

variable {ε : Type} {t t' : TypeTable} {form : Form} {fits : Prop} {x : TableM ε TypeId}

/-! ## Adding one form -/

/-- A form is put at the end, unless it is there. -/
def withForm (forms : List Form) (form : Form) : List Form :=
  if form ∈ forms then forms else forms ++ [form]

/-- What putting in forms one after the other comes to: those that are new, each once. -/
theorem foldl_withForm (old fs : List Form) :
    fs.foldl withForm old = old ++ (fs.filter (· ∉ old)).eraseDups := by
  induction fs generalizing old with
  | nil => simp
  | cons form fs ih =>
    rw [List.foldl_cons, ih]
    by_cases hmem : form ∈ old
    · simp [withForm, hmem]
    · have hsplit : (fs.filter (· ∉ old)).filter (fun other => !other == form) =
          fs.filter (· ∉ old ++ [form]) := by
        rw [List.filter_filter]
        refine List.filter_congr fun other _ => ?_
        by_cases heq : other = form <;> simp [heq]
      rw [List.filter_cons_of_pos (by simpa using hmem), List.eraseDups_cons, hsplit]
      simp [withForm, hmem]

theorem mem_forms_iff : form ∈ t.forms.toList ↔ ∃ id, t.form? id = some form := by
  simp only [form?_eq_toList, List.mem_iff_getElem?]
  exact ⟨fun ⟨i, hi⟩ => ⟨⟨i⟩, hi⟩, fun ⟨id, hid⟩ => ⟨id.index, hid⟩⟩

theorem forms_of_intern (hform : form.isStructural = true) {id : TypeId}
    (h : (intern form : TableM ε TypeId) t = .ok id t') :
    t'.forms.toList = withForm t.forms.toList form := by
  unfold withForm
  obtain ⟨hfind, rfl⟩ | ⟨hfind, rfl, rfl⟩ := intern_eq_ok.mp h
  · rw [if_pos (mem_forms_iff.mpr ⟨id, form?_of_find? hfind⟩)]
  · have hnew : form ∉ t.forms.toList := fun hmem => by
      obtain ⟨id, hid⟩ := mem_forms_iff.mp hmem
      exact (find?_eq_none_iff hform).mp hfind id hid
    rw [if_neg hnew]
    exact Array.toList_push ..

/-- The operation adds the form, unless it is there, and returns its id; if the form does not fit,
the operation fails and changes nothing. -/
structure Requests (form : Form) (fits : Prop) (x : TableM ε TypeId) (t : TypeTable) : Prop where
  ok : ∀ {id t'}, x t = .ok id t' →
    fits ∧ t'.forms.toList = withForm t.forms.toList form ∧ t'.form? id = some form
  error : ∀ {cause t'}, x t = .error cause t' → ¬ fits ∧ t' = t

theorem Requests.of_intern (hform : form.isStructural = true) (hfits : fits)
    (heq : x t = (intern form : TableM ε TypeId) t) : Requests form fits x t where
  ok h := ⟨hfits, forms_of_intern hform (heq.symm.trans h), form?_of_intern (heq.symm.trans h)⟩
  error h := by
    obtain ⟨id, t₁, hok⟩ := intern_ok (ε := ε) form t
    cases (heq.trans hok).symm.trans h

theorem Requests.of_error {cause : Failure ε} (hfits : ¬ fits) (h : x t = .error cause t) :
    Requests form fits x t where
  ok hok := by cases hok.symm.trans h
  error herror := by
    cases herror.symm.trans h
    exact ⟨hfits, rfl⟩

theorem Requests.mapError {ε' : Type} {f : ε → ε'} (h : Requests form fits x t) :
    Requests form fits (x.mapError f) t where
  ok hok := h.ok (mapError_eq_ok.mp hok)
  error herror := by
    unfold TableM.mapError at herror
    cases hx : x t with
    | ok id t₁ => simp [hx] at herror
    | error cause t₁ =>
      simp only [hx, EStateM.Result.error.injEq] at herror
      exact herror.2 ▸ h.error hx

/-- A form of issued components is asked for without asking for these first. -/
theorem internIssued_eq (form : Form) (h : ∀ part ∈ form.components, part.index < t.size) :
    (requireIssued form.components >>= fun _ => intern form : TableM ε TypeId) t =
      (intern form : TableM ε TypeId) t :=
  bind_of_ok (requireIssued_eq_ok (u := ()).mpr ⟨h, rfl⟩)

theorem internPointer_requests {base : TypeId} (h : base.index < t.size) :
    Requests (.pointer base) True (internPointer base : TableM ε TypeId) t :=
  .of_intern rfl trivial (internIssued_eq (.pointer base) (by simpa [Form.components] using h))

theorem internFunction_requests {params : List TypeId} {result : TypeId}
    (hparams : ∀ param ∈ params, param.index < t.size) (hresult : result.index < t.size) :
    Requests (.function params result) True (internFunction params result : TableM ε TypeId) t := by
  refine .of_intern rfl trivial (internIssued_eq (.function params result) fun part hpart => ?_)
  obtain hpart | hpart := List.mem_append.mp hpart
  · exact hparams part hpart
  · exact List.mem_singleton.mp hpart ▸ hresult

theorem internGeneric_requests (name : String) {args : List TypeId}
    (h : ∀ arg ∈ args, arg.index < t.size) :
    Requests (.generic name args) (t.generics.get? name = some args.length)
      (internGeneric name args) t := by
  by_cases harity : t.generics.get? name = some args.length
  · refine .of_intern rfl harity ?_
    rw [internGeneric_eq, harity]
    simp only [ne_eq, not_true_eq_false, if_false]
    exact internIssued_eq (.generic name args) h
  · obtain ⟨cause, herror⟩ := internGeneric_eq_error harity
    exact .of_error harity herror

theorem internSlice_requests {element : TypeId} (h : element.index < t.size) :
    Requests (.generic Form.sliceName [element]) (t.generics.get? Form.sliceName = some 1)
      (internSlice element : TableM ε TypeId) t where
  ok hok := (internGeneric_requests Form.sliceName (by simpa using h)).ok (internSlice_eq_ok hok)
  error herror := by
    unfold internSlice at herror
    cases hgeneric : internGeneric Form.sliceName [element] t with
    | ok id t₁ => simp [hgeneric] at herror
    | error cause t₁ =>
      have hfails := (internGeneric_requests Form.sliceName (by simpa using h)).error hgeneric
      cases cause <;> simp only [hgeneric, EStateM.Result.error.injEq] at herror <;>
        exact herror.2 ▸ hfails

theorem internRecord_requests {fields : List (String × TypeId)}
    (h : ∀ field ∈ fields, field.2.index < t.size) :
    Requests (.record fields) (FieldNames (fields.map (·.1))) (internRecord fields) t := by
  by_cases hnames : FieldNames (fields.map (·.1))
  · refine .of_intern rfl hnames ?_
    have hok : requireFieldNames "anonymous struct" (fields.map (·.1)) t = .ok () t :=
      requireFieldNames_eq_ok.mpr ⟨hnames, rfl⟩
    refine (bind_of_ok hok).trans (internIssued_eq (.record fields) fun part hpart => ?_)
    obtain ⟨field, hfield, rfl⟩ := List.mem_map.mp hpart
    exact h field hfield
  · obtain ⟨id, t', hok⟩ | ⟨cause, t', herror⟩ := (internRecord_safe h).ends
    · exact absurd (fieldNames_of_internRecord hok) hnames
    · obtain rfl := internRecord_atomic fields t _ _ herror
      exact .of_error hnames herror

end TypeTable

open TypeTable

namespace TypeExpr

variable {ε α β : Type} {names : Names} {t t' t₁ t₂ : TypeTable} {e part : TypeExpr}
  {parts parts' : List TypeExpr} {x : TableM ε α} {f : α → TableM ε β}

/-! ## Parts that fit -/

/-- Whether the type can be resolved in the table. -/
def resolves (names : Names) (t : TypeTable) (e : TypeExpr) : Bool :=
  match e.resolveConcrete names t with
  | .ok _ _ => true
  | .error _ _ => false

theorem resolves_iff : e.resolves names t = true ↔
    ∃ id t', e.resolveConcrete names t = .ok id t' := by
  unfold resolves
  cases e.resolveConcrete names t <;> simp

/-- The form of the type, once it is resolved in the table. -/
def formIn? (names : Names) (t : TypeTable) (e : TypeExpr) : Option Form :=
  match e.resolveConcrete names t with
  | .ok id t' => t'.form? id
  | .error _ _ => none

/-- The outermost symbol of the type is used as it should be, where slices are a generic like
others. -/
def Fits (names : Names) (t : TypeTable) : TypeExpr → Prop
  | slice _ => t.generics.get? Form.sliceName = some 1
  | e => e.WellShaped t (Bound names)

theorem Fits.mono (hbasis : t.SameBasis t') (h : e.Fits names t) : e.Fits names t' := by
  cases e with
  | slice element => exact (congrArg (NameMap.get? · Form.sliceName) hbasis.generics).trans h
  | auto | pointer | function | record => exact h
  | named name => exact WellShaped.mono (e := .named name) (fun _ _ hname => hname) hbasis h
  | generic name args =>
    exact (congrArg (NameMap.get? · name) hbasis.generics).trans h

theorem fits_iff_of_basis (hbasis : t.SameBasis t') : e.Fits names t ↔ e.Fits names t' :=
  ⟨Fits.mono hbasis, Fits.mono
    ⟨fun name => (hbasis.primitive? name).symm, hbasis.generics.symm⟩⟩

/-! ## Parts that are recorded -/

/-- The type is found in the table, so that resolving it adds nothing. -/
def Found (names : Names) (t : TypeTable) (e : TypeExpr) : Prop :=
  ∃ id form, e.resolveConcrete names t = .ok id t ∧ t.form? id = some form

theorem Found.extends (h : e.Found names t) (hext : t.Extends t') (hcanonical : t'.Canonical) :
    e.Found names t' ∧ e.formIn? names t' = e.formIn? names t := by
  obtain ⟨id, form, hok, hform⟩ := h
  have hretains : t.Retains t' :=
    ⟨hcanonical, fun _ _ h _ => hext.form? h, fun name => by rw [hext.generics]⟩
  have hagain := resolveConcrete_again e hok hretains
  refine ⟨⟨id, form, hagain, hext.form? hform⟩, ?_⟩
  unfold formIn?
  rw [hok, hagain]
  exact (hext.form? hform).trans hform.symm

/-- The forms of the compound types of a list, in the order of the list. -/
def compoundForms (names : Names) (t : TypeTable) (parts : List TypeExpr) : List Form :=
  (parts.filter isCompound).filterMap (formIn? names t)

/-- The later table has come from the earlier one by adding the forms of the parts, one part after
the other. -/
structure Records (names : Names) (t t' : TypeTable) (parts : List TypeExpr) : Prop where
  table : t.Extends t'
  found : ∀ part ∈ parts, part.Found names t'
  forms : t'.forms.toList = (compoundForms names t' parts).foldl withForm t.forms.toList

theorem Records.nil (names : Names) (t : TypeTable) : Records names t t [] :=
  ⟨.refl t, List.forall_mem_nil _, rfl⟩

theorem Records.append (h : Records names t t₁ parts) (h' : Records names t₁ t₂ parts')
    (hcanonical : t₂.Canonical) : Records names t t₂ (parts ++ parts') where
  table := h.table.trans h'.table
  found part hpart := by
    obtain hpart | hpart := List.mem_append.mp hpart
    · exact ((h.found part hpart).extends h'.table hcanonical).1
    · exact h'.found part hpart
  forms := by
    have hkept : compoundForms names t₂ parts = compoundForms names t₁ parts := by
      refine List.filterMap_congr fun part hpart => ?_
      exact ((h.found part (List.mem_filter.mp hpart).1).extends h'.table hcanonical).2
    calc t₂.forms.toList
        = (compoundForms names t₂ parts').foldl withForm t₁.forms.toList := h'.forms
      _ = (compoundForms names t₁ parts ++ compoundForms names t₂ parts').foldl withForm
          t.forms.toList := by rw [List.foldl_append, ← h.forms]
      _ = (compoundForms names t₂ (parts ++ parts')).foldl withForm t.forms.toList := by
          rw [← hkept, compoundForms, compoundForms, compoundForms, List.filter_append,
            List.filterMap_append]

/-- The operation goes through the parts from left to right, and records them, up to the first that
does not fit. -/
structure Traces (names : Names) (t : TypeTable) (parts : List TypeExpr) (x : TableM ε α) :
    Prop where
  ok : ∀ {a t'}, x t = .ok a t' → (∀ part ∈ parts, part.Fits names t) ∧ Records names t t' parts
  error : ∀ {cause t'}, x t = .error cause t' → ∃ done part rest, parts = done ++ part :: rest ∧
    ¬ part.Fits names t ∧ Records names t t' done

theorem Traces.pure (names : Names) (t : TypeTable) (a : α) :
    Traces names t [] (Pure.pure a : TableM ε α) where
  ok h := by
    obtain ⟨-, rfl⟩ := pure_eq_ok.mp h
    exact ⟨List.forall_mem_nil _, .nil names t⟩
  error h := (pure_eq_error.mp h).elim

theorem Traces.bind (hcanonical : t.Canonical) (hx : Traces names t parts x)
    (hf : ∀ a t₁, x t = .ok a t₁ → Traces names t₁ parts' (f a)) :
    Traces names t (parts ++ parts') (x >>= f) where
  ok h := by
    obtain ⟨a, t₁, hok, h⟩ := bind_eq_ok.mp h
    obtain ⟨hfits, hrecords⟩ := hx.ok hok
    obtain ⟨hfits', hrecords'⟩ := (hf a t₁ hok).ok h
    refine ⟨fun part hpart => ?_, hrecords.append hrecords'
      ((hcanonical.extends hrecords.table).extends hrecords'.table)⟩
    obtain hpart | hpart := List.mem_append.mp hpart
    · exact hfits part hpart
    · exact (fits_iff_of_basis hrecords.table.sameBasis).mpr (hfits' part hpart)
  error h := by
    obtain h | ⟨a, t₁, hok, h⟩ := bind_eq_error.mp h
    · obtain ⟨done, part, rest, rfl, hpart, hrecords⟩ := hx.error h
      exact ⟨done, part, rest ++ parts', by simp, hpart, hrecords⟩
    · obtain ⟨-, hrecords⟩ := hx.ok hok
      obtain ⟨done, part, rest, rfl, hpart, hrecords'⟩ := (hf a t₁ hok).error h
      refine ⟨parts ++ done, part, rest, by simp, fun hfits => hpart ?_, hrecords.append hrecords'
        ((hcanonical.extends hrecords.table).extends hrecords'.table)⟩
      exact (fits_iff_of_basis hrecords.table.sameBasis).mp hfits

/-- A compound type, after the types that it is put together from: its form is asked for. -/
theorem Traces.compound (hcanonical : t.Canonical) (he : e.isCompound = true)
    (hparts : Traces names t parts (resolveAll names e.parts))
    (hstep : ∀ ids t₁, resolveAll names e.parts t = .ok ids t₁ →
      ∃ form, Requests form (e.Fits names t₁) (e.assemble ids) t₁) :
    Traces names t (parts ++ [e]) (e.resolveConcrete names) := by
  rw [resolveConcrete_compound names he]
  refine hparts.bind hcanonical fun ids t₁ hids => ?_
  obtain ⟨form, hrequests⟩ := hstep ids t₁ hids
  refine ⟨fun {id t₂} h => ?_, fun {cause t₂} h => ?_⟩
  · obtain ⟨hfits, hforms, hform⟩ := hrequests.ok h
    have hwhole : e.resolveConcrete names t = .ok id t₂ := by
      rw [resolveConcrete_compound names he, bind_of_ok hids, h]
    have hcanonical₂ : t₂.Canonical :=
      hcanonical.extends ((resolveConcrete_moves names e).ok hwhole)
    have hfound := resolveConcrete_again e hwhole ⟨hcanonical₂, fun _ _ h _ => h, fun _ => rfl⟩
    have hin : e.formIn? names t₂ = some form := by
      unfold formIn?
      rw [hfound]
      exact hform
    refine ⟨List.forall_mem_singleton.mpr hfits, (assemble_moves e ids).ok h,
      List.forall_mem_singleton.mpr ⟨id, form, hfound, hform⟩, ?_⟩
    simpa [compoundForms, he, hin] using hforms
  · obtain ⟨hfits, rfl⟩ := hrequests.error h
    exact ⟨[], e, [], rfl, hfits, .nil names t₂⟩

/-! ## Resolution -/

/-- Names are bound to issued ids. -/
def NamesIssued (names : Names) (t : TypeTable) : Prop :=
  ∀ name id, names.get? name = some id → id.index < t.size

theorem NamesIssued.extends (h : NamesIssued names t) (hext : t.Extends t') :
    NamesIssued names t' := fun name id hid =>
  Nat.lt_of_lt_of_le (h name id hid) hext.size_le

theorem NamesIssued.issuedAll (h : NamesIssued names t) {ids : List TypeId}
    (hdenotes : DenotesAll names t parts ids) : ∀ id ∈ ids, id.index < t.size := by
  intro id hid
  obtain ⟨e, -, he⟩ := hdenotes.exists_type hid
  exact he.issued h

theorem named_traces (hnames : NamesIssued names t) (name : String) :
    Traces names t [.named name] ((named name).resolveConcrete names) := by
  cases hmeaning : (names.get? name).or (t.primitive? name) with
  | none =>
    obtain ⟨hfree, hprimitive⟩ := Option.or_eq_none_iff.mp hmeaning
    have hfails : (named name).resolveConcrete names t = .error (.error (.unknownType name)) t := by
      rw [resolveConcrete, resolveName, hmeaning]
    refine ⟨fun hok => ?_, fun herror => ?_⟩
    · cases hfails.symm.trans hok
    · cases hfails.symm.trans herror
      refine ⟨[], .named name, [], rfl, fun hfits => ?_, .nil names t⟩
      exact (Flawed.unknown hfree hprimitive).not_wellShaped hfits
  | some id =>
    have hanswers : (named name).resolveConcrete names t = .ok id t := by
      rw [resolveConcrete, resolveName, hmeaning]
    refine ⟨fun hok => ?_, fun herror => ?_⟩
    · cases hanswers.symm.trans hok
      obtain ⟨hdenotes, hresolvable⟩ := resolveConcrete_means _ hanswers
      obtain ⟨form, hform⟩ := exists_form?_of_lt (hdenotes.issued hnames)
      have hfits : (named name).Fits names t := hresolvable _ .refl
      exact ⟨List.forall_mem_singleton.mpr hfits, .refl t,
        List.forall_mem_singleton.mpr ⟨id, form, hanswers, hform⟩, rfl⟩
    · cases hanswers.symm.trans herror

/-- The step that puts a compound type together asks for its form. -/
theorem assemble_requests (hcanonical : t.Canonical) (he : e.isCompound = true) {ids : List TypeId}
    (hlength : e.parts.length = ids.length) (hids : ∀ id ∈ ids, id.index < t.size) :
    ∃ form, Requests form (e.Fits names t) (e.assemble ids) t := by
  have hvalue : TypeId.noValue.index < t.size := form?_eq_some_lt hcanonical.noValue
  cases e with
  | auto | named => cases he
  | pointer base =>
    obtain _ | ⟨base, _ | _⟩ := ids <;> cases hlength
    exact ⟨_, internPointer_requests (hids _ (List.mem_singleton.mpr rfl))⟩
  | slice element =>
    obtain _ | ⟨element, _ | _⟩ := ids <;> cases hlength
    exact ⟨_, internSlice_requests (hids _ (List.mem_singleton.mpr rfl))⟩
  | generic name args =>
    refine ⟨.generic name ids, Requests.mapError ?_⟩
    show Requests _ (t.generics.get? name = some args.length) _ t
    rw [show args.length = ids.length from hlength]
    exact internGeneric_requests name hids
  | function params result =>
    cases result with
    | none => exact ⟨_, internFunction_requests hids hvalue⟩
    | some result =>
      refine ⟨_, internFunction_requests (fun id hid => hids id (List.dropLast_subset _ hid)) ?_⟩
      rw [List.getLastD_eq_getLast?]
      cases hlast : ids.getLast? with
      | none => exact hvalue
      | some last => exact hids last (List.mem_of_getLast? hlast)
  | record fields =>
    have hnames : ((fields.map (·.1)).zip ids).map (·.1) = fields.map (·.1) :=
      List.map_fst_zip (by simpa [TypeExpr.parts] using hlength.le)
    have hrequests : Requests _ _ (internRecord ((fields.map (·.1)).zip ids)) t :=
      internRecord_requests fun field hfield => hids _ (List.of_mem_zip hfield).2
    rw [hnames] at hrequests
    exact ⟨_, hrequests.mapError⟩

theorem resolution_traces :
    (∀ (e : TypeExpr) (t : TypeTable), t.Canonical → NamesIssued names t →
      Traces names t e.postorder (e.resolveConcrete names)) ∧
    ∀ (es : List TypeExpr) (t : TypeTable), t.Canonical → NamesIssued names t →
      Traces names t (postorderAll es) (resolveAll names es) := by
  refine parts_induction ?auto ?named ?compound ?nil ?cons
  case auto =>
    intro t _ _
    rw [resolveConcrete, postorder]
    refine ⟨fun h => (throw_eq_ok.mp h).elim, fun h => ?_⟩
    cases h
    exact ⟨[], .auto, [], rfl, id, .nil names t⟩
  case named =>
    intro name t _ hnames
    rw [postorder]
    exact named_traces hnames name
  case compound =>
    intro e he hparts t hcanonical hnames
    rw [postorder_eq]
    refine .compound hcanonical he (hparts t hcanonical hnames) fun ids t₁ hids => ?_
    have hextends : t.Extends t₁ := (resolveAll_moves names e.parts).ok hids
    exact assemble_requests (hcanonical.extends hextends) he (length_of_resolveAll hids)
      ((hnames.extends hextends).issuedAll (resolveAll_means _ hids).1)
  case nil =>
    intro t _ _
    rw [resolveAll, postorderAll]
    exact .pure names t []
  case cons =>
    intro e es he hes t hcanonical hnames
    rw [resolveAll, postorderAll]
    refine (he t hcanonical hnames).bind hcanonical fun id t₁ hfirst => ?_
    have hextends : t.Extends t₁ := (resolveConcrete_moves names e).ok hfirst
    have hrest := hes t₁ (hcanonical.extends hextends) (hnames.extends hextends)
    simpa using hrest.bind (hcanonical.extends hextends) fun ids t₂ _ =>
      Traces.pure names t₂ (id :: ids)

/-- **Resolution records the parts of a type one after the other.** -/
theorem resolveConcrete_traces (e : TypeExpr) (hcanonical : t.Canonical)
    (hnames : NamesIssued names t) : Traces names t e.postorder (e.resolveConcrete names) :=
  resolution_traces.1 e t hcanonical hnames

/-- A type can be resolved exactly if its parts fit. -/
theorem resolves_iff_fits (hcanonical : t.Canonical) (hnames : NamesIssued names t) :
    e.resolves names t = true ↔ ∀ part ∈ e.postorder, part.Fits names t := by
  have htraces := resolveConcrete_traces e hcanonical hnames
  constructor
  · intro hresolves
    obtain ⟨id, t', hok⟩ := resolves_iff.mp hresolves
    exact (htraces.ok hok).1
  · intro hfits
    cases hresult : e.resolveConcrete names t with
    | ok id t' => exact resolves_iff.mpr ⟨id, t', hresult⟩
    | error cause t' =>
      obtain ⟨done, part, rest, hsplit, hpart, -⟩ := htraces.error hresult
      exact absurd (hfits part (by simp [hsplit])) hpart

/-- The parts that are resolved before the first that cannot be. -/
def resolvedParts (names : Names) (t : TypeTable) (e : TypeExpr) : List TypeExpr :=
  e.postorder.takeWhile (resolves names t)

/-- Whether resolution answers or fails, it records the parts before the first that cannot be
resolved. -/
theorem records_resolvedParts (hcanonical : t.Canonical) (hnames : NamesIssued names t)
    (e : TypeExpr) : Records names t (endState (e.resolveConcrete names t))
      (resolvedParts names t e) := by
  have htraces := resolveConcrete_traces e hcanonical hnames
  -- a part that is found later could be resolved before
  have hbefore : ∀ {t' parts}, Records names t t' parts → ∀ part ∈ parts,
      part.resolves names t = true := by
    intro t' parts hrecords part hpart
    obtain ⟨id, form, hok, -⟩ := hrecords.found part hpart
    have hfits := (resolves_iff_fits (hcanonical.extends hrecords.table)
      (hnames.extends hrecords.table)).mp (resolves_iff.mpr ⟨id, _, hok⟩)
    exact (resolves_iff_fits hcanonical hnames).mpr fun other hother =>
      (fits_iff_of_basis hrecords.table.sameBasis).mpr (hfits other hother)
  cases hresult : e.resolveConcrete names t with
  | ok id t' =>
    obtain ⟨-, hrecords⟩ := htraces.ok hresult
    rwa [resolvedParts, List.takeWhile_eq_self_iff.mpr (hbefore hrecords)]
  | error cause t' =>
    obtain ⟨done, part, rest, hsplit, hpart, hrecords⟩ := htraces.error hresult
    have hstops : part.resolves names t = false := by
      refine Bool.eq_false_iff.mpr fun hresolves => hpart ?_
      exact (resolves_iff_fits hcanonical hnames).mp hresolves part (by simp [postorder_eq part])
    rw [resolvedParts, hsplit, List.takeWhile_append_of_pos (hbefore hrecords),
      List.takeWhile_cons_of_neg (by simp [hstops]), List.append_nil]
    exact hrecords

theorem Denotes.form_of_compound {id : TypeId} {form : Form} (h : Denotes names t e id)
    (hcompound : e.isCompound = true) (hform : t.form? id = some form) :
    form.isDeclared = false ∧ ∀ name, form ≠ .primitive name := by
  cases h with
  | declared | primitive => cases hcompound
  | compound hids hform' hlength =>
    cases hform.symm.trans hform'
    cases shapes_of_form? hids hlength <;> exact ⟨rfl, nofun⟩

/-- A form that was recorded is that of a compound part. -/
theorem exists_part_of_mem_compoundForms {form : Form} (hfound : ∀ part ∈ parts, part.Found names t)
    (hform : form ∈ compoundForms names t parts) :
    ∃ part ∈ parts, part.isCompound = true ∧
      ∃ id, part.resolveConcrete names t = .ok id t ∧ t.form? id = some form := by
  obtain ⟨part, hpart, hin⟩ := List.mem_filterMap.mp hform
  obtain ⟨hpart, hcompound⟩ := List.mem_filter.mp hpart
  obtain ⟨id, -, hok, -⟩ := hfound part hpart
  refine ⟨part, hpart, hcompound, id, hok, ?_⟩
  unfold formIn? at hin
  rwa [hok] at hin

/-- The type of a declaration leaves the table as a type that has to be known in full does: where
the former may be left open, the latter fails at once. -/
theorem endState_resolve (names : Names) (t : TypeTable) (e : TypeExpr) :
    endState (e.resolve names t) = endState (e.resolveConcrete names t) := by
  unfold resolve
  cases e with
  | auto =>
    rw [resolveConcrete]
    rfl
  | _ => rfl

/-- **Resolution adds what is written and nothing else.** Let names be bound to issued ids, and let
a written type be resolved, with an answer or not. Then the forms that were in the table stay in
their places, the pending structs and the generics are the same, and the new forms are those of the
compound parts that are resolved before the first that cannot be: in the order in which the parts
end, each form where it comes first, and only if it was not in the table. No primitive type and no
declared struct is among them. -/
theorem resolve_adds_what_is_written (ht : t.Reachable)
    (hnames : ∀ name id, names.get? name = some id → id.index < t.size)
    (hend : endState (e.resolve names t) = t') :
    t'.pending = t.pending ∧ t'.generics = t.generics ∧
      ∃ added, t'.forms.toList = t.forms.toList ++ added ∧
        added = ((compoundForms names t' (resolvedParts names t e)).filter
          (· ∉ t.forms.toList)).eraseDups ∧
        (∀ part ∈ resolvedParts names t e, part.Found names t') ∧
        ∀ form ∈ added, form.isDeclared = false ∧ (∀ name, form ≠ .primitive name) ∧
          ∃ part id, e.Has part ∧ part.isCompound = true ∧ part.resolves names t = true ∧
            part.resolveConcrete names t' = .ok id t' ∧ t'.form? id = some form := by
  have hrecords : Records names t t' (resolvedParts names t e) := by
    rw [← hend, endState_resolve]
    exact records_resolvedParts ht.canonical hnames e
  refine ⟨hrecords.table.pending, hrecords.table.generics, _,
    hrecords.forms.trans (foldl_withForm _ _), rfl, hrecords.found, fun form hform => ?_⟩
  obtain ⟨hform, -⟩ := List.mem_filter.mp (List.mem_eraseDups.mp hform)
  obtain ⟨part, hpart, hcompound, id, hok, hid⟩ :=
    exists_part_of_mem_compoundForms hrecords.found hform
  obtain ⟨hdeclared, hprimitive⟩ :=
    (resolveConcrete_means part hok).1.form_of_compound hcompound hid
  refine ⟨hdeclared, hprimitive, part, id, ?_, hcompound, List.mem_takeWhile_imp hpart, hok, hid⟩
  exact has_of_postorder.1 e part ((List.takeWhile_prefix _).subset hpart)

/-- Numbers, a struct of one number and the pointers to it. -/
def pointedSample : TypeTable := Op.apply sampleTable (.pointer ⟨3⟩)

/-- Functions of slices, pointers to slices, and a struct that uses the name of a field twice. -/
def doubledField : TypeExpr :=
  .function
    [.slice (.named "Sample"), .pointer (.slice (.named "Sample")),
      .record [("x", .pointer (.named "Sample")), ("x", .named "f64")], .pointer (.named "f64")]
    none

/-- Resolution fails at the struct. The slices and the pointers to them are new by then, the slices
once; the pointers of the field were there, and the last parameter is not reached. -/
theorem resolve_adds_what_is_written_doubledField :
    pointedSample.Reachable ∧
      (∀ name id, sampleNames.get? name = some id → id.index < pointedSample.size) ∧
      ∃ cause t', doubledField.resolve sampleNames pointedSample = .error cause t' ∧
        t'.forms.toList = pointedSample.forms.toList ++
          [.generic Form.sliceName [⟨3⟩], .pointer ⟨5⟩] ∧
        t'.pending = pointedSample.pending ∧ t'.generics = pointedSample.generics ∧
        [.generic Form.sliceName [⟨3⟩], .pointer ⟨5⟩] = ((compoundForms sampleNames t'
          (resolvedParts sampleNames pointedSample doubledField)).filter
            (· ∉ pointedSample.forms.toList)).eraseDups ∧
        ∀ part ∈ resolvedParts sampleNames pointedSample doubledField,
          part.Found sampleNames t' := by
  have hreachable : pointedSample.Reachable := ((Reachable.new _).foldl _).foldl [_]
  have hnames : ∀ name id, sampleNames.get? name = some id → id.index < pointedSample.size := by
    intro name id hid
    obtain rfl | hne := eq_or_ne name "Sample"
    · cases hid
      decide
    · simp [sampleNames, NameMap.get?, List.lookup_cons, beq_false_of_ne hne] at hid
  obtain ⟨hpending, hgenerics, added, hforms, hadded, hfound, -⟩ :=
    resolve_adds_what_is_written (e := doubledField) hreachable hnames rfl
  have heval : (endState (doubledField.resolve sampleNames pointedSample)).forms.toList =
      pointedSample.forms.toList ++ [.generic Form.sliceName [⟨3⟩], .pointer ⟨5⟩] := by decide
  obtain rfl := List.append_cancel_left (hforms.symm.trans heval)
  exact ⟨hreachable, hnames, _, _, rfl, hforms, hpending, hgenerics, hadded, hfound⟩

end TypeExpr

end RuleTypes
