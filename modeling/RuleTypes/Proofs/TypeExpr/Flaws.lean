import RuleTypes.Proofs.TypeExpr.Meaning

/-!
# Which flaw of a written type is reported

A written type may be flawed in many places at once. Resolution goes through its parts from left to
right, a type after the types it is put together from, and reports the flaw that comes first in this
order (`resolveConcrete_ends_at_first_flaw`). The table grows meanwhile, but what makes a part
flawed, the primitive types and the generics, stays as it was.
-/

namespace RuleTypes

namespace TypeTable

variable {ε : Type} {t : TypeTable} {owner : String} {seen before names rest : List String}
  {cause : TableError}

/-! ## Names of fields -/

/-- What is wrong with the first name that cannot stand after those before it. -/
inductive FieldFlaw (owner : String) : List String → TableError → Prop
  | reserved {before after : List String} {name : String} (hbefore : FieldNames before)
      (h : isReserved name = true) :
      FieldFlaw owner (before ++ name :: after) (.reservedField owner name)
  | duplicate {before after : List String} {name : String} (hbefore : FieldNames before)
      (h : name ∈ before) :
      FieldFlaw owner (before ++ name :: after) (.duplicateField owner name)

theorem FieldNames.reverse (h : FieldNames names) : FieldNames names.reverse :=
  ⟨List.nodup_reverse.mpr h.1, fun name hname => h.2 name (List.mem_reverse.mp hname)⟩

/-- The search keeps the names that it has passed, the last one first. -/
theorem fieldFlaw_of_fieldNamesError? (hseen : FieldNames seen)
    (h : fieldNamesError? owner seen names = some cause) :
    FieldFlaw owner (seen.reverse ++ names) cause := by
  fun_induction fieldNamesError? owner seen names with
  | case1 => cases h
  | case2 seen name names hreserved =>
    cases h
    exact .reserved hseen.reverse hreserved
  | case3 seen name names _ hmem =>
    cases h
    exact .duplicate hseen.reverse (by simpa using hmem)
  | case4 seen name names hreserved hmem ih =>
    have hname : FieldNames (name :: seen) :=
      ⟨List.nodup_cons.mpr ⟨by simpa using hmem, hseen.1⟩,
        List.forall_mem_cons.mpr ⟨by simpa using hreserved, hseen.2⟩⟩
    simpa using ih hname h

theorem fieldNamesError?_append (h : FieldNames (before.reverse ++ seen)) :
    fieldNamesError? owner seen (before ++ rest) =
      fieldNamesError? owner (before.reverse ++ seen) rest := by
  induction before generalizing seen with
  | nil => rfl
  | cons name before ih =>
    have hnames : FieldNames (before.reverse ++ name :: seen) := by simpa using h
    have hmem : name ∉ seen :=
      (List.nodup_cons.mp (List.nodup_append.mp hnames.1).2.1).1
    have hreserved : isReserved name = false := hnames.2 name (by simp)
    rw [List.cons_append, fieldNamesError?, hreserved, if_neg Bool.false_ne_true,
      if_neg (by simpa using hmem), ih hnames]
    simp

theorem fieldNamesError?_eq_some_iff :
    fieldNamesError? owner [] names = some cause ↔ FieldFlaw owner names cause := by
  constructor
  · intro h
    exact fieldFlaw_of_fieldNamesError? ⟨.nil, nofun⟩ h
  · rintro (⟨hbefore, h⟩ | ⟨hbefore, h⟩)
    · rw [fieldNamesError?_append (by simpa using hbefore.reverse), fieldNamesError?, if_pos h]
    · have hreserved := hbefore.2 _ h
      rw [fieldNamesError?_append (by simpa using hbefore.reverse), fieldNamesError?, hreserved,
        if_neg Bool.false_ne_true, if_pos (by simpa using h)]

theorem FieldFlaw.unique {cause' : TableError} (h : FieldFlaw owner names cause)
    (h' : FieldFlaw owner names cause') : cause = cause' :=
  Option.some.inj ((fieldNamesError?_eq_some_iff.mpr h).symm.trans
    (fieldNamesError?_eq_some_iff.mpr h'))

theorem FieldFlaw.not_fieldNames (h : FieldFlaw owner names cause) : ¬ FieldNames names := by
  intro hnames
  have hnone : fieldNamesError? owner [] names = none :=
    fieldNamesError?_eq_none_iff.mpr ⟨hnames, fun _ _ => List.not_mem_nil⟩
  rw [fieldNamesError?_eq_some_iff.mpr h] at hnone
  cases hnone

theorem internRecord_stops (fields : List (String × TypeId)) :
    Refuses (FieldFlaw "anonymous struct" (fields.map (·.1))) (internRecord fields) t := by
  refine .bind ?_ fun _ _ _ => internIssued_refuses (.record fields)
  unfold requireFieldNames
  cases h : fieldNamesError? "anonymous struct" [] (fields.map (·.1)) with
  | none => exact .pure _
  | some cause => exact .throw (fieldNamesError?_eq_some_iff.mp h)

end TypeTable

open TypeTable

namespace TypeExpr

variable {names : Names} {t t' : TypeTable} {e part : TypeExpr} {es es' : List TypeExpr}
  {cause cause' : LoadError}

/-! ## The order of parts -/

mutual

/-- All parts of a written type, from left to right, each after its own parts. -/
def postorder : TypeExpr → List TypeExpr
  | auto => [auto]
  | named name => [named name]
  | pointer base => base.postorder ++ [pointer base]
  | slice element => element.postorder ++ [slice element]
  | generic name args => postorderAll args ++ [generic name args]
  | function params none => postorderAll params ++ [function params none]
  | function params (some result) =>
    postorderAll params ++ result.postorder ++ [function params (some result)]
  | record fields => postorderFields fields ++ [record fields]

/-- The parts of all types of a list. -/
def postorderAll : List TypeExpr → List TypeExpr
  | [] => []
  | e :: es => e.postorder ++ postorderAll es

/-- The parts of the types of all fields. -/
def postorderFields : List (String × TypeExpr) → List TypeExpr
  | [] => []
  | (_, e) :: fields => e.postorder ++ postorderFields fields

end

theorem mem_postorderAll_iff : part ∈ postorderAll es ↔ ∃ e ∈ es, part ∈ e.postorder := by
  induction es with
  | nil => simp [postorderAll]
  | cons e es ih => simp [postorderAll, ih]

theorem postorderFields_eq (fields : List (String × TypeExpr)) :
    postorderFields fields = postorderAll (fields.map (·.2)) := by
  induction fields with
  | nil => rfl
  | cons field fields ih => simp [postorderFields, postorderAll, ih]

theorem postorderAll_append : postorderAll (es ++ es') = postorderAll es ++ postorderAll es' := by
  induction es with
  | nil => rfl
  | cons e es ih => simp [postorderAll, ih]

theorem postorder_eq (e : TypeExpr) : e.postorder = postorderAll e.parts ++ [e] := by
  cases e with
  | auto | named => rfl
  | pointer | slice => simp [postorder, parts, postorderAll]
  | generic => simp [postorder, parts]
  | function params result =>
    cases result <;> simp [postorder, parts, postorderAll_append, postorderAll]
  | record fields => simp [postorder, parts, postorderFields_eq]

theorem has_of_postorder :
    (∀ e : TypeExpr, ∀ part ∈ e.postorder, e.Has part) ∧
    ∀ es : List TypeExpr, ∀ part ∈ postorderAll es, ∃ e ∈ es, e.Has part := by
  have hcompound : ∀ e : TypeExpr, (∀ part ∈ postorderAll e.parts, ∃ e' ∈ e.parts, e'.Has part) →
      ∀ part ∈ e.postorder, e.Has part := by
    intro e hparts part hpart
    rw [postorder_eq] at hpart
    obtain hpart | hpart := List.mem_append.mp hpart
    · obtain ⟨next, hnext, hhas⟩ := hparts part hpart
      exact .head hnext hhas
    · exact List.mem_singleton.mp hpart ▸ .refl
  refine parts_induction (hcompound _ (by simp [parts, postorderAll]))
    (fun name => hcompound _ (by simp [parts, postorderAll])) (fun e _ => hcompound e) ?nil ?cons
  case nil => simp [postorderAll]
  case cons =>
    intro e es he hes part hpart
    obtain hpart | hpart := List.mem_append.mp hpart
    · exact ⟨e, List.mem_cons_self .., he part hpart⟩
    · obtain ⟨other, hother, hhas⟩ := hes part hpart
      exact ⟨other, List.mem_cons_of_mem _ hother, hhas⟩

theorem mem_postorder_of_has (h : e.Has part) : part ∈ e.postorder := by
  induction h using Relation.ReflTransGen.head_induction_on with
  | refl => simp [postorder_eq part]
  | @head e next hnext _ ih =>
    rw [postorder_eq e]
    exact List.mem_append_left _ (mem_postorderAll_iff.mpr ⟨next, hnext, ih⟩)

/-- The order lists the parts and nothing else. -/
theorem mem_postorder_iff : part ∈ e.postorder ↔ e.Has part :=
  ⟨has_of_postorder.1 e part, mem_postorder_of_has⟩

/-! ## Flaws -/

/-- What is wrong with a written type, its parts apart. -/
inductive Flawed (names : Names) (t : TypeTable) : TypeExpr → LoadError → Prop
  | auto : Flawed names t .auto .misplacedAuto
  | unknown {name : String} (hname : names.get? name = none)
      (hprimitive : t.primitive? name = none) : Flawed names t (.named name) (.unknownType name)
  | generic {name : String} {args : List TypeExpr} (h : t.generics.get? name = none) :
      Flawed names t (.generic name args) (.table (.unknownGeneric name))
  | arity {name : String} {args : List TypeExpr} {arity : Nat}
      (h : t.generics.get? name = some arity) (hne : arity ≠ args.length) :
      Flawed names t (.generic name args) (.table (.invalidArity name arity args.length))
  | fields {fields : List (String × TypeExpr)} {cause : TableError}
      (h : FieldFlaw "anonymous struct" (fields.map (·.1)) cause) :
      Flawed names t (.record fields) (.table cause)

/-- The cause is what is wrong with the first type of a list that is not as it should be. -/
inductive FirstFlaw (names : Names) (t : TypeTable) : List TypeExpr → LoadError → Prop
  | here {part : TypeExpr} {rest : List TypeExpr} {cause : LoadError}
      (h : part.Flawed names t cause) : FirstFlaw names t (part :: rest) cause
  | later {part : TypeExpr} {rest : List TypeExpr} {cause : LoadError}
      (hpart : part.WellShaped t (Bound names)) (h : FirstFlaw names t rest cause) :
      FirstFlaw names t (part :: rest) cause

namespace Flawed

theorem not_wellShaped (h : part.Flawed names t cause) :
    ¬ part.WellShaped t (Bound names) := by
  cases h with
  | auto => exact id
  | unknown hname hprimitive =>
    rintro (hbound | hbound)
    · obtain ⟨id, hid⟩ := NameMap.contains_eq_true_iff.mp hbound
      cases hname.symm.trans hid
    · simp [hprimitive] at hbound
  | generic h => exact fun hshape => nomatch h.symm.trans hshape
  | arity h hne => exact fun hshape => hne (Option.some.inj (h.symm.trans hshape))
  | fields h => exact h.not_fieldNames

theorem unique (h : part.Flawed names t cause) (h' : part.Flawed names t cause') :
    cause = cause' := by
  cases h with
  | auto | unknown => cases h'; rfl
  | generic h =>
    cases h' with
    | generic => rfl
    | arity h' => cases h.symm.trans h'
  | arity h =>
    cases h' with
    | generic h' => cases h.symm.trans h'
    | arity h' => cases h.symm.trans h'; rfl
  | fields h =>
    cases h' with
    | fields h' => rw [h.unique h']

theorem of_basis (hbasis : t.SameBasis t') (h : part.Flawed names t' cause) :
    part.Flawed names t cause := by
  cases h with
  | auto => exact .auto
  | unknown hname hprimitive => exact .unknown hname (hbasis.primitive? _ ▸ hprimitive)
  | generic h => exact .generic (hbasis.generics ▸ h)
  | arity h hne => exact .arity (hbasis.generics ▸ h) hne
  | fields h => exact .fields h

end Flawed

namespace FirstFlaw

theorem append_right (h : FirstFlaw names t es cause) (es' : List TypeExpr) :
    FirstFlaw names t (es ++ es') cause := by
  induction h with
  | here h => exact .here h
  | later hpart _ ih => exact .later hpart ih

theorem append_left (hes : ∀ part ∈ es, part.WellShaped t (Bound names))
    (h : FirstFlaw names t es' cause) : FirstFlaw names t (es ++ es') cause := by
  induction es with
  | nil => exact h
  | cons part es ih =>
    obtain ⟨hpart, hes⟩ := List.forall_mem_cons.mp hes
    exact .later hpart (ih hes)

theorem of_basis (hbasis : t.SameBasis t') (h : FirstFlaw names t' es cause) :
    FirstFlaw names t es cause := by
  induction h with
  | here h => exact .here (h.of_basis hbasis)
  | later hpart _ ih => exact .later (WellShaped.of_basis hbasis hpart) ih

theorem not_forall (h : FirstFlaw names t es cause) :
    ¬ ∀ part ∈ es, part.WellShaped t (Bound names) := by
  intro hes
  induction h with
  | here h => exact h.not_wellShaped (hes _ (List.mem_cons_self ..))
  | later _ _ ih => exact ih fun part hpart => hes part (List.mem_cons_of_mem _ hpart)

/-- There is one first flaw. -/
theorem unique (h : FirstFlaw names t es cause) (h' : FirstFlaw names t es cause') :
    cause = cause' := by
  induction h with
  | here h =>
    cases h' with
    | here h' => exact h.unique h'
    | later hpart => exact absurd hpart h.not_wellShaped
  | later hpart _ ih =>
    cases h' with
    | here h' => exact absurd hpart h'.not_wellShaped
    | later _ h' => exact ih h'

end FirstFlaw

/-! ## Resolution -/

theorem resolveName_stops (names : Names) (name : String) :
    Refuses ((named name).Flawed names t) (resolveName names name) t := by
  intro cause t' h
  unfold resolveName at h
  cases hname : (names.get? name).or (t.primitive? name) with
  | some id => simp [hname] at h
  | none =>
    simp only [hname, EStateM.Result.error.injEq, Failure.error.injEq] at h
    obtain ⟨hfree, hprimitive⟩ := Option.or_eq_none_iff.mp hname
    exact h.1 ▸ .unknown hfree hprimitive

theorem internGeneric_stops (names : Names) (name : String) {args : List TypeExpr}
    {ids : List TypeId} (hlength : args.length = ids.length) :
    Refuses (fun cause => (generic name args).Flawed names t (.table cause))
      (internGeneric name ids) t := by
  have heq := internGeneric_eq name ids t
  split at heq
  case h_1 hget => exact .of_error heq (.generic hget)
  case h_2 arity hget =>
    split at heq
    case isTrue harity => exact .of_error heq (hlength ▸ .arity hget (hlength ▸ harity))
    case isFalse => exact .congr heq (internIssued_refuses (.generic name ids))

/-- All parts of types that were resolved were as they should be. -/
theorem wellShaped_of_postorderAll (h : ∀ e ∈ es, e.Resolvable t (Bound names)) :
    ∀ part ∈ postorderAll es, part.WellShaped t (Bound names) := by
  intro part hpart
  obtain ⟨e, he, hpart⟩ := has_of_postorder.2 es part hpart
  exact h e he part hpart

/-- Once its parts are resolved, a type is refused for its own flaw. -/
theorem assemble_stops (names : Names) (he : e.isCompound = true) {ids : List TypeId}
    (hlength : e.parts.length = ids.length) : Refuses (e.Flawed names t) (e.assemble ids) t := by
  cases e with
  | auto | named => cases he
  | pointer base =>
    obtain _ | ⟨base, _ | _⟩ := ids <;> cases hlength
    exact internPointer_refuses _
  | slice element =>
    obtain _ | ⟨element, _ | _⟩ := ids <;> cases hlength
    exact internSlice_refuses _
  | generic name args =>
    exact mapError_refuses (fun _ hflaw => hflaw) (internGeneric_stops names name hlength)
  | function params result => cases result <;> exact internFunction_refuses _ _
  | record fields =>
    refine mapError_refuses (fun cause hflaw => .fields ?_) (internRecord_stops _)
    rwa [List.map_fst_zip (by simpa [parts] using hlength.le)] at hflaw

theorem resolution_stops :
    (∀ (e : TypeExpr) (t : TypeTable),
      Refuses (FirstFlaw names t e.postorder) (e.resolveConcrete names) t) ∧
    ∀ (es : List TypeExpr) (t : TypeTable),
      Refuses (FirstFlaw names t (postorderAll es)) (resolveAll names es) t := by
  refine parts_induction ?auto ?named ?compound ?nil ?cons
  case auto =>
    intro t
    rw [resolveConcrete, postorder]
    exact .throw (.here .auto)
  case named =>
    intro name t
    rw [resolveConcrete, postorder]
    exact (resolveName_stops names name).mono fun _ => .here
  case compound =>
    intro e he hparts t
    rw [resolveConcrete_compound names he, postorder_eq]
    refine .bind ((hparts t).mono fun _ h => h.append_right _) fun ids t₁ hids => ?_
    have hshaped := wellShaped_of_postorderAll (resolveAll_means _ hids).2
    have hbasis := (resolveAll_moves (R := SameBasis) names e.parts).ok hids
    exact (assemble_stops names he (length_of_resolveAll hids)).mono fun _ hflaw =>
      .append_left hshaped (.here (hflaw.of_basis hbasis))
  case nil =>
    intro t
    rw [resolveAll]
    exact .pure _
  case cons =>
    intro e es he hes t
    rw [resolveAll, postorderAll]
    refine .bind ((he t).mono fun _ h => h.append_right _) fun id t₁ hfirst => ?_
    have hshaped := fun part hpart =>
      (resolveConcrete_means e hfirst).2 part (has_of_postorder.1 e part hpart)
    have hbasis := (resolveConcrete_moves (R := SameBasis) names e).ok hfirst
    exact .bind ((hes t₁).mono fun _ h => (h.of_basis hbasis).append_left hshaped)
      fun _ _ _ => .pure _

/-- **Resolution stops at the first flaw.** -/
theorem resolveConcrete_stops (e : TypeExpr) :
    Refuses (FirstFlaw names t e.postorder) (e.resolveConcrete names) t := resolution_stops.1 e t

/-- **A written type is resolved exactly if no part of it is flawed, and otherwise the first flaw
is reported.** The parts are taken from left to right, each after its own parts. -/
theorem resolveConcrete_ends_at_first_flaw (ht : t.Reachable)
    (hslices : t.generics.get? Form.sliceName = some 1)
    (hnames : ∀ name id, names.get? name = some id → id.index < t.size) (e : TypeExpr) :
    ((∃ id t', e.resolveConcrete names t = .ok id t') ↔
        ∀ part ∈ e.postorder, part.WellShaped t (Bound names)) ∧
      (∀ cause, (∃ t', e.resolveConcrete names t = .error (.error cause) t') ↔
        FirstFlaw names t e.postorder cause) ∧
      ((¬ ∀ part ∈ e.postorder, part.WellShaped t (Bound names)) →
        ∃ cause t', e.resolveConcrete names t = .error (.error cause) t') := by
  have hground : Grounded names t := ⟨hnames, form?_eq_some_lt ht.canonical.noValue, hslices⟩
  have hok : (∃ id t', e.resolveConcrete names t = .ok id t') ↔
      ∀ part ∈ e.postorder, part.WellShaped t (Bound names) := by
    simp only [exists_resolveConcrete_iff hground, Resolvable, mem_postorder_iff]
  have hfails : (¬ ∀ part ∈ e.postorder, part.WellShaped t (Bound names)) →
      ∃ cause t', e.resolveConcrete names t = .error (.error cause) t' := fun hflawed =>
    (resolveConcrete_safe e hground).ends.resolve_left fun h => hflawed (hok.mp h)
  refine ⟨hok, fun cause => ⟨?_, fun hfirst => ?_⟩, hfails⟩
  · rintro ⟨t', herror⟩
    exact resolveConcrete_stops e cause t' herror
  · obtain ⟨cause', t', herror⟩ := hfails hfirst.not_forall
    obtain rfl := hfirst.unique (resolveConcrete_stops e cause' t' herror)
    exact ⟨t', herror⟩

/-- Numbers and a struct of one number. -/
def sampleTable : TypeTable :=
  [.primitive "f64", .reserve "Sample", .fill ⟨3⟩ [("value", ⟨2⟩)]].foldl Op.apply
    (new Generics.standard)

/-- The struct is bound to its name. -/
def sampleNames : Names := ⟨[("Sample", ⟨3⟩)]⟩

/-- Functions whose second parameter has a field name twice and a reserved one, whose third applies
an unknown generic to an unknown type, and whose result is left open. -/
def crowdedFlaws : TypeExpr :=
  .function
    [.slice (.named "Sample"),
      .record [("x", .named "f64"), ("x", .pointer (.named "Sample")), ("func", .named "f64")],
      .generic "tree" [.named "Missing"]]
    (some .auto)

/-- Of the five flaws the second use of a field name comes first. -/
theorem resolveConcrete_ends_at_first_flaw_crowded :
    sampleTable.Reachable ∧ sampleTable.generics.get? Form.sliceName = some 1 ∧
      (∀ name id, sampleNames.get? name = some id → id.index < sampleTable.size) ∧
      FirstFlaw sampleNames sampleTable crowdedFlaws.postorder
        (.table (.duplicateField "anonymous struct" "x")) ∧
      ∃ t', crowdedFlaws.resolveConcrete sampleNames sampleTable =
        .error (.error (.table (.duplicateField "anonymous struct" "x"))) t' := by
  have hreachable : sampleTable.Reachable := (Reachable.new _).foldl _
  have hnames : ∀ name id, sampleNames.get? name = some id → id.index < sampleTable.size := by
    intro name id hid
    obtain rfl | hne := eq_or_ne name "Sample"
    · cases hid
      decide
    · simp [sampleNames, NameMap.get?, List.lookup_cons, beq_false_of_ne hne] at hid
  have hsample : (named "Sample").WellShaped sampleTable (Bound sampleNames) := .inl rfl
  have hnumber : (named "f64").WellShaped sampleTable (Bound sampleNames) := .inr rfl
  have hflaw : FieldFlaw "anonymous struct" (["x"] ++ "x" :: ["func"])
      (.duplicateField "anonymous struct" "x") :=
    .duplicate ⟨by decide, by decide⟩ (List.mem_singleton.mpr rfl)
  have hfirst : FirstFlaw sampleNames sampleTable crowdedFlaws.postorder
      (.table (.duplicateField "anonymous struct" "x")) :=
    .later hsample (.later trivial (.later hnumber (.later hsample (.later trivial
      (.later hnumber (.here (.fields hflaw)))))))
  exact ⟨hreachable, rfl, hnames, hfirst,
    ((resolveConcrete_ends_at_first_flaw hreachable rfl hnames crowdedFlaws).2.1 _).mpr hfirst⟩

end TypeExpr

end RuleTypes
