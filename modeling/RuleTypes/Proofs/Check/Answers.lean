import RuleTypes.Check.Body
import RuleTypes.Proofs.Check.Later

/-!
# What a rule has seen when it answers

For each rule of the checker, what its answer means: the answers of the parts, in the order they
were asked for, and what was found in the table. The inference of the parts is a parameter, as it
is in the rules.
-/

namespace RuleTypes

/-! ## Reading the table -/

namespace TypeTable

variable {t t' : TypeTable} {id type : TypeId} {field : String}

/-- A struct has a field of a type. -/
def HasField (t : TypeTable) (id : TypeId) (field : String) (type : TypeId) : Prop :=
  ∃ form fields, t.form? id = some form ∧ form.fields? = some fields ∧
    fields.lookup field = some type

/-- A field can be read from a struct, or through one pointer to a struct. -/
def Offers (t : TypeTable) (id : TypeId) (field : String) (type : TypeId) : Prop :=
  t.HasField id field type ∨
    ∃ target, t.form? id = some (.pointer target) ∧ t.HasField target field type

theorem HasField.extends (h : t.HasField id field type) (hext : t.Extends t') :
    t'.HasField id field type := by
  obtain ⟨form, fields, hform, hfields, hlookup⟩ := h
  exact ⟨form, fields, hext.form? hform, hfields, hlookup⟩

theorem Offers.extends (h : t.Offers id field type) (hext : t.Extends t') :
    t'.Offers id field type := by
  obtain h | ⟨target, hform, h⟩ := h
  · exact .inl (h.extends hext)
  · exact .inr ⟨target, hext.form? hform, h.extends hext⟩

theorem offers_of_structOf {owner : TypeId} {fields : List (String × TypeId)}
    (h : t.structOf id = .ok (some (owner, fields))) (hfield : fields.lookup field = some type) :
    t.Offers id field type := by
  unfold structOf TypeTable.form at h
  cases hform : t.form? id with
  | none => simp [hform, bind, Except.bind] at h
  | some form =>
    cases form with
    | pointer target =>
      cases htarget : t.form? target with
      | none => simp [hform, htarget, bind, Except.bind] at h
      | some form =>
        simp only [hform, htarget, bind, Except.bind, pure, Except.pure, Except.ok.injEq,
          Option.map_eq_some_iff, Prod.mk.injEq] at h
        obtain ⟨_, hfields, rfl, rfl⟩ := h
        exact .inr ⟨_, hform, form, _, htarget, hfields, hfield⟩
    | _ =>
      simp only [hform, bind, Except.bind, pure, Except.pure, Except.ok.injEq,
        Option.map_eq_some_iff, Prod.mk.injEq] at h
      obtain ⟨_, hfields, rfl, rfl⟩ := h
      exact .inl ⟨_, _, hform, hfields, hfield⟩

/-- A signature takes exactly the given arguments. -/
def Takes (t : TypeTable) (signature : TypeId) (args : List TypeId) : Prop :=
  ∃ result, t.form? signature = some (.function args result)

theorem issued_of_matching {args candidates found : List TypeId}
    (h : t.matching args candidates = .ok found) : ∀ id ∈ candidates, id.index < t.size := by
  induction candidates generalizing found with
  | nil => simp
  | cons candidate candidates ih =>
    unfold matching at h
    cases hform : t.form candidate with
    | error cause => simp [hform, bind, Except.bind] at h
    | ok form =>
      cases hrest : t.matching args candidates with
      | error cause => simp [hform, hrest, bind, Except.bind] at h
      | ok rest =>
        rintro id (_ | ⟨_, hid⟩)
        · exact form?_eq_some_lt (form_eq_ok.mp hform)
        · exact ih hrest id hid

theorem matching_eq_ok {args candidates found : List TypeId}
    (h : t.matching args candidates = .ok found) (id : TypeId) :
    id ∈ found ↔ id ∈ candidates ∧ t.Takes id args := by
  induction candidates generalizing found with
  | nil =>
    obtain rfl : [] = found := by simpa [matching] using h
    simp
  | cons candidate candidates ih =>
    unfold matching TypeTable.form at h
    cases hform : t.form? candidate with
    | none => simp [hform, bind, Except.bind] at h
    | some form =>
      cases hrest : t.matching args candidates with
      | error cause => simp [hform, hrest, bind, Except.bind] at h
      | ok rest =>
        simp only [hform, hrest, bind, Except.bind, pure, Except.pure, Except.ok.injEq] at h
        have htakes : t.Takes candidate args ↔ form.signature?.map (·.1) = some args := by
          unfold Takes
          cases form <;> simp [hform, Form.signature?]
        rw [List.mem_cons, or_and_right, ← ih hrest, ← h]
        by_cases hc : form.signature?.map (·.1) = some args
        · have hiff : id = candidate ∧ t.Takes id args ↔ id = candidate :=
            and_iff_left_of_imp fun he => he ▸ htakes.mpr hc
          rw [if_pos hc, List.mem_cons, hiff]
        · have hiff : ¬ (id = candidate ∧ t.Takes id args) := by
            rintro ⟨rfl, ht⟩
            exact hc (htakes.mp ht)
          rw [if_neg hc]
          simp [hiff]

/-- The selected signature is the only candidate that takes the arguments. -/
structure Selects (t : TypeTable) (candidates args : List TypeId) (signature : TypeId) :
    Prop where
  issued : ∀ id ∈ candidates, id.index < t.size
  only : ∀ id, id ∈ candidates ∧ t.Takes id args ↔ id = signature

theorem Selects.extends {candidates args : List TypeId} {signature : TypeId}
    (h : t.Selects candidates args signature)
    (hext : t.Extends t') : t'.Selects candidates args signature where
  issued id hid := Nat.lt_of_lt_of_le (h.issued id hid) hext.size_le
  only id := by
    rw [← h.only id]
    refine and_congr_right fun hid => ?_
    rw [Takes, Takes, hext.form?_eq (h.issued id hid)]

theorem selects_of_selectExact {symbol : String} {candidates args : List TypeId}
    (h : t.selectExact symbol candidates args = .ok id) : t.Selects candidates args id := by
  unfold selectExact at h
  split at h
  · cases h
  · rename_i found hfound
    cases h
    exact ⟨issued_of_matching hfound,
      fun other => by simpa using (matching_eq_ok hfound other).symm⟩
  · split at h
    · cases h
    · split at h <;> cases h

end TypeTable

namespace Check

variable {cx : Setting} {infer : Infer} {s s' : State} {span : Span} {type : TypeId}

/-! ## Places -/

theorem inferAll_cons_eq_ok {id : NodeId} {ids : List NodeId} {types : List TypeId} :
    inferAll infer (id :: ids) s = .ok types s' ↔ ∃ type s₁ rest, infer id s = .ok type s₁ ∧
      inferAll infer ids s₁ = .ok rest s' ∧ types = type :: rest := by
  simp only [inferAll, bind_eq_ok, pure_eq_ok]
  constructor
  · rintro ⟨type, s₁, h, rest, _, h', rfl, rfl⟩
    exact ⟨type, s₁, rest, h, h', rfl⟩
  · rintro ⟨type, s₁, rest, h, h', rfl⟩
    exact ⟨type, s₁, h, rest, s', h', rfl, rfl⟩

theorem inferIdentifier_eq_ok {name : String} (h : inferIdentifier name span s = .ok type s') :
    (∃ binding, s.scope.lookup name = some binding ∧ binding.type = type) ∧ s = s' := by
  obtain ⟨binding, s₁, hread, h⟩ := bind_eq_ok.mp h
  obtain ⟨hlookup, rfl⟩ := lookup_eq_ok.mp hread
  cases binding with
  | none => exact (report_eq_ok.mp h).elim
  | some binding =>
    obtain ⟨rfl, rfl⟩ := pure_eq_ok.mp h
    exact ⟨⟨binding, hlookup, rfl⟩, rfl⟩

theorem inferMember_eq_ok {base : NodeId} {field : String}
    (h : inferMember infer base field span s = .ok type s') :
    ∃ baseType, infer base s = .ok baseType s' ∧ s'.table.Offers baseType field type := by
  obtain ⟨baseType, s₁, hbase, h⟩ := bind_eq_ok.mp h
  obtain ⟨owner, s₂, hread, h⟩ := bind_eq_ok.mp h
  obtain ⟨howner, rfl⟩ := inspect_eq_ok.mp hread
  rcases owner with _ | ⟨owner, fields⟩
  · simp only [bind_eq_ok, report_eq_ok, and_false, exists_false] at h
  · cases hfield : fields.lookup field with
    | none => simp only [hfield, bind_eq_ok, report_eq_ok, and_false, exists_false] at h
    | some found =>
      simp only [hfield, pure_eq_ok] at h
      obtain ⟨rfl, rfl⟩ := h
      exact ⟨baseType, hbase, TypeTable.offers_of_structOf howner hfield⟩

theorem inferIndex_eq_ok {base position : NodeId}
    (h : inferIndex cx infer base position s = .ok type s') :
    ∃ baseType form s₁, infer base s = .ok baseType s₁ ∧ s₁.table.form? baseType = some form ∧
      form.element? = some type ∧ infer position s₁ = .ok cx.builtin.number s' := by
  obtain ⟨baseType, s₁, hbase, h⟩ := bind_eq_ok.mp h
  obtain ⟨form, s₂, hread, h⟩ := bind_eq_ok.mp h
  obtain ⟨hform, rfl⟩ := formOf_eq_ok.mp hread
  refine ⟨baseType, form, s₁, hbase, hform, ?_⟩
  cases helement : form.element? with
  | none => simp only [helement, bind_eq_ok, report_eq_ok, and_false, exists_false] at h
  | some element =>
    simp only [helement, bind_eq_ok, nodeOf_eq_ok, require_eq_ok, pure_eq_ok,
      decide_eq_true_iff] at h
    obtain ⟨found, s₂, hfound, node, _, ⟨-, rfl⟩, _, _, ⟨rfl, rfl⟩, rfl, rfl⟩ := h
    exact ⟨rfl, hfound⟩

theorem isAssignable_moves {R : State → State → Prop} [IsPreorder State R] (target : NodeKind) :
    Moves R (isAssignable target) := by
  unfold isAssignable
  split
  · refine .bind (lookup_moves _) fun binding => ?_
    cases binding <;> exact .pure _
  · exact .pure _

theorem inferAssign_eq_ok {target value : NodeId}
    (h : inferAssign cx infer target value span s = .ok type s') :
    ∃ sideType s₁, infer target s = .ok sideType s₁ ∧ infer value s₁ = .ok sideType s' ∧
      sideType ≠ .noValue ∧ type = .noValue := by
  simp only [inferAssign, bind_eq_ok, nodeOf_eq_ok, require_eq_ok, pure_eq_ok,
    decide_eq_true_iff] at h
  obtain ⟨node, _, ⟨-, rfl⟩, assignable, s₁, hassignable, _, _, ⟨-, rfl⟩, targetType, s₂, htarget,
    valueType, s₃, hvalue, _, _, ⟨⟨hne, rfl⟩, rfl⟩, rfl, rfl⟩ := h
  obtain rfl : s = s₁ := (isAssignable_moves (R := Eq) node.kind).ok hassignable
  exact ⟨targetType, s₂, htarget, hvalue, hne, rfl⟩

/-! ## Calls and operators -/

/-- The signatures that a symbol stands for, built in or the program's own. -/
def overloads (cx : Setting) (s : State) (symbol : String) : List TypeId :=
  cx.builtin.candidates symbol ++ (s.operators.get? symbol).getD []

theorem selectOperator_eq_ok {symbol : String} {args : List TypeId} {signature : TypeId}
    (h : selectOperator cx symbol args span s = .ok signature s') :
    s.table.Selects (overloads cx s symbol) args signature ∧ s = s' := by
  obtain ⟨_, _, hget, h⟩ := bind_eq_ok.mp h
  obtain ⟨rfl, rfl⟩ := get_eq_ok.mp hget
  obtain ⟨hselect, rfl⟩ := select_eq_ok.mp h
  exact ⟨TypeTable.selects_of_selectExact hselect, rfl⟩

theorem selectMember_eq_ok {base : NodeId} {name : String} {args : List TypeId}
    {signature : TypeId} (h : selectMember infer base name args span s = .ok signature s') :
    ∃ receiver, infer base s = .ok receiver s' ∧
      s'.table.Selects ((s'.members.get? name).getD []) (receiver :: args) signature := by
  obtain ⟨receiver, s₁, hbase, h⟩ := bind_eq_ok.mp h
  obtain ⟨owner, s₂, hread, h⟩ := bind_eq_ok.mp h
  obtain ⟨-, rfl⟩ := inspect_eq_ok.mp hread
  refine ⟨receiver, ?_⟩
  rcases owner with _ | ⟨owner, fields⟩
  all_goals
    simp only [bind_eq_ok, require_eq_ok, get_eq_ok, select_eq_ok] at h
  · obtain ⟨_, _, ⟨rfl, rfl⟩, hselect, rfl⟩ := h
    exact ⟨hbase, TypeTable.selects_of_selectExact hselect⟩
  · obtain ⟨_, _, ⟨-, rfl⟩, _, _, ⟨rfl, rfl⟩, hselect, rfl⟩ := h
    exact ⟨hbase, TypeTable.selects_of_selectExact hselect⟩

theorem argumentFlaw?_eq_none {i : Nat} {params args : List TypeId}
    (hlen : params.length = args.length) (h : argumentFlaw? i params args = none) :
    params = args := by
  induction params generalizing i args with
  | nil => exact (List.length_eq_zero_iff.mp hlen.symm).symm
  | cons param params ih =>
    cases args with
    | nil => cases hlen
    | cons arg args =>
      unfold argumentFlaw? at h
      split at h
      · rename_i heq
        rw [heq, ih (Nat.succ.inj hlen) h]
      · cases h

theorem applyValue_eq_ok {calleeType : TypeId} {callee : NodeId} {args : List NodeId}
    {argTypes : List TypeId} (h : applyValue cx calleeType callee args argTypes s = .ok type s') :
    s.table.form? calleeType = some (.function argTypes type) ∧ s = s' := by
  obtain ⟨node, _, hnode, h⟩ := bind_eq_ok.mp h
  obtain ⟨-, rfl⟩ := nodeOf_eq_ok.mp hnode
  obtain ⟨form, _, hread, h⟩ := bind_eq_ok.mp h
  obtain ⟨hform, rfl⟩ := formOf_eq_ok.mp hread
  cases form with
  | function params result =>
    obtain ⟨_, _, hrequire, h⟩ := bind_eq_ok.mp h
    obtain ⟨hlen, rfl⟩ := require_eq_ok.mp hrequire
    cases hflaw : argumentFlaw? 0 params argTypes with
    | none =>
      simp only [hflaw, pure_eq_ok] at h
      obtain ⟨rfl, rfl⟩ := h
      obtain rfl := argumentFlaw?_eq_none (of_decide_eq_true hlen) hflaw
      exact ⟨hform, rfl⟩
    | some flaw =>
      obtain ⟨i, expected, found⟩ := flaw
      simp only [hflaw] at h
      obtain ⟨_, _, -, h⟩ := bind_eq_ok.mp h
      obtain ⟨_, _, -, h⟩ := bind_eq_ok.mp h
      cases harg : args[i]? <;>
        simp only [harg, bind_eq_ok, report_eq_ok, throw_eq_ok, and_false, exists_false] at h
  | _ => simp only [Form.signature?, bind_eq_ok, report_eq_ok, and_false, exists_false] at h

theorem isOperator_moves {R : State → State → Prop} [IsPreorder State R] (symbol : String) :
    Moves R (isOperator cx symbol) := .bind .get fun _ => .pure _

theorem calleeOf_eq_operator {kind : NodeKind} {symbol : String}
    (h : calleeOf cx kind s = .ok (.operator symbol) s') :
    kind = .identifier symbol ∧ s.scope.lookup symbol = none ∧ s = s' := by
  cases kind with
  | identifier name =>
    obtain ⟨binding, _, hread, h⟩ := bind_eq_ok.mp h
    obtain ⟨hlookup, rfl⟩ := lookup_eq_ok.mp hread
    obtain ⟨known, _, hknown, h⟩ := bind_eq_ok.mp h
    obtain rfl := (isOperator_moves (R := Eq) _).ok hknown
    split at h
    · rename_i hunbound
      obtain ⟨heq, rfl⟩ := pure_eq_ok.mp h
      cases heq
      rw [Bool.and_eq_true, Option.isNone_iff_eq_none] at hunbound
      exact ⟨rfl, hlookup.trans hunbound.1, rfl⟩
    · cases (pure_eq_ok.mp h).1
  | member base field =>
    obtain ⟨_, _, hget, h⟩ := bind_eq_ok.mp h
    split at h <;> cases (pure_eq_ok.mp h).1
  | _ => cases (pure_eq_ok.mp h).1

theorem calleeOf_eq_member {kind : NodeKind} {base : NodeId} {name : String}
    (h : calleeOf cx kind s = .ok (.member base name) s') :
    kind = .member base name ∧ s.members.contains name = true ∧ s = s' := by
  cases kind with
  | identifier name =>
    obtain ⟨binding, _, hread, h⟩ := bind_eq_ok.mp h
    obtain ⟨known, _, hknown, h⟩ := bind_eq_ok.mp h
    split at h <;> cases (pure_eq_ok.mp h).1
  | member base field =>
    obtain ⟨_, _, hget, h⟩ := bind_eq_ok.mp h
    obtain ⟨rfl, rfl⟩ := get_eq_ok.mp hget
    split at h
    · rename_i hcontains
      obtain ⟨heq, rfl⟩ := pure_eq_ok.mp h
      cases heq
      exact ⟨rfl, hcontains, rfl⟩
    · cases (pure_eq_ok.mp h).1
  | _ => cases (pure_eq_ok.mp h).1

theorem calleeOf_eq_value {kind : NodeKind} (h : calleeOf cx kind s = .ok .value s') :
    (∀ base name, kind = .member base name → s.members.contains name = false) ∧ s = s' := by
  cases kind with
  | identifier name =>
    obtain ⟨binding, _, hread, h⟩ := bind_eq_ok.mp h
    obtain ⟨-, rfl⟩ := lookup_eq_ok.mp hread
    obtain ⟨known, _, hknown, h⟩ := bind_eq_ok.mp h
    obtain rfl := (isOperator_moves (R := Eq) _).ok hknown
    split at h
    · cases (pure_eq_ok.mp h).1
    · exact ⟨fun _ _ hkind => (nomatch hkind), (pure_eq_ok.mp h).2⟩
  | member base field =>
    obtain ⟨_, _, hget, h⟩ := bind_eq_ok.mp h
    obtain ⟨rfl, rfl⟩ := get_eq_ok.mp hget
    split at h
    · cases (pure_eq_ok.mp h).1
    · rename_i hcontains
      refine ⟨fun _ _ hkind => ?_, (pure_eq_ok.mp h).2⟩
      cases hkind
      simpa using hcontains
  | _ => exact ⟨fun _ _ hkind => (nomatch hkind), (pure_eq_ok.mp h).2⟩

/-- A call went one of three ways: to an operator, to a member function, or to a value. -/
theorem inferCall_eq_ok {callee : NodeId} {args : List NodeId}
    (h : inferCall cx infer callee args s = .ok type s') :
    ∃ argTypes s₁ node, inferAll infer args s = .ok argTypes s₁ ∧
      cx.arena.node? callee = some node ∧
      ((∃ symbol signature annotations, node.kind = .identifier symbol ∧
          s₁.scope.lookup symbol = none ∧
          s₁.table.Selects (overloads cx s₁ symbol) argTypes signature ∧
          s₁.annotations.set callee signature = .ok annotations ∧
          s' = { s₁ with annotations } ∧
          s₁.table.form? signature = some (.function argTypes type)) ∨
        (∃ base name receiver s₂ signature annotations, node.kind = .member base name ∧
          s₁.members.contains name = true ∧ infer base s₁ = .ok receiver s₂ ∧
          s₂.table.Selects ((s₂.members.get? name).getD []) (receiver :: argTypes) signature ∧
          s₂.annotations.set callee signature = .ok annotations ∧
          s' = { s₂ with annotations } ∧
          s₂.table.form? signature = some (.function (receiver :: argTypes) type)) ∨
        ∃ calleeType, (∀ base name, node.kind = .member base name →
            s₁.members.contains name = false) ∧
          infer callee s₁ = .ok calleeType s' ∧
          s'.table.form? calleeType = some (.function argTypes type)) := by
  obtain ⟨argTypes, s₁, hargs, h⟩ := bind_eq_ok.mp h
  obtain ⟨node, _, hread, h⟩ := bind_eq_ok.mp h
  obtain ⟨hnode, rfl⟩ := nodeOf_eq_ok.mp hread
  obtain ⟨way, _, hway, h⟩ := bind_eq_ok.mp h
  refine ⟨argTypes, s₁, node, hargs, hnode, ?_⟩
  cases way with
  | operator symbol =>
    obtain ⟨hkind, hlookup, rfl⟩ := calleeOf_eq_operator hway
    obtain ⟨signature, _, hselect, h⟩ := bind_eq_ok.mp h
    obtain ⟨hselects, rfl⟩ := selectOperator_eq_ok hselect
    obtain ⟨_, _, hannotate, h⟩ := bind_eq_ok.mp h
    obtain ⟨annotations, hset, rfl⟩ := annotate_eq_ok.mp hannotate
    obtain ⟨⟨params, hform⟩, rfl⟩ := resultOf_eq_ok.mp h
    obtain ⟨result, htakes⟩ := ((hselects.only signature).mpr rfl).2
    cases (hform.symm.trans htakes)
    exact .inl ⟨symbol, signature, annotations, hkind, hlookup, hselects, hset, rfl, hform⟩
  | member base name =>
    obtain ⟨hkind, hcontains, rfl⟩ := calleeOf_eq_member hway
    obtain ⟨signature, s₂, hselect, h⟩ := bind_eq_ok.mp h
    obtain ⟨receiver, hbase, hselects⟩ := selectMember_eq_ok hselect
    obtain ⟨_, _, hannotate, h⟩ := bind_eq_ok.mp h
    obtain ⟨annotations, hset, rfl⟩ := annotate_eq_ok.mp hannotate
    obtain ⟨⟨params, hform⟩, rfl⟩ := resultOf_eq_ok.mp h
    obtain ⟨result, htakes⟩ := ((hselects.only signature).mpr rfl).2
    cases (hform.symm.trans htakes)
    exact .inr (.inl ⟨base, name, receiver, s₂, signature, annotations, hkind, hcontains, hbase,
      hselects, hset, rfl, hform⟩)
  | value =>
    obtain ⟨hkind, rfl⟩ := calleeOf_eq_value hway
    obtain ⟨calleeType, s₂, hcallee, h⟩ := bind_eq_ok.mp h
    obtain ⟨hform, rfl⟩ := applyValue_eq_ok h
    exact .inr (.inr ⟨calleeType, hkind, hcallee, hform⟩)

/-- The result of the one overload of a symbol that takes the arguments. -/
def Applies (cx : Setting) (s : State) (symbol : String) (args : List TypeId) (type : TypeId) :
    Prop :=
  ∃ signature, s.table.Selects (overloads cx s symbol) args signature ∧
    s.table.form? signature = some (.function args type)

theorem applies_of_select {symbol : String} {args : List TypeId}
    (h : (do let signature ← selectOperator cx symbol args span; resultOf signature) s =
      .ok type s') : Applies cx s symbol args type ∧ s = s' := by
  obtain ⟨signature, _, hselect, h⟩ := bind_eq_ok.mp h
  obtain ⟨hselects, rfl⟩ := selectOperator_eq_ok hselect
  obtain ⟨⟨params, hform⟩, rfl⟩ := resultOf_eq_ok.mp h
  obtain ⟨result, htakes⟩ := ((hselects.only signature).mpr rfl).2
  cases (hform.symm.trans htakes)
  exact ⟨⟨signature, hselects, hform⟩, rfl⟩

theorem inferBinary_eq_ok {symbol : String} {left right : NodeId}
    (h : inferBinary cx infer symbol left right span s = .ok type s') :
    ∃ leftType rightType s₁, infer left s = .ok leftType s₁ ∧ infer right s₁ = .ok rightType s' ∧
      Applies cx s' symbol [leftType, rightType] type := by
  obtain ⟨leftType, s₁, hleft, h⟩ := bind_eq_ok.mp h
  obtain ⟨rightType, s₂, hright, h⟩ := bind_eq_ok.mp h
  obtain ⟨happlies, rfl⟩ := applies_of_select h
  exact ⟨leftType, rightType, s₁, hleft, hright, happlies⟩

theorem inferUnary_eq_ok {symbol : String} {operand : NodeId}
    (h : inferUnary cx infer symbol operand span s = .ok type s') :
    ∃ operandType s₁, infer operand s = .ok operandType s₁ ∧
      (symbol = "&" ∧ operandType ≠ .noValue ∧
          (∃ table, (TypeTable.internPointer operandType : TableM TableError TypeId) s₁.table =
            .ok type table ∧ s' = { s₁ with table }) ∨
        symbol = "*" ∧ s₁.table.form? operandType = some (.pointer type) ∧ s' = s₁ ∨
        symbol ≠ "&" ∧ symbol ≠ "*" ∧ Applies cx s₁ symbol [operandType] type ∧ s' = s₁) := by
  obtain ⟨operandType, s₁, hoperand, h⟩ := bind_eq_ok.mp h
  refine ⟨operandType, s₁, hoperand, ?_⟩
  by_cases haddress : symbol = "&"
  · rw [if_pos haddress] at h
    obtain ⟨_, _, hrequire, h⟩ := bind_eq_ok.mp h
    obtain ⟨hne, rfl⟩ := require_eq_ok.mp hrequire
    exact .inl ⟨haddress, of_decide_eq_true hne, onTable_eq_ok.mp h⟩
  · rw [if_neg haddress] at h
    by_cases hderef : symbol = "*"
    · rw [if_pos hderef] at h
      obtain ⟨form, _, hread, h⟩ := bind_eq_ok.mp h
      obtain ⟨hform, rfl⟩ := formOf_eq_ok.mp hread
      cases form with
      | pointer base =>
        obtain ⟨rfl, rfl⟩ := pure_eq_ok.mp h
        exact .inr (.inl ⟨hderef, hform, rfl⟩)
      | _ => simp only [Form.base?, bind_eq_ok, report_eq_ok, and_false, exists_false] at h
    · rw [if_neg hderef] at h
      obtain ⟨happlies, rfl⟩ := applies_of_select h
      exact .inr (.inr ⟨haddress, hderef, happlies, rfl⟩)

/-! ## Structs and slices written out -/

/-- The names of the fields of a record written out; unnamed members are named by position. -/
def memberNames (position : Nat) : Members → List String
  | [] => []
  | (name, _) :: members =>
    name.getD ("_" ++ toString position) :: memberNames (position + 1) members

theorem recordFields_eq_ok {position : Nat} {members : Members} {types : List TypeId}
    {fields : List (String × TypeId)}
    (h : recordFields cx position members types s = .ok fields s') :
    fields = (memberNames position members).zip types ∧ s = s' := by
  induction members generalizing position types fields with
  | nil =>
    obtain ⟨rfl, rfl⟩ := pure_eq_ok.mp h
    exact ⟨rfl, rfl⟩
  | cons member members ih =>
    obtain ⟨name, value⟩ := member
    cases types with
    | nil =>
      obtain ⟨rfl, rfl⟩ := pure_eq_ok.mp h
      exact ⟨rfl, rfl⟩
    | cons type types =>
      simp only [recordFields] at h
      split at h
      · simp only [bind_eq_ok, report_eq_ok, and_false, exists_false] at h
      · obtain ⟨rest, _, hrest, h⟩ := bind_eq_ok.mp h
        obtain ⟨rfl, rfl⟩ := pure_eq_ok.mp h
        obtain ⟨rfl, rfl⟩ := ih hrest
        exact ⟨rfl, rfl⟩

/-- The members of a struct literal fit the fields: each has the type of the field it stands for. -/
def FitFields (fields : List (String × TypeId)) (position : Nat)
    (members : List (Option String × TypeId)) : Prop :=
  ∀ i name type, members[i]? = some (name, type) →
    ∃ k field, fieldIndex? fields (position + i) name = some k ∧ fields[k]? = some (field, type)

theorem fitFields_of_structFlaw? {fields : List (String × TypeId)} {position : Nat}
    {given : List Nat} {members : List (Option String × TypeId)}
    (h : structFlaw? fields position given members = none) : FitFields fields position members := by
  induction members generalizing position given with
  | nil => exact fun i name type hi => by simp at hi
  | cons member members ih =>
    obtain ⟨name, found⟩ := member
    unfold structFlaw? at h
    cases hindex : fieldIndex? fields position name with
    | none => cases name <;> simp [hindex] at h
    | some k =>
      cases hfield : fields[k]? with
      | none => simp [hindex, hfield] at h
      | some field =>
        obtain ⟨field, expected⟩ := field
        simp only [hindex, hfield] at h
        split at h
        · cases h
        · split at h
          · cases h
          · rename_i hgiven hsame
            rintro (_ | i) name' type hi
            · cases hi
              exact ⟨k, field, hindex, by simpa [not_not.mp hsame] using hfield⟩
            · have := ih h i name' type hi
              rwa [Nat.add_right_comm] at this

theorem sliceFlaw?_eq_none {element : TypeId} {position : Nat}
    {members : List (Option String × TypeId)} (h : sliceFlaw? element position members = none) :
    ∀ member ∈ members, member = (none, element) := by
  induction members generalizing position with
  | nil => simp
  | cons member members ih =>
    obtain ⟨_ | name, found⟩ := member
    · unfold sliceFlaw? at h
      split at h
      · cases h
      · rename_i hsame
        rintro member (_ | ⟨_, hmember⟩)
        · rw [not_not.mp hsame]
        · exact ih h member hmember
    · cases h

/-- What a literal of a given type has to consist of. -/
def FitType (t : TypeTable) (owner : TypeId) (members : List (Option String × TypeId)) : Prop :=
  ∃ form, t.form? owner = some form ∧
    ((∃ fields, form.fields? = some fields ∧ FitFields fields 0 members) ∨
      ∃ element, form.element? = some element ∧ ∀ member ∈ members, member = (none, element))

theorem FitType.extends {t t' : TypeTable} {members : List (Option String × TypeId)}
    (h : FitType t type members) (hext : t.Extends t') : FitType t' type members := by
  obtain ⟨form, hform, h⟩ := h
  exact ⟨form, hext.form? hform, h⟩

theorem reportFlaw_ne_ok {α : Type} {a : α} {owner : TypeId} {fieldCount position : Nat}
    {members : Members} {flaw : MemberFlaw} :
    reportFlaw cx owner fieldCount members position flaw span s ≠ .ok a s' := by
  intro h
  unfold reportFlaw at h
  cases hmember : members[position]? with
  | none => simp only [hmember, throw_eq_ok] at h
  | some member =>
    simp only [hmember] at h
    obtain ⟨_, _, -, h⟩ := bind_eq_ok.mp h
    cases flaw <;> simp only [bind_eq_ok, report_eq_ok, and_false, exists_false] at h

theorem inferTyped_eq_ok {written : TypeExpr} {members : Members} {memberTypes : List TypeId}
    (h : inferTyped cx written members memberTypes span s = .ok type s') :
    ∃ table, written.resolveConcrete s.names s.table = .ok type table ∧ s' = { s with table } ∧
      FitType table type ((members.map (·.1)).zip memberTypes) := by
  obtain ⟨owner, _, hresolve, h⟩ := bind_eq_ok.mp h
  obtain ⟨table, hresolved, rfl⟩ := resolveConcrete_eq_ok.mp hresolve
  obtain ⟨form, _, hread, h⟩ := bind_eq_ok.mp h
  obtain ⟨hform, rfl⟩ := formOf_eq_ok.mp hread
  cases hfields : form.fields? with
  | some fields =>
    simp only [hfields] at h
    cases hflaw : structFlaw? fields 0 [] ((members.map (·.1)).zip memberTypes) with
    | none =>
      simp only [hflaw, pure_eq_ok] at h
      obtain ⟨rfl, rfl⟩ := h
      exact ⟨table, hresolved, rfl, form, hform, .inl ⟨fields, hfields,
        fitFields_of_structFlaw? hflaw⟩⟩
    | some flaw =>
      simp only [hflaw] at h
      exact (reportFlaw_ne_ok h).elim
  | none =>
    cases helement : form.element? with
    | none => simp only [hfields, helement, bind_eq_ok, report_eq_ok, and_false, exists_false] at h
    | some element =>
      simp only [hfields, helement] at h
      cases hflaw : sliceFlaw? element 0 ((members.map (·.1)).zip memberTypes) with
      | none =>
        simp only [hflaw, pure_eq_ok] at h
        obtain ⟨rfl, rfl⟩ := h
        exact ⟨table, hresolved, rfl, form, hform, .inr ⟨element, helement,
          sliceFlaw?_eq_none hflaw⟩⟩
      | some flaw =>
        simp only [hflaw] at h
        exact (reportFlaw_ne_ok h).elim

theorem inferLiteral_eq_ok {written : Option TypeExpr} {members : Members}
    (h : inferLiteral cx infer written members span s = .ok type s') :
    ∃ memberTypes s₁ table, inferAll infer (members.map (·.2)) s = .ok memberTypes s₁ ∧
      s₁.table.Extends table ∧ s' = { s₁ with table } ∧
      match written with
      | some written => written.resolveConcrete s₁.names s₁.table = .ok type table ∧
        FitType table type ((members.map (·.1)).zip memberTypes)
      | none => table.form? type = some (.record ((memberNames 0 members).zip memberTypes)) := by
  obtain ⟨memberTypes, s₁, hmembers, h⟩ := bind_eq_ok.mp h
  refine ⟨memberTypes, s₁, ?_⟩
  cases written with
  | some written =>
    obtain ⟨table, hresolved, rfl, hfit⟩ := inferTyped_eq_ok h
    exact ⟨table, hmembers, (TypeExpr.resolveConcrete_moves _ written).ok hresolved, rfl,
      hresolved, hfit⟩
  | none =>
    obtain ⟨fields, _, hfields, h⟩ := bind_eq_ok.mp h
    obtain ⟨rfl, rfl⟩ := recordFields_eq_ok hfields
    obtain ⟨table, hintern, rfl⟩ := onTable_eq_ok.mp h
    exact ⟨table, hmembers, (TypeTable.internRecord_moves _).ok hintern, rfl,
      TypeTable.form?_of_internRecord hintern⟩

/-! ## Blocks, branches, loops and jumps -/

theorem inferStatements_cons_eq_ok {last : TypeId} {id : NodeId} {ids : List NodeId}
    (h : inferStatements cx infer last (id :: ids) s = .ok type s') :
    ∃ first s₁ node, infer id s = .ok first s₁ ∧ cx.arena.node? id = some node ∧
      inferStatements cx infer (if node.kind.isDefinition || node.kind.isJump then .noValue
        else first) ids s₁ = .ok type s' := by
  obtain ⟨first, s₁, hfirst, h⟩ := bind_eq_ok.mp h
  obtain ⟨node, _, hread, h⟩ := bind_eq_ok.mp h
  obtain ⟨hnode, rfl⟩ := nodeOf_eq_ok.mp hread
  exact ⟨first, s₁, node, hfirst, hnode, h⟩

theorem inferBlock_eq_ok {statements : List NodeId}
    (h : inferBlock cx infer statements s = .ok type s') :
    ∃ opened s₁ closed, s.scope.push .block = .ok opened ∧
      inferStatements cx infer .noValue statements { s with scope := opened } = .ok type s₁ ∧
      s₁.scope.pop = .ok closed ∧ s' = { s₁ with scope := closed } := by
  simp only [inferBlock, bind_eq_ok, openFrame_eq_ok, closeFrame_eq_ok, pure_eq_ok] at h
  obtain ⟨_, _, ⟨opened, hopen, rfl⟩, _, s₁, hstatements, _, _, ⟨closed, hclose, rfl⟩, rfl, rfl⟩ :=
    h
  exact ⟨opened, s₁, closed, hopen, hstatements, hclose, rfl⟩

theorem inferCondition_eq_ok {condition : NodeId} {u : Unit}
    (h : inferCondition cx infer condition s = .ok u s') :
    infer condition s = .ok cx.builtin.truth s' := by
  simp only [inferCondition, bind_eq_ok, nodeOf_eq_ok, requireTruth_eq_ok] at h
  obtain ⟨_, s₁, hcondition, node, _, ⟨-, rfl⟩, rfl, rfl⟩ := h
  exact hcondition

theorem inferBranch_eq_ok {condition thenArm : NodeId} {elseArm : Option NodeId}
    (h : inferBranch cx infer condition thenArm elseArm span s = .ok type s') :
    ∃ thenType s₁ s₂, infer condition s = .ok cx.builtin.truth s₁ ∧
      infer thenArm s₁ = .ok thenType s₂ ∧
      (elseArm = none ∧ type = .noValue ∧ s' = s₂ ∨
        ∃ arm, elseArm = some arm ∧ infer arm s₂ = .ok thenType s' ∧ type = thenType) := by
  obtain ⟨_, s₁, hcondition, h⟩ := bind_eq_ok.mp h
  obtain ⟨thenType, s₂, hthen, h⟩ := bind_eq_ok.mp h
  refine ⟨thenType, s₁, s₂, inferCondition_eq_ok hcondition, hthen, ?_⟩
  cases elseArm with
  | none =>
    obtain ⟨rfl, rfl⟩ := pure_eq_ok.mp h
    exact .inl ⟨rfl, rfl, rfl⟩
  | some arm =>
    simp only [bind_eq_ok, require_eq_ok, pure_eq_ok, decide_eq_true_iff] at h
    obtain ⟨_, s₃, helse, _, _, ⟨rfl, rfl⟩, rfl, rfl⟩ := h
    exact .inr ⟨arm, rfl, helse, rfl⟩

theorem inferLoop_eq_ok {start : Option NodeId} {condition body : NodeId}
    (h : inferLoop cx infer start condition body s = .ok type s') :
    ∃ opened s₁ s₂ s₃ closed startType bodyType, s.scope.push .loop = .ok opened ∧
      inferOptional infer start { s with scope := opened } = .ok startType s₁ ∧
      infer condition s₁ = .ok cx.builtin.truth s₂ ∧ infer body s₂ = .ok bodyType s₃ ∧
      s₃.scope.pop = .ok closed ∧ s' = { s₃ with scope := closed } ∧ type = .noValue := by
  simp only [inferLoop, bind_eq_ok, openFrame_eq_ok, closeFrame_eq_ok, pure_eq_ok] at h
  obtain ⟨_, _, ⟨opened, hopen, rfl⟩, startType, s₁, hstart, _, s₂, hcondition, bodyType, s₃, hbody,
    _, _, ⟨closed, hclose, rfl⟩, rfl, rfl⟩ := h
  exact ⟨opened, s₁, s₂, s₃, closed, startType, bodyType, hopen, hstart,
    inferCondition_eq_ok hcondition, hbody, hclose, rfl, rfl⟩

theorem inferJump_eq_ok {kind : Jump} {value : Option NodeId}
    (h : inferJump infer kind value span s = .ok type s') :
    ∃ found, inferOptional infer value s = .ok found s' ∧ type = .noValue ∧
      (kind = .toCaller → s.scope.enclosingResult? = some found) := by
  cases kind with
  | toCaller =>
    obtain ⟨_, _, hget, h⟩ := bind_eq_ok.mp h
    obtain ⟨rfl, rfl⟩ := get_eq_ok.mp hget
    cases hresult : s.scope.enclosingResult? with
    | none => simp only [hresult, report_eq_ok] at h
    | some expected =>
      simp only [hresult, bind_eq_ok, require_eq_ok, pure_eq_ok, decide_eq_true_iff] at h
      obtain ⟨found, s₁, hvalue, _, _, ⟨rfl, rfl⟩, rfl, rfl⟩ := h
      exact ⟨found, hvalue, rfl, fun _ => rfl⟩
  | afterLoop | nextRound =>
    simp only [inferJump, bind_eq_ok, get_eq_ok, require_eq_ok, pure_eq_ok] at h
    obtain ⟨_, _, ⟨rfl, rfl⟩, _, _, ⟨-, rfl⟩, found, s₁, hvalue, rfl, rfl⟩ := h
    exact ⟨found, hvalue, rfl, nofun⟩

theorem inLoop_of_inferJump {kind : Jump} {value : Option NodeId}
    (h : inferJump infer kind value span s = .ok type s') (hkind : kind ≠ .toCaller) :
    s.scope.inLoop = true := by
  cases kind with
  | toCaller => exact absurd rfl hkind
  | afterLoop | nextRound =>
    simp only [inferJump, bind_eq_ok, get_eq_ok, require_eq_ok] at h
    obtain ⟨_, _, ⟨rfl, rfl⟩, _, _, ⟨hinLoop, -⟩, -⟩ := h
    exact hinLoop

/-! ## Variables and nodes -/

/-- A variable that takes the type of its initializer is marked before that is looked at. -/
def markVariable (id : NodeId) (declared : TypeId) : Check Unit :=
  if declared = .auto then annotateProvisional id else pure ()

/-- What becomes of a variable once the type of its initializer is found. -/
def settleVariable (name : String) (declared : TypeId) (span : Span) (found : TypeId) :
    Check TypeId := do
  require (found ≠ .noValue) (pure (.noValue name)) span
  require (declared = .auto ∨ found = declared)
    (do return .declarationMismatch name (← textOf declared) (← textOf found)) span
  bindName name found .var span
  return found

theorem require_bind_congr {α : Type} {holds : Bool} {problem : Check Problem}
    {f g : Unit → Check α} (h : holds = true → f () = g ()) :
    require holds problem span >>= f = require holds problem span >>= g := by
  unfold require
  split
  · exact h ‹_›
  · simp only [bind_assoc]
    exact bind_congr fun _ => rfl

/-- A written type that does not fit is reported, so a variable is bound to what was found. -/
theorem inferVariable_eq (infer : Infer) (id : NodeId) (name : String) (written : TypeExpr)
    (start : NodeId) (span : Span) :
    inferVariable infer id name written start span = (do
      let declared ← resolve written span
      markVariable id declared
      let found ← infer start
      settleVariable name declared span found) := by
  refine bind_congr fun declared => ?_
  by_cases hauto : declared = .auto
  · simp [markVariable, settleVariable, hauto]
  · simp only [markVariable, settleVariable, hauto, if_false, false_or, pure_bind]
    refine bind_congr fun found => bind_congr fun _ => require_bind_congr fun hfits => ?_
    rw [of_decide_eq_true hfits]

theorem inferVariable_eq_ok {id start : NodeId} {name : String} {written : TypeExpr}
    (h : inferVariable infer id name written start span s = .ok type s') :
    ∃ declared table s₁ s₂ scope, written.resolve s.names s.table = .ok declared table ∧
      markVariable id declared { s with table } = .ok () s₁ ∧ infer start s₁ = .ok type s₂ ∧
      type ≠ .noValue ∧ (declared = .auto ∨ type = declared) ∧
      s₂.scope.bind name ⟨type, .var, span⟩ = .ok scope ∧ s' = { s₂ with scope } := by
  simp only [inferVariable_eq, settleVariable, bind_eq_ok, resolve_eq_ok, require_eq_ok,
    bindName_eq_ok, pure_eq_ok, decide_eq_true_iff] at h
  obtain ⟨declared, _, ⟨table, hresolve, rfl⟩, _, s₁, hmark, _, s₂, hstart, _, _, ⟨hne, rfl⟩, _, _,
    ⟨hfits, rfl⟩, _, _, ⟨scope, hbind, rfl⟩, rfl, rfl⟩ := h
  exact ⟨declared, table, s₁, s₂, scope, hresolve, hmark, hstart, hne, hfits, hbind, rfl⟩

theorem inferAt_succ_eq_ok {depth : Nat} {id : NodeId}
    (h : inferAt cx (depth + 1) id s = .ok type s') :
    ∃ node s₁ annotations, cx.arena.node? id = some node ∧
      inferNode cx (inferAt cx depth) id node s = .ok type s₁ ∧
      s₁.annotations.set id type = .ok annotations ∧ s' = { s₁ with annotations } := by
  simp only [inferAt, bind_eq_ok, nodeOf_eq_ok, annotate_eq_ok, pure_eq_ok] at h
  obtain ⟨node, _, ⟨hnode, rfl⟩, _, s₁, hrule, _, _, ⟨annotations, hset, rfl⟩, rfl, rfl⟩ := h
  exact ⟨node, s₁, annotations, hnode, hrule, hset, rfl⟩

/-! ## Bodies of functions -/

theorem checkFunction_eq_ok {id body : NodeId} {name : String} {kind : FunctionKind}
    {params : List (String × TypeExpr)} {f : CheckedFunction}
    (h : checkFunction cx id span name kind params body s = .ok f s') :
    ∃ signature paramTypes result opened s₁ found s₂ closed fingerprint,
      s.annotations.get? id = some signature ∧
      s.table.form? signature = some (.function paramTypes result) ∧
      s.scope.push (.function result) = .ok opened ∧
      bindParams span params paramTypes { s with scope := opened } = .ok () s₁ ∧
      Check.infer cx body s₁ = .ok found s₂ ∧
      (found = result ∨ found = .noValue ∧ cx.arena.returns body = .ok true) ∧
      s₂.scope.pop = .ok closed ∧ s' = { s₂ with scope := closed } ∧
      s'.table.fingerprint signature = .ok fingerprint ∧
      f = ⟨name, kind, signature, name ++ "@" ++ fingerprint.text, id⟩ := by
  obtain ⟨signature, _, hread, h⟩ := bind_eq_ok.mp h
  obtain ⟨hsignature, rfl⟩ := inspect_eq_ok.mp hread
  obtain ⟨form, _, hread, h⟩ := bind_eq_ok.mp h
  obtain ⟨hform, rfl⟩ := formOf_eq_ok.mp hread
  cases form with
  | function paramTypes result =>
    simp only [Form.signature?, bind_eq_ok, openFrame_eq_ok, inspect_eq_ok, nodeOf_eq_ok,
      require_eq_ok, closeFrame_eq_ok, pure_eq_ok, decide_eq_true_iff] at h
    obtain ⟨_, _, ⟨opened, hopen, rfl⟩, _, s₁, hparams, found, s₂, hbody, returns, _,
      ⟨hreturns, rfl⟩, _, _, ⟨-, rfl⟩, _, _, ⟨hfits, rfl⟩, _, _, ⟨closed, hclose, rfl⟩, fingerprint,
      _, ⟨hfingerprint, rfl⟩, rfl, rfl⟩ := h
    refine ⟨signature, paramTypes, result, opened, s₁, found, s₂, closed, fingerprint, ?_, hform,
      hopen, hparams, hbody, hfits.imp_right ?_, hclose, rfl, hfingerprint, rfl⟩
    · cases hget : s.annotations.get? id with
      | none => simp [hget] at hsignature
      | some _ => simpa [hget] using hsignature
    · rintro ⟨hfound, hyes⟩
      rw [if_pos hfound, hyes] at hreturns
      exact ⟨hfound, hreturns⟩
  | _ => simp only [Form.signature?, throw_eq_ok] at h

end Check

end RuleTypes
