import RuleTypes.Proofs.TypeExpr.Tokenized

/-!
# The grammar of the type notation

A type is written by the rules

    type   := '*' type
            | '[' ']' type
            | 'func' '(' params ')' (':' type)?
            | 'struct' '{' fields '}'
            | 'auto'
            | word ('<' types '>')?
    types  := type (',' type)*
    params := types?
    fields := (word type ';'?)*

and a `Derivation` says which rules were used. It derives a sequence of tokens, and writes a type.

Three rules end in something optional, and what may be left out may also be what follows. Nothing
that follows a type in a longer derivation begins an argument list or a result (`Ends`), so a
derivation can be told from its tokens, whatever comes after them (`Derivation.tokens_append_inj`).
-/

namespace RuleTypes.TypeExpr

mutual

/-- Derivations of `type`. -/
inductive Derivation
  | auto
  | word (name : String)
  | applied (name : String) (args : Derivations)
  | pointer (base : Derivation)
  | slice (element : Derivation)
  | func (params : ParamDerivations)
  | funcTo (params : ParamDerivations) (result : Derivation)
  | struct (fields : FieldDerivations)

/-- Derivations of `types`. -/
inductive Derivations
  | one (type : Derivation)
  | cons (type : Derivation) (types : Derivations)

/-- Derivations of `params`. -/
inductive ParamDerivations
  | none
  | some (types : Derivations)

/-- Derivations of `fields`. A field may be followed by a semicolon. -/
inductive FieldDerivations
  | nil
  | cons (name : String) (type : Derivation) (semicolon : Bool) (fields : FieldDerivations)

end

/-- A semicolon that may be left out. -/
def semicolonTokens : Bool → List Token
  | true => [.semicolon]
  | false => []

mutual

/-- The tokens that are derived. -/
def Derivation.tokens : Derivation → List Token
  | .auto => [.auto]
  | .word name => [.word name]
  | .applied name args => .word name :: .openAngle :: (args.tokens ++ [.closeAngle])
  | .pointer base => .star :: base.tokens
  | .slice element => .openBracket :: .closeBracket :: element.tokens
  | .func params => .func :: .openParen :: (params.tokens ++ [.closeParen])
  | .funcTo params result =>
    .func :: .openParen :: (params.tokens ++ .closeParen :: .colon :: result.tokens)
  | .struct fields => .struct :: .openBrace :: (fields.tokens ++ [.closeBrace])

@[inherit_doc Derivation.tokens]
def Derivations.tokens : Derivations → List Token
  | .one type => type.tokens
  | .cons type types => type.tokens ++ .comma :: types.tokens

@[inherit_doc Derivation.tokens]
def ParamDerivations.tokens : ParamDerivations → List Token
  | .none => []
  | .some types => types.tokens

@[inherit_doc Derivation.tokens]
def FieldDerivations.tokens : FieldDerivations → List Token
  | .nil => []
  | .cons name type semicolon fields =>
    .word name :: (type.tokens ++ (semicolonTokens semicolon ++ fields.tokens))

end

mutual

/-- The type that is written. -/
def Derivation.type : Derivation → TypeExpr
  | .auto => .auto
  | .word name => .named name
  | .applied name args => .generic name args.types
  | .pointer base => .pointer base.type
  | .slice element => .slice element.type
  | .func params => .function params.types none
  | .funcTo params result => .function params.types (some result.type)
  | .struct fields => .record fields.types

/-- The types that are written, in order. -/
def Derivations.types : Derivations → List TypeExpr
  | .one type => [type.type]
  | .cons type types => type.type :: types.types

@[inherit_doc Derivations.types]
def ParamDerivations.types : ParamDerivations → List TypeExpr
  | .none => []
  | .some types => types.types

/-- The fields that are written, in order. -/
def FieldDerivations.types : FieldDerivations → List (String × TypeExpr)
  | .nil => []
  | .cons name type _ fields => (name, type.type) :: fields.types

end

theorem Derivations.types_ne_nil (ds : Derivations) : ds.types ≠ [] := by
  cases ds <;> simp [types]

/-! ## What follows a type -/

/-- What follows does not continue a type: no arguments, and no result. -/
structure Ends (rest : List Token) : Prop where
  noArgs : rest.head? ≠ some .openAngle
  noResult : rest.head? ≠ some .colon

/-- The tokens that close a list of types. -/
def Closes (close : Token) : Prop := close = .closeParen ∨ close = .closeAngle

theorem ends_nil : Ends [] := ⟨by simp, by simp⟩

theorem ends_cons {t : Token} (rest : List Token) (hangle : t ≠ .openAngle)
    (hcolon : t ≠ .colon) : Ends (t :: rest) :=
  ⟨fun h => hangle (Option.some.inj h), fun h => hcolon (Option.some.inj h)⟩

theorem Closes.ends {close : Token} (h : Closes close) (rest : List Token) :
    Ends (close :: rest) := by
  obtain rfl | rfl := h <;> exact ends_cons rest (by simp) (by simp)

theorem ends_comma (rest : List Token) : Ends (.comma :: rest) := ends_cons rest (by simp) (by simp)

/-- A type may be followed by the rest of the fields of a struct. -/
theorem FieldDerivations.ends (fields : FieldDerivations) (semicolon : Bool) (rest : List Token) :
    Ends (semicolonTokens semicolon ++ (fields.tokens ++ .closeBrace :: rest)) := by
  cases semicolon with
  | true => exact ends_cons _ (by simp) (by simp)
  | false =>
    cases fields with
    | nil =>
      simp only [semicolonTokens, tokens, List.nil_append]
      exact ends_cons rest (by simp) (by simp)
    | cons name type semicolon fields =>
      simp only [semicolonTokens, tokens, List.nil_append, List.cons_append]
      exact ends_cons _ (by simp) (by simp)

theorem Derivation.tokens_ne_nil (d : Derivation) : d.tokens ≠ [] := by
  cases d <;> simp [tokens]

/-- No type begins with a token that closes a list. -/
theorem Derivation.head?_tokens_ne {close : Token} (h : Closes close) (d : Derivation)
    (ts : List Token) : (d.tokens ++ ts).head? ≠ some close := by
  obtain rfl | rfl := h
  all_goals cases d <;> simp [tokens]

theorem Derivations.head?_tokens_ne {close : Token} (h : Closes close) (ds : Derivations)
    (ts : List Token) : (ds.tokens ++ ts).head? ≠ some close := by
  cases ds with
  | one type =>
    rw [tokens]
    exact type.head?_tokens_ne h ts
  | cons type types =>
    rw [tokens, List.append_assoc]
    exact type.head?_tokens_ne h _

/-! ## Derivations are unique -/

/-- Whether there was a semicolon can be seen, since no field begins with one. -/
theorem FieldDerivations.semicolon_append_inj {semicolon semicolon' : Bool}
    {fs fs' : FieldDerivations} {rest rest' : List Token}
    (h : semicolonTokens semicolon ++ (fs.tokens ++ .closeBrace :: rest) =
      semicolonTokens semicolon' ++ (fs'.tokens ++ .closeBrace :: rest')) :
    semicolon = semicolon' ∧
      fs.tokens ++ .closeBrace :: rest = fs'.tokens ++ .closeBrace :: rest' := by
  cases semicolon with
  | true =>
    cases semicolon' with
    | true => exact ⟨rfl, (List.cons.inj h).2⟩
    | false => cases fs' <;> simp [semicolonTokens, tokens] at h
  | false =>
    cases semicolon' with
    | true => cases fs <;> simp [semicolonTokens, tokens] at h
    | false => exact ⟨rfl, h⟩

mutual

/-- **A derivation can be told from its tokens**, even where more tokens follow. -/
theorem Derivation.tokens_append_inj : ∀ (d d' : Derivation) {rest rest'}, Ends rest → Ends rest' →
    d.tokens ++ rest = d'.tokens ++ rest' → d = d' ∧ rest = rest'
  | .auto, d', rest, rest', hrest, hrest', h => by
    cases d' with
    | auto => exact ⟨rfl, (List.cons.inj h).2⟩
    | _ => simp [Derivation.tokens] at h
  | .word name, d', rest, rest', hrest, hrest', h => by
    cases d' with
    | word name' =>
      simp only [Derivation.tokens, List.cons_append, List.nil_append, List.cons.injEq,
        Token.word.injEq] at h
      exact ⟨congrArg Derivation.word h.1, h.2⟩
    | applied name' args' =>
      simp only [Derivation.tokens, List.cons_append, List.nil_append, List.cons.injEq] at h
      exact absurd (congrArg List.head? h.2) hrest.noArgs
    | _ => simp [Derivation.tokens] at h
  | .applied name args, d', rest, rest', hrest, hrest', h => by
    cases d' with
    | word name' =>
      simp only [Derivation.tokens, List.cons_append, List.nil_append, List.cons.injEq] at h
      exact absurd (congrArg List.head? h.2.symm) hrest'.noArgs
    | applied name' args' =>
      simp only [Derivation.tokens, List.cons_append, List.append_assoc, List.nil_append,
        List.cons.injEq, Token.word.injEq, true_and] at h
      obtain ⟨rfl, h⟩ := h
      obtain ⟨rfl, htail⟩ := args.tokens_append_inj args' (.inr rfl) h
      exact ⟨rfl, htail⟩
    | _ => simp [Derivation.tokens] at h
  | .pointer base, d', rest, rest', hrest, hrest', h => by
    cases d' with
    | pointer base' =>
      obtain ⟨rfl, htail⟩ := base.tokens_append_inj base' hrest hrest' (List.cons.inj h).2
      exact ⟨rfl, htail⟩
    | _ => simp [Derivation.tokens] at h
  | .slice element, d', rest, rest', hrest, hrest', h => by
    cases d' with
    | slice element' =>
      simp only [Derivation.tokens, List.cons_append, List.cons.injEq, true_and] at h
      obtain ⟨rfl, htail⟩ := element.tokens_append_inj element' hrest hrest' h
      exact ⟨rfl, htail⟩
    | _ => simp [Derivation.tokens] at h
  | .func params, d', rest, rest', hrest, hrest', h => by
    cases d' with
    | func params' =>
      simp only [Derivation.tokens, List.cons_append, List.append_assoc, List.nil_append,
        List.cons.injEq, true_and] at h
      obtain ⟨rfl, htail⟩ := params.tokens_append_inj params' h
      exact ⟨rfl, htail⟩
    | funcTo params' result' =>
      simp only [Derivation.tokens, List.cons_append, List.append_assoc, List.nil_append,
        List.cons.injEq, true_and] at h
      obtain ⟨-, htail⟩ := params.tokens_append_inj params' h
      exact absurd (congrArg List.head? htail) hrest.noResult
    | _ => simp [Derivation.tokens] at h
  | .funcTo params result, d', rest, rest', hrest, hrest', h => by
    cases d' with
    | func params' =>
      simp only [Derivation.tokens, List.cons_append, List.append_assoc, List.nil_append,
        List.cons.injEq, true_and] at h
      obtain ⟨-, htail⟩ := params.tokens_append_inj params' h
      exact absurd (congrArg List.head? htail.symm) hrest'.noResult
    | funcTo params' result' =>
      simp only [Derivation.tokens, List.cons_append, List.append_assoc, List.cons.injEq,
        true_and] at h
      obtain ⟨rfl, htail⟩ := params.tokens_append_inj params' h
      obtain ⟨rfl, htail'⟩ := result.tokens_append_inj result' hrest hrest' (List.cons.inj htail).2
      exact ⟨rfl, htail'⟩
    | _ => simp [Derivation.tokens] at h
  | .struct fields, d', rest, rest', hrest, hrest', h => by
    cases d' with
    | struct fields' =>
      simp only [Derivation.tokens, List.cons_append, List.append_assoc, List.nil_append,
        List.cons.injEq, true_and] at h
      obtain ⟨rfl, htail⟩ := fields.tokens_append_inj fields' h
      exact ⟨rfl, htail⟩
    | _ => simp [Derivation.tokens] at h

theorem Derivations.tokens_append_inj : ∀ (ds ds' : Derivations) {close rest rest'}, Closes close →
    ds.tokens ++ close :: rest = ds'.tokens ++ close :: rest' → ds = ds' ∧ rest = rest'
  | .one type, ds', close, rest, rest', hclose, h => by
    cases ds' with
    | one type' =>
      obtain ⟨rfl, htail⟩ := type.tokens_append_inj type' (hclose.ends _) (hclose.ends _) h
      exact ⟨rfl, (List.cons.inj htail).2⟩
    | cons type' types' =>
      rw [Derivations.tokens, Derivations.tokens, List.append_assoc, List.cons_append] at h
      obtain ⟨-, htail⟩ := type.tokens_append_inj type' (hclose.ends _) (ends_comma _) h
      obtain rfl | rfl := hclose <;> cases htail
  | .cons type types, ds', close, rest, rest', hclose, h => by
    cases ds' with
    | one type' =>
      rw [Derivations.tokens, Derivations.tokens, List.append_assoc, List.cons_append] at h
      obtain ⟨-, htail⟩ := type.tokens_append_inj type' (ends_comma _) (hclose.ends _) h
      obtain rfl | rfl := hclose <;> cases htail
    | cons type' types' =>
      simp only [Derivations.tokens, List.append_assoc, List.cons_append] at h
      obtain ⟨rfl, htail⟩ := type.tokens_append_inj type' (ends_comma _) (ends_comma _) h
      obtain ⟨rfl, htail'⟩ := types.tokens_append_inj types' hclose (List.cons.inj htail).2
      exact ⟨rfl, htail'⟩

theorem ParamDerivations.tokens_append_inj : ∀ (ps ps' : ParamDerivations) {rest rest'},
    ps.tokens ++ .closeParen :: rest = ps'.tokens ++ .closeParen :: rest' → ps = ps' ∧ rest = rest'
  | .none, ps', rest, rest', h => by
    cases ps' with
    | none => exact ⟨rfl, (List.cons.inj h).2⟩
    | some types' =>
      exact absurd (congrArg List.head? h.symm) (types'.head?_tokens_ne (.inl rfl) _)
  | .some types, ps', rest, rest', h => by
    cases ps' with
    | none => exact absurd (congrArg List.head? h) (types.head?_tokens_ne (.inl rfl) _)
    | some types' =>
      obtain ⟨rfl, htail⟩ := types.tokens_append_inj types' (.inl rfl) h
      exact ⟨rfl, htail⟩

theorem FieldDerivations.tokens_append_inj : ∀ (fs fs' : FieldDerivations) {rest rest'},
    fs.tokens ++ .closeBrace :: rest = fs'.tokens ++ .closeBrace :: rest' → fs = fs' ∧ rest = rest'
  | .nil, fs', rest, rest', h => by
    cases fs' with
    | nil => exact ⟨rfl, (List.cons.inj h).2⟩
    | cons name' type' semicolon' fields' => simp [FieldDerivations.tokens] at h
  | .cons name type semicolon fields, fs', rest, rest', h => by
    cases fs' with
    | nil => simp [FieldDerivations.tokens] at h
    | cons name' type' semicolon' fields' =>
      simp only [FieldDerivations.tokens, List.cons_append, List.append_assoc, List.cons.injEq,
        Token.word.injEq] at h
      obtain ⟨rfl, h⟩ := h
      obtain ⟨rfl, htail⟩ := type.tokens_append_inj type' (fields.ends semicolon rest)
        (fields'.ends semicolon' rest') h
      obtain ⟨rfl, htail'⟩ := FieldDerivations.semicolon_append_inj htail
      obtain ⟨rfl, htail''⟩ := fields.tokens_append_inj fields' htail'
      exact ⟨rfl, htail''⟩

end

/-- **Each sequence of tokens has at most one derivation.** -/
theorem Derivation.tokens_injective : Function.Injective Derivation.tokens := by
  intro d d' h
  have happend : d.tokens ++ [] = d'.tokens ++ [] := by rw [h]
  exact (d.tokens_append_inj d' ends_nil ends_nil happend).1

/-! ## Canonical types -/

mutual

/-- Canonical types have derivations, with semicolons between the fields. -/
theorem exists_derivation : ∀ e : TypeExpr, e.Canonical →
    ∃ d : Derivation, d.tokens = e.tokens ∧ d.type = e
  | auto, _ => ⟨.auto, rfl, rfl⟩
  | named name, _ => ⟨.word name, rfl, rfl⟩
  | pointer base, he => by
    obtain ⟨d, htokens, rfl⟩ := exists_derivation base he
    exact ⟨.pointer d, by rw [Derivation.tokens, htokens, tokens], rfl⟩
  | slice element, he => by
    obtain ⟨d, htokens, rfl⟩ := exists_derivation element he
    exact ⟨.slice d, by rw [Derivation.tokens, htokens, tokens], rfl⟩
  | generic name args, he => by
    obtain ⟨ds, htokens, rfl⟩ := exists_derivations args he.2.1 he.2.2
    exact ⟨.applied name ds, by rw [Derivation.tokens, htokens, tokens], rfl⟩
  | function params none, he => by
    obtain ⟨ps, htokens, rfl⟩ := exists_paramDerivations params he
    exact ⟨.func ps, by rw [Derivation.tokens, htokens, tokens], rfl⟩
  | function params (some result), he => by
    obtain ⟨ps, hparams, rfl⟩ := exists_paramDerivations params he.1
    obtain ⟨d, hresult, rfl⟩ := exists_derivation result he.2
    exact ⟨.funcTo ps d, by rw [Derivation.tokens, hparams, hresult, tokens], rfl⟩
  | record fields, he => by
    obtain ⟨fs, htokens, rfl⟩ := exists_fieldDerivations fields he
    exact ⟨.struct fs, by rw [Derivation.tokens, htokens, tokens], rfl⟩

theorem exists_derivations : ∀ es : List TypeExpr, es ≠ [] → AllCanonical es →
    ∃ ds : Derivations, ds.tokens = itemTokens es ∧ ds.types = es
  | [], hes, _ => absurd rfl hes
  | [e], _, he => by
    obtain ⟨d, htokens, rfl⟩ := exists_derivation e he.1
    exact ⟨.one d, by rw [Derivations.tokens, htokens, itemTokens], rfl⟩
  | e :: e' :: es, _, he => by
    obtain ⟨d, htokens, rfl⟩ := exists_derivation e he.1
    obtain ⟨ds, hrest, htypes⟩ := exists_derivations (e' :: es) (List.cons_ne_nil e' es) he.2
    exact ⟨.cons d ds, by rw [Derivations.tokens, htokens, hrest, itemTokens],
      by rw [Derivations.types, htypes]⟩

theorem exists_paramDerivations : ∀ es : List TypeExpr, AllCanonical es →
    ∃ ps : ParamDerivations, ps.tokens = itemTokens es ∧ ps.types = es
  | [], _ => ⟨.none, rfl, rfl⟩
  | e :: es, he => by
    obtain ⟨ds, htokens, htypes⟩ := exists_derivations (e :: es) (List.cons_ne_nil e es) he
    exact ⟨.some ds, htokens, htypes⟩

theorem exists_fieldDerivations : ∀ fields : List (String × TypeExpr), FieldsCanonical fields →
    ∃ fs : FieldDerivations, fs.tokens = fieldTokens fields ∧ fs.types = fields
  | [], _ => ⟨.nil, rfl, rfl⟩
  | [(name, e)], he => by
    obtain ⟨d, htokens, rfl⟩ := exists_derivation e he.2.1
    exact ⟨.cons name d false .nil,
      by simp [FieldDerivations.tokens, semicolonTokens, htokens, fieldTokens], rfl⟩
  | (name, e) :: field :: fields, he => by
    obtain ⟨d, htokens, rfl⟩ := exists_derivation e he.2.1
    obtain ⟨fs, hrest, htypes⟩ := exists_fieldDerivations (field :: fields) he.2.2
    exact ⟨.cons name d true fs,
      by simp [FieldDerivations.tokens, semicolonTokens, htokens, hrest, fieldTokens],
      by rw [FieldDerivations.types, htypes]⟩

end

/-- All words are names. -/
def Named (ts : List Token) : Prop := ∀ name, .word name ∈ ts → IsName name

@[simp]
theorem named_cons {t : Token} {ts : List Token} :
    Named (t :: ts) ↔ (∀ name, t = .word name → IsName name) ∧ Named ts := by
  simp [Named, or_imp, forall_and, eq_comm]

@[simp]
theorem named_append {ts ts' : List Token} : Named (ts ++ ts') ↔ Named ts ∧ Named ts' := by
  simp [Named, or_imp, forall_and]

mutual

/-- A type that is derived over names is canonical. -/
theorem Derivation.canonical : ∀ d : Derivation, Named d.tokens → d.type.Canonical
  | .auto, _ => trivial
  | .word name, h => (named_cons.mp h).1 name rfl
  | .applied name args, h => by
    simp only [Derivation.tokens, named_cons, named_append] at h
    obtain ⟨hname, -, hargs, -⟩ := h
    exact ⟨hname name rfl, args.types_ne_nil, args.canonical hargs⟩
  | .pointer base, h => base.canonical (named_cons.mp h).2
  | .slice element, h => element.canonical (named_cons.mp (named_cons.mp h).2).2
  | .func params, h => by
    simp only [Derivation.tokens, named_cons, named_append] at h
    exact params.canonical h.2.2.1
  | .funcTo params result, h => by
    simp only [Derivation.tokens, named_cons, named_append] at h
    obtain ⟨-, -, hparams, -, -, hresult⟩ := h
    exact ⟨params.canonical hparams, result.canonical hresult⟩
  | .struct fields, h => by
    simp only [Derivation.tokens, named_cons, named_append] at h
    exact fields.canonical h.2.2.1

theorem Derivations.canonical : ∀ ds : Derivations, Named ds.tokens → AllCanonical ds.types
  | .one type, h => ⟨type.canonical h, trivial⟩
  | .cons type types, h => by
    simp only [Derivations.tokens, named_cons, named_append] at h
    exact ⟨type.canonical h.1, types.canonical h.2.2⟩

theorem ParamDerivations.canonical : ∀ ps : ParamDerivations, Named ps.tokens →
    AllCanonical ps.types
  | .none, _ => trivial
  | .some types, h => types.canonical h

theorem FieldDerivations.canonical : ∀ fs : FieldDerivations, Named fs.tokens →
    FieldsCanonical fs.types
  | .nil, _ => trivial
  | .cons name type semicolon fields, h => by
    simp only [FieldDerivations.tokens, named_cons, named_append] at h
    obtain ⟨hname, htype, -, hfields⟩ := h
    exact ⟨hname name rfl, type.canonical htype, fields.canonical hfields⟩

end

end RuleTypes.TypeExpr
