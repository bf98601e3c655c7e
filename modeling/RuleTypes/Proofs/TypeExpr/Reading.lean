import RuleTypes.Proofs.TypeExpr.Grammar
import RuleTypes.TypeExpr.Parser

/-!
# Readers accept their grammar

What a reader takes from the tokens is derived by the grammar (`exists_derivation_of_readType`), and
what is derived is read back, with what follows left over, if it does not continue the type
(`readType_derivation`). So a text is read as a type exactly if its tokens are derived as that type
(`parse_eq_ok_iff_derived`), and the types that can be read are those that are read back from their
own text (`canonical_iff_parse`).
-/

namespace RuleTypes.TypeExpr

variable {n : Nat} {ts rest : List Token}

/-! ## What is read is derived -/

theorem expect_eq_ok {want : Token} : expect want ts = .ok rest ↔ ts = want :: rest := by
  cases ts with
  | nil => simp [expect]
  | cons t ts =>
    rw [expect]
    split_ifs with ht <;> simp [ht]

theorem skipSemicolon_eq (ts : List Token) :
    ∃ semicolon, ts = semicolonTokens semicolon ++ skipSemicolon ts := by
  unfold skipSemicolon
  split
  · exact ⟨true, rfl⟩
  · exact ⟨false, rfl⟩

mutual

/-- What is read as a type is derived as that type. -/
theorem exists_derivation_of_readType : ∀ (n : Nat) {ts e rest},
    readType n ts = .ok (e, rest) → ∃ d : Derivation, d.type = e ∧ ts = d.tokens ++ rest
  | 0, ts, e, rest, h => by simp [readType, noType] at h
  | n + 1, [], e, rest, h => by simp [readType, noType] at h
  | n + 1, t :: ts, e, rest, h => by
    cases t with
    | auto =>
      rw [readType] at h
      obtain ⟨rfl, rfl⟩ := Prod.mk.inj (Except.ok.inj h)
      exact ⟨.auto, rfl, rfl⟩
    | star =>
      rw [readType] at h
      obtain ⟨⟨base, ts₁⟩, hbase, h⟩ := except_bind_eq_ok.mp h
      obtain ⟨rfl, rfl⟩ := Prod.mk.inj (Except.ok.inj h)
      obtain ⟨d, rfl, rfl⟩ := exists_derivation_of_readType n hbase
      exact ⟨.pointer d, rfl, rfl⟩
    | openBracket =>
      rw [readType] at h
      obtain ⟨ts₁, hopen, h⟩ := except_bind_eq_ok.mp h
      obtain ⟨⟨element, ts₂⟩, helement, h⟩ := except_bind_eq_ok.mp h
      obtain ⟨rfl, rfl⟩ := Prod.mk.inj (Except.ok.inj h)
      obtain rfl := expect_eq_ok.mp hopen
      obtain ⟨d, rfl, rfl⟩ := exists_derivation_of_readType n helement
      exact ⟨.slice d, rfl, rfl⟩
    | func =>
      rw [readType] at h
      obtain ⟨ts₁, hopen, hlist⟩ := except_bind_eq_ok.mp h
      obtain rfl := expect_eq_ok.mp hopen
      obtain ⟨⟨params, ts₂⟩, hparams, h⟩ := except_bind_eq_ok.mp hlist
      obtain ⟨ps, hps, htail⟩ := exists_derivation_of_readList n hparams
      simp only at h
      split at h
      · obtain ⟨⟨result, ts₃⟩, hresult, h⟩ := except_bind_eq_ok.mp h
        obtain ⟨rfl, rfl⟩ := Prod.mk.inj (Except.ok.inj h)
        obtain ⟨d, rfl, rfl⟩ := exists_derivation_of_readType n hresult
        exact ⟨.funcTo ps d, by rw [Derivation.type, hps], by simp [Derivation.tokens, htail]⟩
      · obtain ⟨rfl, rfl⟩ := Prod.mk.inj (Except.ok.inj h)
        exact ⟨.func ps, by rw [Derivation.type, hps], by simp [Derivation.tokens, htail]⟩
    | struct =>
      rw [readType] at h
      obtain ⟨ts₁, hopen, h⟩ := except_bind_eq_ok.mp h
      obtain ⟨⟨fields, ts₂⟩, hfields, h⟩ := except_bind_eq_ok.mp h
      obtain ⟨rfl, rfl⟩ := Prod.mk.inj (Except.ok.inj h)
      obtain rfl := expect_eq_ok.mp hopen
      obtain ⟨fs, rfl, rfl⟩ := exists_derivation_of_readFields n hfields
      exact ⟨.struct fs, rfl, by simp [Derivation.tokens]⟩
    | word name =>
      by_cases hangle : ts.head? = some .openAngle
      · obtain ⟨ts, rfl⟩ := List.head?_eq_some_iff.mp hangle
        rw [readType] at h
        obtain ⟨⟨args, ts₁⟩, hargs, h⟩ := except_bind_eq_ok.mp h
        obtain ⟨ps, hps, htail⟩ := exists_derivation_of_readList n hargs
        cases ps with
        | none =>
          obtain rfl := hps
          cases h
        | some types =>
          have hargs : ¬args.isEmpty = true := by
            simpa [← hps, ParamDerivations.types] using types.types_ne_nil
          simp only [if_neg hargs] at h
          obtain ⟨rfl, rfl⟩ := Prod.mk.inj (Except.ok.inj h)
          refine ⟨.applied name types, congrArg (generic name) hps, ?_⟩
          simp [Derivation.tokens, htail, ParamDerivations.tokens]
      · rw [readType] at h
        · obtain ⟨rfl, rfl⟩ := Prod.mk.inj (Except.ok.inj h)
          exact ⟨.word name, rfl, rfl⟩
        · rintro ts' rfl
          exact hangle rfl
    | _ => simp [readType, noType] at h

theorem exists_derivation_of_readList : ∀ (n : Nat) {close ts es rest},
    readList close n ts = .ok (es, rest) →
      ∃ ps : ParamDerivations, ps.types = es ∧ ts = ps.tokens ++ close :: rest
  | 0, close, ts, es, rest, h => by simp [readList, noType] at h
  | n + 1, close, ts, es, rest, h => by
    rw [readList] at h
    split_ifs at h with hclose
    · obtain ⟨ts, rfl⟩ := List.head?_eq_some_iff.mp hclose
      obtain ⟨rfl, rfl⟩ := Prod.mk.inj (Except.ok.inj h)
      exact ⟨.none, rfl, rfl⟩
    · obtain ⟨ds, htypes, htokens⟩ := exists_derivation_of_readItems n h
      exact ⟨.some ds, htypes, htokens⟩

theorem exists_derivation_of_readItems : ∀ (n : Nat) {close ts es rest},
    readItems close n ts = .ok (es, rest) →
      ∃ ds : Derivations, ds.types = es ∧ ts = ds.tokens ++ close :: rest
  | 0, close, ts, es, rest, h => by simp [readItems, noType] at h
  | n + 1, close, ts, es, rest, h => by
    rw [readItems] at h
    obtain ⟨⟨item, ts₁⟩, hitem, h⟩ := except_bind_eq_ok.mp h
    obtain ⟨d, hd, htail⟩ := exists_derivation_of_readType n hitem
    simp only at h
    split at h
    · obtain ⟨⟨items, ts₂⟩, hitems, h⟩ := except_bind_eq_ok.mp h
      obtain ⟨rfl, rfl⟩ := Prod.mk.inj (Except.ok.inj h)
      obtain ⟨ds, rfl, rfl⟩ := exists_derivation_of_readItems n hitems
      exact ⟨.cons d ds, by rw [Derivations.types, hd], by simp [Derivations.tokens, htail]⟩
    · obtain ⟨ts₂, hclose, h⟩ := except_bind_eq_ok.mp h
      obtain ⟨rfl, rfl⟩ := Prod.mk.inj (Except.ok.inj h)
      obtain rfl := expect_eq_ok.mp hclose
      exact ⟨.one d, by rw [Derivations.types, hd], htail⟩

theorem exists_derivation_of_readFields : ∀ (n : Nat) {ts fields rest},
    readFields n ts = .ok (fields, rest) →
      ∃ fs : FieldDerivations, fs.types = fields ∧ ts = fs.tokens ++ .closeBrace :: rest
  | 0, ts, fields, rest, h => by simp [readFields, noType] at h
  | n + 1, [], fields, rest, h => by simp [readFields] at h
  | n + 1, t :: ts, fields, rest, h => by
    cases t with
    | closeBrace =>
      rw [readFields] at h
      obtain ⟨rfl, rfl⟩ := Prod.mk.inj (Except.ok.inj h)
      exact ⟨.nil, rfl, rfl⟩
    | word name =>
      rw [readFields] at h
      obtain ⟨⟨type, ts₁⟩, htype, h⟩ := except_bind_eq_ok.mp h
      obtain ⟨⟨fields, ts₂⟩, hfields, h⟩ := except_bind_eq_ok.mp h
      obtain ⟨rfl, rfl⟩ := Prod.mk.inj (Except.ok.inj h)
      obtain ⟨d, rfl, rfl⟩ := exists_derivation_of_readType n htype
      obtain ⟨fs, rfl, hskip⟩ := exists_derivation_of_readFields n hfields
      obtain ⟨semicolon, hsemicolon⟩ := skipSemicolon_eq ts₁
      rw [hskip] at hsemicolon
      exact ⟨.cons name d semicolon fs, rfl, by simp [FieldDerivations.tokens, ← hsemicolon]⟩
    | _ => simp [readFields] at h

end

/-! ## What is derived is read -/

theorem expect_eq (want : Token) (ts : List Token) : expect want (want :: ts) = .ok ts :=
  expect_eq_ok.mpr rfl

theorem exists_depth {d : Derivation} (h : 3 * d.tokens.length ≤ n) : ∃ m, n = m + 1 :=
  Nat.exists_eq_succ_of_ne_zero (by have := List.length_pos_iff.mpr d.tokens_ne_nil; omega)

theorem skipSemicolon_tokens (semicolon : Bool) (fs : FieldDerivations) (rest : List Token) :
    skipSemicolon (semicolonTokens semicolon ++ (fs.tokens ++ .closeBrace :: rest)) =
      fs.tokens ++ .closeBrace :: rest := by
  cases semicolon with
  | true => rfl
  | false => cases fs <;> rfl

theorem readList_eq_readItems {close : Token} (h : Closes close) (ds : Derivations)
    (ts : List Token) : readList close (n + 1) (ds.tokens ++ ts) =
      readItems close n (ds.tokens ++ ts) := by
  rw [readList, if_neg (ds.head?_tokens_ne h ts)]

mutual

/-- **What is derived is read**, given enough depth. -/
theorem readType_derivation : ∀ (d : Derivation) {n rest}, 3 * d.tokens.length ≤ n → Ends rest →
    readType n (d.tokens ++ rest) = .ok (d.type, rest)
  | .auto, n, rest, hn, _ => by
    obtain ⟨n, rfl⟩ := exists_depth hn
    rw [Derivation.tokens, List.singleton_append, readType, Derivation.type]
  | .word name, n, rest, hn, hrest => by
    obtain ⟨n, rfl⟩ := exists_depth hn
    rw [Derivation.tokens, List.singleton_append, readType, Derivation.type]
    rintro ts rfl
    exact hrest.noArgs rfl
  | .applied name args, n, rest, hn, hrest => by
    obtain ⟨n, rfl⟩ := exists_depth hn
    simp only [Derivation.tokens, List.length_cons, List.length_append, List.length_nil] at hn
    obtain ⟨n, rfl⟩ : ∃ m, n = m + 1 := ⟨n - 1, by omega⟩
    have hread := readItems_derivation args (n := n) (.inr rfl) (by omega) rest
    simp only [Derivation.tokens, List.cons_append, List.append_assoc, List.nil_append, readType,
      readList_eq_readItems (.inr rfl)]
    simp only [bind, Except.bind, hread]
    rw [if_neg (by simpa using args.types_ne_nil)]
    rfl
  | .pointer base, n, rest, hn, hrest => by
    obtain ⟨n, rfl⟩ := exists_depth hn
    rw [Derivation.tokens, List.length_cons] at hn
    rw [Derivation.tokens, List.cons_append, readType, readType_derivation base (by omega) hrest]
    rfl
  | .slice element, n, rest, hn, hrest => by
    obtain ⟨n, rfl⟩ := exists_depth hn
    simp only [Derivation.tokens, List.length_cons] at hn
    simp only [Derivation.tokens, List.cons_append, readType, expect_eq]
    simp only [bind, Except.bind, readType_derivation element (by omega : _ ≤ n) hrest]
    rfl
  | .func params, n, rest, hn, hrest => by
    obtain ⟨n, rfl⟩ := exists_depth hn
    simp only [Derivation.tokens, List.length_cons, List.length_append, List.length_nil] at hn
    have hread := readList_derivation params (n := n) (.inl rfl) (by omega) rest
    simp only [Derivation.tokens, List.cons_append, List.append_assoc, List.nil_append, readType,
      expect_eq]
    simp only [bind, Except.bind, hread]
    split
    · exact absurd rfl hrest.noResult
    · rfl
  | .funcTo params result, n, rest, hn, hrest => by
    obtain ⟨n, rfl⟩ := exists_depth hn
    simp only [Derivation.tokens, List.length_cons, List.length_append] at hn
    have hread := readList_derivation params (n := n) (.inl rfl) (by omega)
      (.colon :: (result.tokens ++ rest))
    simp only [Derivation.tokens, List.cons_append, List.append_assoc, readType, expect_eq]
    simp only [bind, Except.bind, hread]
    rw [readType_derivation result (by omega) hrest]
    rfl
  | .struct fields, n, rest, hn, hrest => by
    obtain ⟨n, rfl⟩ := exists_depth hn
    simp only [Derivation.tokens, List.length_cons, List.length_append, List.length_nil] at hn
    have hread := readFields_derivation fields (n := n) (by omega) rest
    simp only [Derivation.tokens, List.cons_append, List.append_assoc, List.nil_append, readType,
      expect_eq]
    simp only [bind, Except.bind, hread]
    rfl

theorem readList_derivation : ∀ (ps : ParamDerivations) {close n}, Closes close →
    3 * ps.tokens.length + 2 ≤ n → ∀ rest,
    readList close n (ps.tokens ++ close :: rest) = .ok (ps.types, rest)
  | .none, close, n + 1, _, _, rest => by
    rw [ParamDerivations.tokens, List.nil_append, readList, List.head?_cons, if_pos rfl]
    rfl
  | .some types, close, n + 1, hclose, hn, rest => by
    rw [ParamDerivations.tokens] at hn ⊢
    rw [readList_eq_readItems hclose, readItems_derivation types hclose (by omega),
      ParamDerivations.types]

theorem readItems_derivation : ∀ (ds : Derivations) {close n}, Closes close →
    3 * ds.tokens.length + 1 ≤ n → ∀ rest,
    readItems close n (ds.tokens ++ close :: rest) = .ok (ds.types, rest)
  | .one type, close, n + 1, hclose, hn, rest => by
    rw [Derivations.tokens] at hn ⊢
    have hread := readType_derivation type (n := n) (by omega) (hclose.ends rest)
    rw [readItems]
    simp only [bind, Except.bind, hread]
    obtain rfl | rfl := hclose
    all_goals
      simp only [expect_eq]
      rfl
  | .cons type types, close, n + 1, hclose, hn, rest => by
    rw [Derivations.tokens] at hn ⊢
    simp only [List.length_append, List.length_cons] at hn
    have hfirst := readType_derivation type (n := n) (by omega)
      (ends_comma (types.tokens ++ close :: rest))
    have hrest := readItems_derivation types (n := n) hclose (by omega) rest
    rw [readItems, List.append_assoc, List.cons_append]
    simp only [bind, Except.bind, hfirst, hrest]
    rfl

theorem readFields_derivation : ∀ (fs : FieldDerivations) {n},
    3 * fs.tokens.length + 1 ≤ n → ∀ rest,
    readFields n (fs.tokens ++ .closeBrace :: rest) = .ok (fs.types, rest)
  | .nil, n + 1, _, rest => by
    rw [FieldDerivations.tokens, List.nil_append, readFields, FieldDerivations.types]
  | .cons name type semicolon fields, n + 1, hn, rest => by
    rw [FieldDerivations.tokens] at hn ⊢
    simp only [List.length_append, List.length_cons] at hn
    have hfirst := readType_derivation type (n := n) (by omega) (fields.ends semicolon rest)
    have hrest := readFields_derivation fields (n := n) (by omega) rest
    simp only [List.cons_append, List.append_assoc, readFields]
    simp only [bind, Except.bind, hfirst, skipSemicolon_tokens, hrest]
    rfl

end

/-! ## Texts -/

/-- A sequence of tokens is read as a type exactly if it is derived as that type. -/
theorem ofTokens_eq_ok {e : TypeExpr} :
    ofTokens ts = .ok e ↔ ∃ d : Derivation, d.tokens = ts ∧ d.type = e := by
  constructor
  · intro h
    obtain ⟨⟨e', rest⟩, hread, hend⟩ := except_bind_eq_ok.mp h
    obtain ⟨d, rfl, htail⟩ := exists_derivation_of_readType _ hread
    cases rest with
    | nil => exact ⟨d, by rw [htail, List.append_nil], Except.ok.inj hend⟩
    | cons t rest => cases hend
  · rintro ⟨d, rfl, rfl⟩
    have hread := readType_derivation d (n := 3 * d.tokens.length + 3) (by omega) ends_nil
    rw [List.append_nil] at hread
    rw [ofTokens, hread]
    rfl

/-- A text is read as a type exactly if its tokens are derived as that type. -/
theorem parse_eq_ok {text : String} {e : TypeExpr} :
    parse text = .ok e ↔ ∃ d : Derivation, Tokenized text.toList d.tokens ∧ d.type = e := by
  simp only [← scan_tokenized]
  unfold parse
  constructor
  · intro h
    split at h
    · cases h
    · next lexemes hscan =>
      split at h
      · cases h
      · next e' htokens =>
        obtain rfl := Except.ok.inj h
        obtain ⟨d, hd, htype⟩ := ofTokens_eq_ok.mp htokens
        exact ⟨d, ⟨lexemes, hscan, hd.symm⟩, htype⟩
  · rintro ⟨d, ⟨lexemes, hscan, htokens⟩, rfl⟩
    simp only [hscan, ofTokens_eq_ok.mpr ⟨d, htokens.symm, rfl⟩]

/-- **A canonical type is read back from its text.** -/
theorem parse_text {e : TypeExpr} (he : e.Canonical) : parse e.text = .ok e := by
  obtain ⟨d, htokens, htype⟩ := exists_derivation e he
  refine parse_eq_ok.mpr ⟨d, scan_tokenized.mp ?_, htype⟩
  obtain ⟨lexemes, hscan, hlexemes⟩ := scans_text e he noWordChar_nil .nil 0
  rw [List.append_nil] at hscan hlexemes
  exact ⟨lexemes, hscan, hlexemes.trans htokens.symm⟩

/-- **Only canonical types are read.** -/
theorem canonical_of_parse {text : String} {e : TypeExpr} (h : parse text = .ok e) :
    e.Canonical := by
  obtain ⟨d, htokens, rfl⟩ := parse_eq_ok.mp h
  exact d.canonical fun name hname => htokens.isName hname

/-- **The parser accepts its grammar.** A text is read as a type exactly if it is tokenized, by
longest match, and the grammar derives its tokens as that type. No tokens have two derivations. -/
theorem parse_eq_ok_iff_derived (text : String) (e : TypeExpr) :
    (parse text = .ok e ↔
      ∃ ts, Tokenized text.toList ts ∧ ∃ d : Derivation, d.tokens = ts ∧ d.type = e) ∧
      Function.Injective Derivation.tokens := by
  refine ⟨parse_eq_ok.trans ⟨?_, ?_⟩, Derivation.tokens_injective⟩
  · rintro ⟨d, htokens, htype⟩
    exact ⟨d.tokens, htokens, d, rfl, htype⟩
  · rintro ⟨_, htokens, d, rfl, htype⟩
    exact ⟨d, htokens, htype⟩

/-- **Reading and writing are inverse on canonical types.** The canonical types are those that are
read back from their own text, and those that any text is read as. -/
theorem canonical_iff_parse (e : TypeExpr) :
    (e.Canonical ↔ parse e.text = .ok e) ∧ (e.Canonical ↔ ∃ text, parse text = .ok e) := by
  refine ⟨⟨parse_text, canonical_of_parse⟩, fun he => ⟨e.text, parse_text he⟩, ?_⟩
  rintro ⟨text, h⟩
  exact canonical_of_parse h

end RuleTypes.TypeExpr
