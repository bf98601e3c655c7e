import RuleTypes.Proofs.TypeExpr.Reading

/-!
# Where readers stop

A reader that refuses a sequence of tokens has passed some of them, and these are the beginning of
something it would have accepted. The token it stops at is not: with this token next, it reads
nothing, whatever comes after (`StopsAt`). So a sequence that is no type is refused at the first
token that no type has there, or at the end if there is no such token (`stops_of_ofTokens`).

The exception is a generic without arguments, which is refused only after its closing bracket.
-/

namespace RuleTypes.TypeExpr

variable {α β : Type} {n : Nat} {ts rest : List Token} {close : Token}

/-! ## How readers go on -/

section Inversion

variable {e : TypeExpr} {es : List TypeExpr} {name : String}

theorem readType_star (h : readType n (.star :: ts) = .ok (e, rest)) :
    ∃ m base, readType m ts = .ok (base, rest) := by
  cases n with
  | zero => simp [readType, noType] at h
  | succ n =>
    rw [readType] at h
    obtain ⟨⟨base, ts₁⟩, hbase, h⟩ := except_bind_eq_ok.mp h
    obtain ⟨-, rfl⟩ := Prod.mk.inj (Except.ok.inj h)
    exact ⟨n, base, hbase⟩

theorem readType_openBracket (h : readType n (.openBracket :: ts) = .ok (e, rest)) :
    ∃ ts' m element, ts = .closeBracket :: ts' ∧ readType m ts' = .ok (element, rest) := by
  cases n with
  | zero => simp [readType, noType] at h
  | succ n =>
    rw [readType] at h
    obtain ⟨ts', hclose, h⟩ := except_bind_eq_ok.mp h
    obtain ⟨⟨element, ts₁⟩, helement, h⟩ := except_bind_eq_ok.mp h
    obtain ⟨-, rfl⟩ := Prod.mk.inj (Except.ok.inj h)
    exact ⟨ts', n, element, expect_eq_ok.mp hclose, helement⟩

theorem readType_func (h : readType n (.func :: ts) = .ok (e, rest)) :
    ∃ ts' m params after, ts = .openParen :: ts' ∧
      readList .closeParen m ts' = .ok (params, after) ∧
      ((∃ after' result, after = .colon :: after' ∧ readType m after' = .ok (result, rest)) ∨
        after.head? ≠ some .colon ∧ rest = after) := by
  cases n with
  | zero => simp [readType, noType] at h
  | succ n =>
    rw [readType] at h
    obtain ⟨ts', hopen, h⟩ := except_bind_eq_ok.mp h
    obtain ⟨⟨params, after⟩, hparams, h⟩ := except_bind_eq_ok.mp h
    refine ⟨ts', n, params, after, expect_eq_ok.mp hopen, hparams, ?_⟩
    by_cases hcolon : after.head? = some .colon
    · obtain ⟨after', rfl⟩ := List.head?_eq_some_iff.mp hcolon
      obtain ⟨⟨result, ts₁⟩, hresult, h⟩ := except_bind_eq_ok.mp h
      obtain ⟨-, rfl⟩ := Prod.mk.inj (Except.ok.inj h)
      exact .inl ⟨after', result, rfl, hresult⟩
    · simp only at h
      split at h
      · exact absurd rfl hcolon
      · exact .inr ⟨hcolon, (Prod.mk.inj (Except.ok.inj h)).2.symm⟩

theorem readType_struct (h : readType n (.struct :: ts) = .ok (e, rest)) :
    ∃ ts' m fields, ts = .openBrace :: ts' ∧ readFields m ts' = .ok (fields, rest) := by
  cases n with
  | zero => simp [readType, noType] at h
  | succ n =>
    rw [readType] at h
    obtain ⟨ts', hopen, h⟩ := except_bind_eq_ok.mp h
    obtain ⟨⟨fields, ts₁⟩, hfields, h⟩ := except_bind_eq_ok.mp h
    obtain ⟨-, rfl⟩ := Prod.mk.inj (Except.ok.inj h)
    exact ⟨ts', n, fields, expect_eq_ok.mp hopen, hfields⟩

theorem readType_applied (h : readType n (.word name :: .openAngle :: ts) = .ok (e, rest)) :
    ∃ m args, readList .closeAngle m ts = .ok (args, rest) := by
  cases n with
  | zero => simp [readType, noType] at h
  | succ n =>
    rw [readType] at h
    obtain ⟨⟨args, ts₁⟩, hargs, h⟩ := except_bind_eq_ok.mp h
    simp only at h
    split_ifs at h
    obtain ⟨-, rfl⟩ := Prod.mk.inj (Except.ok.inj h)
    exact ⟨n, args, hargs⟩

theorem readType_word (hangle : ts.head? ≠ some .openAngle)
    (h : readType n (.word name :: ts) = .ok (e, rest)) : rest = ts := by
  cases n with
  | zero => simp [readType, noType] at h
  | succ n =>
    rw [readType] at h
    · exact (Prod.mk.inj (Except.ok.inj h)).2.symm
    · rintro ts' rfl
      exact hangle rfl

theorem readList_items (hclose : ts.head? ≠ some close)
    (h : readList close n ts = .ok (es, rest)) : ∃ m, readItems close m ts = .ok (es, rest) := by
  cases n with
  | zero => simp [readList, noType] at h
  | succ n =>
    rw [readList, if_neg hclose] at h
    exact ⟨n, h⟩

theorem readItems_item (h : readItems close n ts = .ok (es, rest)) :
    ∃ m item after, readType m ts = .ok (item, after) ∧
      ((∃ after' items, after = .comma :: after' ∧ readItems close m after' = .ok (items, rest)) ∨
        after.head? ≠ some .comma ∧ after = close :: rest) := by
  cases n with
  | zero => simp [readItems, noType] at h
  | succ n =>
    rw [readItems] at h
    obtain ⟨⟨item, after⟩, hitem, h⟩ := except_bind_eq_ok.mp h
    refine ⟨n, item, after, hitem, ?_⟩
    by_cases hcomma : after.head? = some .comma
    · obtain ⟨after', rfl⟩ := List.head?_eq_some_iff.mp hcomma
      obtain ⟨⟨items, ts₁⟩, hitems, h⟩ := except_bind_eq_ok.mp h
      obtain ⟨-, rfl⟩ := Prod.mk.inj (Except.ok.inj h)
      exact .inl ⟨after', items, rfl, hitems⟩
    · simp only at h
      split at h
      · exact absurd rfl hcomma
      · obtain ⟨ts₁, hclose, h⟩ := except_bind_eq_ok.mp h
        obtain ⟨-, rfl⟩ := Prod.mk.inj (Except.ok.inj h)
        exact .inr ⟨hcomma, expect_eq_ok.mp hclose⟩

theorem readFields_field {fields : List (String × TypeExpr)}
    (h : readFields n (.word name :: ts) = .ok (fields, rest)) :
    ∃ m type after fields', readType m ts = .ok (type, after) ∧
      readFields m (skipSemicolon after) = .ok (fields', rest) := by
  cases n with
  | zero => simp [readFields, noType] at h
  | succ n =>
    rw [readFields] at h
    obtain ⟨⟨type, after⟩, htype, h⟩ := except_bind_eq_ok.mp h
    obtain ⟨⟨fields', ts₁⟩, hfields, h⟩ := except_bind_eq_ok.mp h
    obtain ⟨-, rfl⟩ := Prod.mk.inj (Except.ok.inj h)
    exact ⟨n, type, after, fields', htype, hfields⟩

/-! ## What is left over -/

theorem readList_params_left {ps : ParamDerivations} {x : List Token}
    (h : readList .closeParen n (ps.tokens ++ .closeParen :: x) = .ok (es, rest)) : rest = x := by
  obtain ⟨ps', -, htokens⟩ := exists_derivation_of_readList n h
  exact (ps.tokens_append_inj ps' htokens).2.symm

/-- After its parameters, a function type has a result or ends. -/
theorem readType_func_params {ps : ParamDerivations} {x : List Token}
    (h : readType n (.func :: .openParen :: (ps.tokens ++ .closeParen :: x)) = .ok (e, rest)) :
    (∃ m x' result, x = .colon :: x' ∧ readType m x' = .ok (result, rest)) ∨
      x.head? ≠ some .colon ∧ rest = x := by
  obtain ⟨_, m, _, after, hopen, hparams, h⟩ := readType_func h
  obtain rfl := (List.cons.inj hopen).2
  obtain rfl := (readList_params_left hparams).symm
  obtain ⟨x', result, hcolon, hresult⟩ | hend := h
  · exact .inl ⟨m, x', result, hcolon, hresult⟩
  · exact .inr hend

theorem readList_args_left {ds : Derivations} {x : List Token}
    (h : readList .closeAngle n (ds.tokens ++ .closeAngle :: x) = .ok (es, rest)) : rest = x := by
  obtain ⟨m, h⟩ := readList_items (ds.head?_tokens_ne (.inr rfl) _) h
  obtain ⟨ds', -, htokens⟩ := exists_derivation_of_readItems m h
  exact (ds.tokens_append_inj ds' (.inr rfl) htokens).2.symm

theorem readFields_left {fs : FieldDerivations} {x : List Token}
    {fields : List (String × TypeExpr)}
    (h : readFields n (fs.tokens ++ .closeBrace :: x) = .ok (fields, rest)) : rest = x := by
  obtain ⟨fs', -, htokens⟩ := exists_derivation_of_readFields n h
  exact (fs.tokens_append_inj fs' htokens).2.symm

end Inversion

/-- **One token of lookahead decides where a type ends.** -/
theorem Derivation.left_of_readType : ∀ (d : Derivation) {x y rest : List Token} {n m : Nat}
    {e e' : TypeExpr}, y.head? = x.head? → readType n (d.tokens ++ x) = .ok (e, x) →
    readType m (d.tokens ++ y) = .ok (e', rest) → rest = y
  | .auto, x, y, rest, n, m, e, e', _, _, h => by
    cases m with
    | zero => simp [readType, noType] at h
    | succ m =>
      rw [tokens, List.singleton_append, readType] at h
      exact (Prod.mk.inj (Except.ok.inj h)).2.symm
  | .word name, x, y, rest, n, m, e, e', hhead, hx, h => by
    rw [tokens, List.singleton_append] at hx h
    have hangle : x.head? ≠ some .openAngle := by
      intro hangle
      obtain ⟨x', rfl⟩ := List.head?_eq_some_iff.mp hangle
      obtain ⟨k, args, hargs⟩ := readType_applied hx
      obtain ⟨ps, -, htokens⟩ := exists_derivation_of_readList k hargs
      have hlength := congrArg List.length htokens
      simp only [List.length_append, List.length_cons] at hlength
      omega
    exact readType_word (hhead ▸ hangle) h
  | .applied name args, x, y, rest, n, m, e, e', _, _, h => by
    simp only [tokens, List.cons_append, List.append_assoc, List.nil_append] at h
    obtain ⟨k, es, hargs⟩ := readType_applied h
    exact readList_args_left hargs
  | .pointer base, x, y, rest, n, m, e, e', hhead, hx, h => by
    obtain ⟨k, _, hx⟩ := readType_star hx
    obtain ⟨k', _, h⟩ := readType_star h
    exact base.left_of_readType hhead hx h
  | .slice element, x, y, rest, n, m, e, e', hhead, hx, h => by
    obtain ⟨_, k, _, hx', hx⟩ := readType_openBracket hx
    obtain ⟨_, k', _, h', h⟩ := readType_openBracket h
    obtain rfl := (List.cons.inj hx').2
    obtain rfl := (List.cons.inj h').2
    exact element.left_of_readType hhead hx h
  | .func params, x, y, rest, n, m, e, e', hhead, hx, h => by
    simp only [tokens, List.cons_append, List.append_assoc, List.nil_append] at hx h
    have hcolon : x.head? ≠ some .colon := by
      obtain ⟨k, x', result, rfl, hresult⟩ | ⟨hcolon, -⟩ := readType_func_params hx
      · obtain ⟨d, -, htokens⟩ := exists_derivation_of_readType k hresult
        have hlength := congrArg List.length htokens
        simp only [List.length_append, List.length_cons] at hlength
        omega
      · exact hcolon
    obtain ⟨_, y', result, rfl, -⟩ | ⟨-, hrest⟩ := readType_func_params h
    · exact absurd hhead.symm hcolon
    · exact hrest
  | .funcTo params result, x, y, rest, n, m, e, e', hhead, hx, h => by
    simp only [tokens, List.cons_append, List.append_assoc] at hx h
    obtain ⟨k, _, _, hx', hx⟩ | ⟨hcolon, -⟩ := readType_func_params hx
    · obtain ⟨k', _, _, h', h⟩ | ⟨hcolon, -⟩ := readType_func_params h
      · obtain rfl := (List.cons.inj hx').2
        obtain rfl := (List.cons.inj h').2
        exact result.left_of_readType hhead hx h
      · exact absurd rfl hcolon
    · exact absurd rfl hcolon
  | .struct fields, x, y, rest, n, m, e, e', _, _, h => by
    simp only [tokens, List.cons_append, List.append_assoc, List.nil_append] at h
    obtain ⟨_, k, _, h', h⟩ := readType_struct h
    obtain rfl := (List.cons.inj h').2
    exact readFields_left h

/-! ## Stopping -/

/-- No token is a word. -/
def Wordless (ts : List Token) : Prop := ∀ name, .word name ∉ ts

/-- The reader passes tokens that begin something whole, completed by tokens that are no words. If a
token is left, then with this token next the reader takes nothing, whatever follows. -/
def StopsAt (read : Nat → Reader α) (Whole : List Token → Prop) (ts : List Token)
    (unread : Nat) : Prop :=
  ∃ before after, ts = before ++ after ∧ after.length = unread ∧
    (∃ suffix, Wordless suffix ∧ Whole (before ++ suffix)) ∧
    ∀ t rest, after = t :: rest → ∀ rest' n r, read n (before ++ t :: rest') ≠ .ok r

namespace StopsAt

variable {read : Nat → Reader α} {read' : Nat → Reader β} {Whole Whole' : List Token → Prop}
  {unread : Nat}

/-- A reader stops where it is, after the tokens `head`. -/
theorem here (head suffix : List Token) (hsuffix : Wordless suffix)
    (hwhole : Whole (head ++ suffix))
    (hstuck : ∀ t rest n r, ts.head? = some t → read n (head ++ t :: rest) ≠ .ok r) :
    StopsAt read Whole (head ++ ts) ts.length := by
  refine ⟨head, ts, rfl, rfl, ⟨suffix, hsuffix, hwhole⟩, ?_⟩
  rintro t rest rfl rest' n r
  exact hstuck t rest' n r rfl

/-- A reader stops where the reader of a part stops, after the tokens `head`. -/
theorem lift (head tail : List Token) (h : StopsAt read' Whole' ts unread) (htail : Wordless tail)
    (up : ∀ x, Whole' x → Whole (head ++ (x ++ tail)))
    (down : ∀ x n r, x.head? = ts.head? → read n (head ++ x) = .ok r →
      ∃ m r', read' m x = .ok r') : StopsAt read Whole (head ++ ts) unread := by
  obtain ⟨before, after, rfl, hlength, ⟨suffix, hsuffix, hwhole⟩, hstuck⟩ := h
  refine ⟨head ++ before, after, by rw [List.append_assoc], hlength, ⟨suffix ++ tail, ?_, ?_⟩, ?_⟩
  · intro name hname
    exact (List.mem_append.mp hname).elim (hsuffix name) (htail name)
  · simpa only [List.append_assoc] using up _ hwhole
  · rintro t rest rfl rest' n r hread
    rw [List.append_assoc] at hread
    have hhead : (before ++ t :: rest').head? = (before ++ t :: rest).head? := by
      cases before <;> rfl
    obtain ⟨m, r', hread'⟩ := down (before ++ t :: rest') n r hhead hread
    exact hstuck t rest rfl rest' m r' hread'

end StopsAt

/-! ## Stopping in a part

One lemma for each place of the grammar where a reader can stop. -/

/-- The tokens of a type. -/
def IsType (ts : List Token) : Prop := ∃ d : Derivation, d.tokens = ts

/-- The tokens of types between commas, and the token that closes the list. -/
def IsItems (close : Token) (ts : List Token) : Prop :=
  ∃ ds : Derivations, ds.tokens ++ [close] = ts

/-- The tokens of parameters, and the closing parenthesis. -/
def IsParams (ts : List Token) : Prop := ∃ ps : ParamDerivations, ps.tokens ++ [.closeParen] = ts

/-- The tokens of fields, and the closing brace. -/
def IsFields (ts : List Token) : Prop := ∃ fs : FieldDerivations, fs.tokens ++ [.closeBrace] = ts

theorem wordless_nil : Wordless [] := by simp [Wordless]

theorem Closes.wordless (h : Closes close) : Wordless [close] := by
  obtain rfl | rfl := h <;> simp [Wordless]

/-- What is left after a type does not depend on more than the next token. -/
theorem exists_derivation_left {e : TypeExpr} (h : readType n ts = .ok (e, rest)) :
    ∃ d : Derivation, ts = d.tokens ++ rest ∧
      ∀ x m e' rest', x.head? = rest.head? → readType m (d.tokens ++ x) = .ok (e', rest') →
        rest' = x := by
  obtain ⟨d, -, rfl⟩ := exists_derivation_of_readType n h
  exact ⟨d, rfl, fun x m e' rest' hhead hx => d.left_of_readType hhead h hx⟩

/-- Whether there is a semicolon to pass depends on the next token alone. -/
theorem skipSemicolon_split (ts : List Token) :
    ∃ semicolon, ts = semicolonTokens semicolon ++ skipSemicolon ts ∧
      ∀ x, x.head? = (skipSemicolon ts).head? →
        skipSemicolon (semicolonTokens semicolon ++ x) = x := by
  have hfree : ∀ x : List Token, x.head? ≠ some .semicolon → skipSemicolon x = x := by
    intro x hx
    unfold skipSemicolon
    split
    · exact absurd rfl hx
    · rfl
  by_cases hsemicolon : ts.head? = some .semicolon
  · obtain ⟨ts', rfl⟩ := List.head?_eq_some_iff.mp hsemicolon
    exact ⟨true, rfl, fun _ _ => rfl⟩
  · rw [hfree ts hsemicolon]
    exact ⟨false, rfl, fun x hx => hfree x (hx ▸ hsemicolon)⟩

namespace StopsAt

variable {unread : Nat}

/-- A type had to begin. -/
theorem atType (h : ∀ t rest n r, ts.head? = some t → readType n (t :: rest) ≠ .ok r) :
    StopsAt readType IsType ts ts.length :=
  .here [] [.auto] (by simp [Wordless]) ⟨.auto, rfl⟩ h

theorem inPointer (h : StopsAt readType IsType ts unread) :
    StopsAt readType IsType (.star :: ts) unread := by
  refine h.lift [.star] [] wordless_nil ?_ ?_
  · rintro _ ⟨d, rfl⟩
    exact ⟨.pointer d, by simp [Derivation.tokens]⟩
  · rintro x n ⟨e, rest⟩ _ hread
    obtain ⟨m, base, hbase⟩ := readType_star hread
    exact ⟨m, _, hbase⟩

theorem atBracket (h : ts.head? ≠ some .closeBracket) :
    StopsAt readType IsType (.openBracket :: ts) ts.length := by
  refine .here [.openBracket] [.closeBracket, .auto] (by simp [Wordless]) ⟨.slice .auto, rfl⟩ ?_
  rintro t rest n ⟨e, rest'⟩ ht hread
  obtain ⟨ts', m, element, htokens, -⟩ := readType_openBracket hread
  exact h (ht.trans (congrArg List.head? htokens))

theorem inSlice (h : StopsAt readType IsType ts unread) :
    StopsAt readType IsType (.openBracket :: .closeBracket :: ts) unread := by
  refine h.lift [.openBracket, .closeBracket] [] wordless_nil ?_ ?_
  · rintro _ ⟨d, rfl⟩
    exact ⟨.slice d, by simp [Derivation.tokens]⟩
  · rintro x n ⟨e, rest⟩ _ hread
    obtain ⟨ts', m, element, htokens, helement⟩ := readType_openBracket hread
    obtain rfl := (List.cons.inj htokens).2
    exact ⟨m, _, helement⟩

theorem atParen (h : ts.head? ≠ some .openParen) :
    StopsAt readType IsType (.func :: ts) ts.length := by
  refine .here [.func] [.openParen, .closeParen] (by simp [Wordless]) ⟨.func .none, rfl⟩ ?_
  rintro t rest n ⟨e, rest'⟩ ht hread
  obtain ⟨ts', m, params, after, htokens, -⟩ := readType_func hread
  exact h (ht.trans (congrArg List.head? htokens))

theorem inParams (h : StopsAt (readList .closeParen) IsParams ts unread) :
    StopsAt readType IsType (.func :: .openParen :: ts) unread := by
  refine h.lift [.func, .openParen] [] wordless_nil ?_ ?_
  · rintro _ ⟨ps, rfl⟩
    exact ⟨.func ps, by simp [Derivation.tokens]⟩
  · rintro x n ⟨e, rest⟩ _ hread
    obtain ⟨ts', m, params, after, htokens, hparams, -⟩ := readType_func hread
    obtain rfl := (List.cons.inj htokens).2
    exact ⟨m, _, hparams⟩

theorem inResult (ps : ParamDerivations) (h : StopsAt readType IsType ts unread) :
    StopsAt readType IsType
      (.func :: .openParen :: (ps.tokens ++ .closeParen :: .colon :: ts)) unread := by
  suffices hlift : StopsAt readType IsType
      ((.func :: .openParen :: (ps.tokens ++ [.closeParen, .colon])) ++ ts) unread by
    simpa using hlift
  refine h.lift _ [] wordless_nil ?_ ?_
  · rintro _ ⟨d, rfl⟩
    exact ⟨.funcTo ps d, by simp [Derivation.tokens]⟩
  · rintro x n ⟨e, rest⟩ _ hread
    simp only [List.cons_append, List.append_assoc, List.nil_append] at hread
    obtain ⟨m, x', result, hcolon, hresult⟩ | ⟨hcolon, -⟩ := readType_func_params hread
    · obtain rfl := (List.cons.inj hcolon).2
      exact ⟨m, _, hresult⟩
    · exact absurd rfl hcolon

theorem atBrace (h : ts.head? ≠ some .openBrace) :
    StopsAt readType IsType (.struct :: ts) ts.length := by
  refine .here [.struct] [.openBrace, .closeBrace] (by simp [Wordless]) ⟨.struct .nil, rfl⟩ ?_
  rintro t rest n ⟨e, rest'⟩ ht hread
  obtain ⟨ts', m, fields, htokens, -⟩ := readType_struct hread
  exact h (ht.trans (congrArg List.head? htokens))

theorem inStruct (h : StopsAt readFields IsFields ts unread) :
    StopsAt readType IsType (.struct :: .openBrace :: ts) unread := by
  refine h.lift [.struct, .openBrace] [] wordless_nil ?_ ?_
  · rintro _ ⟨fs, rfl⟩
    exact ⟨.struct fs, by simp [Derivation.tokens]⟩
  · rintro x n ⟨e, rest⟩ _ hread
    obtain ⟨ts', m, fields, htokens, hfields⟩ := readType_struct hread
    obtain rfl := (List.cons.inj htokens).2
    exact ⟨m, _, hfields⟩

theorem inArgs (name : String) (hangle : ts.head? ≠ some .closeAngle)
    (h : StopsAt (readItems .closeAngle) (IsItems .closeAngle) ts unread) :
    StopsAt readType IsType (.word name :: .openAngle :: ts) unread := by
  refine h.lift [.word name, .openAngle] [] wordless_nil ?_ ?_
  · rintro _ ⟨ds, rfl⟩
    exact ⟨.applied name ds, by simp [Derivation.tokens]⟩
  · rintro x n ⟨e, rest⟩ hhead hread
    obtain ⟨m, args, hargs⟩ := readType_applied hread
    obtain ⟨k, hitems⟩ := readList_items (hhead ▸ hangle) hargs
    exact ⟨k, _, hitems⟩

theorem inItems (hparen : ts.head? ≠ some .closeParen)
    (h : StopsAt (readItems .closeParen) (IsItems .closeParen) ts unread) :
    StopsAt (readList .closeParen) IsParams ts unread := by
  refine h.lift [] [] wordless_nil ?_ ?_
  · rintro _ ⟨ds, rfl⟩
    exact ⟨.some ds, by simp [ParamDerivations.tokens]⟩
  · rintro x n ⟨es, rest⟩ hhead hread
    obtain ⟨m, hitems⟩ := readList_items (hhead ▸ hparen) hread
    exact ⟨m, _, hitems⟩

theorem inItem (hclose : Closes close) (h : StopsAt readType IsType ts unread) :
    StopsAt (readItems close) (IsItems close) ts unread := by
  refine h.lift [] [close] hclose.wordless ?_ ?_
  · rintro _ ⟨d, rfl⟩
    exact ⟨.one d, rfl⟩
  · rintro x n ⟨es, rest⟩ _ hread
    obtain ⟨m, item, after, hitem, -⟩ := readItems_item hread
    exact ⟨m, _, hitem⟩

theorem afterItem (hclose : Closes close) {e : TypeExpr} (hread : readType n ts = .ok (e, rest))
    (hcomma : rest.head? ≠ some .comma) (hend : rest.head? ≠ some close) :
    StopsAt (readItems close) (IsItems close) ts rest.length := by
  obtain ⟨d, rfl, hleft⟩ := exists_derivation_left hread
  refine .here d.tokens [close] hclose.wordless ⟨.one d, rfl⟩ ?_
  rintro t rest' m ⟨es, rest''⟩ ht hread'
  obtain ⟨k, item, after, hitem, hafter⟩ := readItems_item hread'
  obtain rfl := (hleft (t :: rest') k item after ht.symm hitem).symm
  obtain ⟨after', items, hnext, -⟩ | ⟨-, hnext⟩ := hafter
  · exact hcomma (ht.trans (congrArg List.head? hnext))
  · exact hend (ht.trans (congrArg List.head? hnext))

theorem afterComma {e : TypeExpr} (hread : readType n ts = .ok (e, .comma :: rest))
    (h : StopsAt (readItems close) (IsItems close) rest unread) :
    StopsAt (readItems close) (IsItems close) ts unread := by
  obtain ⟨d, rfl, hleft⟩ := exists_derivation_left hread
  suffices hlift : StopsAt (readItems close) (IsItems close) ((d.tokens ++ [.comma]) ++ rest)
      unread by
    simpa using hlift
  refine h.lift _ [] wordless_nil ?_ ?_
  · rintro _ ⟨ds, rfl⟩
    exact ⟨.cons d ds, by simp [Derivations.tokens]⟩
  · rintro x m ⟨es, rest'⟩ _ hread'
    rw [List.append_assoc, List.singleton_append] at hread'
    obtain ⟨k, item, after, hitem, hafter⟩ := readItems_item hread'
    obtain rfl := (hleft (.comma :: x) k item after rfl hitem).symm
    obtain ⟨after', items, hnext, hitems⟩ | ⟨hcomma, -⟩ := hafter
    · obtain rfl := (List.cons.inj hnext).2
      exact ⟨k, _, hitems⟩
    · exact absurd rfl hcomma

/-- A field, or the end of the fields, had to follow. -/
theorem atField (h : ∀ t rest n r, ts.head? = some t → readFields n (t :: rest) ≠ .ok r) :
    StopsAt readFields IsFields ts ts.length :=
  .here [] [.closeBrace] (by simp [Wordless]) ⟨.nil, rfl⟩ h

theorem inField (name : String) (h : StopsAt readType IsType ts unread) :
    StopsAt readFields IsFields (.word name :: ts) unread := by
  refine h.lift [.word name] [.closeBrace] (by simp [Wordless]) ?_ ?_
  · rintro _ ⟨d, rfl⟩
    exact ⟨.cons name d false .nil, by simp [FieldDerivations.tokens, semicolonTokens]⟩
  · rintro x n ⟨fields, rest⟩ _ hread
    obtain ⟨m, type, after, fields', htype, -⟩ := readFields_field hread
    exact ⟨m, _, htype⟩

theorem afterField (name : String) {e : TypeExpr} (hread : readType n ts = .ok (e, rest))
    (h : StopsAt readFields IsFields (skipSemicolon rest) unread) :
    StopsAt readFields IsFields (.word name :: ts) unread := by
  obtain ⟨d, rfl, hleft⟩ := exists_derivation_left hread
  obtain ⟨semicolon, hsplit, hskip⟩ := skipSemicolon_split rest
  suffices hlift : StopsAt readFields IsFields
      ((.word name :: (d.tokens ++ semicolonTokens semicolon)) ++ skipSemicolon rest) unread by
    simpa [← hsplit] using hlift
  refine h.lift _ [] wordless_nil ?_ ?_
  · rintro _ ⟨fs, rfl⟩
    exact ⟨.cons name d semicolon fs, by simp [FieldDerivations.tokens]⟩
  · rintro x m ⟨fields, rest'⟩ hhead hread'
    rw [List.cons_append, List.append_assoc] at hread'
    obtain ⟨k, type, after, fields', htype, hfields⟩ := readFields_field hread'
    have hnext : (semicolonTokens semicolon ++ x).head? = rest.head? := by
      rw [hsplit, List.head?_append, List.head?_append, hhead]
    rw [hleft _ k type after hnext htype, hskip x hhead] at hfields
    exact ⟨k, _, hfields⟩

end StopsAt

/-! ## Readers -/

/-- No generic stands without arguments. -/
def NoBareGeneric (ts : List Token) : Prop :=
  ∀ name, ¬[.word name, .openAngle, .closeAngle] <:+: ts

theorem NoBareGeneric.of_append {before after : List Token} (h : NoBareGeneric (before ++ after)) :
    NoBareGeneric after :=
  fun name hmem => h name (hmem.trans (List.suffix_append before after).isInfix)

theorem NoBareGeneric.tail {t : Token} (h : NoBareGeneric (t :: ts)) : NoBareGeneric ts :=
  fun name hmem => h name (hmem.trans (List.suffix_cons t ts).isInfix)

theorem expect_eq_error {want : Token} {stop : Stop} (h : expect want ts = .error stop) :
    stop.unread = ts.length ∧ ts.head? ≠ some want := by
  cases ts with
  | nil =>
    obtain rfl := Except.error.inj h
    exact ⟨rfl, by simp⟩
  | cons t ts =>
    rw [expect] at h
    split_ifs at h with ht
    obtain rfl := Except.error.inj h
    exact ⟨rfl, by simpa using ht⟩

mutual

/-- **Where the reader of types stops.** -/
theorem stops_of_readType : ∀ (n : Nat) {ts stop}, 3 * ts.length + 1 ≤ n → NoBareGeneric ts →
    readType n ts = .error stop → StopsAt readType IsType ts stop.unread
  | 0, ts, stop, hn, _, _ => absurd hn (by omega)
  | n + 1, [], stop, _, _, h => by
    obtain rfl : ⟨.expectedType none, 0⟩ = stop := by simpa [readType, noType] using h
    exact .atType (by simp)
  | n + 1, t :: ts, stop, hn, hbare, h => by
    rw [List.length_cons] at hn
    have hbare' : NoBareGeneric ts := hbare.tail
    cases t with
    | auto => simp [readType] at h
    | star =>
      rw [readType] at h
      obtain hbase | ⟨_, _, h⟩ := except_bind_eq_error.mp h
      · exact (stops_of_readType n (by omega) hbare' hbase).inPointer
      · cases h
    | openBracket =>
      rw [readType] at h
      obtain hclose | ⟨ts', hclose, helement⟩ := except_bind_eq_error.mp h
      · obtain ⟨hunread, hhead⟩ := expect_eq_error hclose
        exact hunread ▸ .atBracket hhead
      · obtain rfl := expect_eq_ok.mp hclose
        rw [List.length_cons] at hn
        obtain helement | ⟨_, _, hend⟩ := except_bind_eq_error.mp helement
        · exact (stops_of_readType n (by omega) hbare'.tail helement).inSlice
        · cases hend
    | func =>
      rw [readType] at h
      obtain hopen | ⟨ts', hopen, hlist⟩ := except_bind_eq_error.mp h
      · obtain ⟨hunread, hhead⟩ := expect_eq_error hopen
        exact hunread ▸ .atParen hhead
      · obtain rfl := expect_eq_ok.mp hopen
        rw [List.length_cons] at hn
        obtain hparams | ⟨⟨params, after⟩, hparams, hend⟩ := except_bind_eq_error.mp hlist
        · exact (stops_of_readList n (by omega) hbare'.tail hparams).inParams
        · obtain ⟨ps, -, rfl⟩ := exists_derivation_of_readList n hparams
          simp only at hend
          split at hend
          · next after' =>
            simp only [List.length_append, List.length_cons] at hn
            obtain hresult | ⟨_, _, hend⟩ := except_bind_eq_error.mp hend
            · exact (stops_of_readType n (by omega) hbare'.tail.of_append.tail.tail
                hresult).inResult ps
            · cases hend
          · cases hend
    | struct =>
      rw [readType] at h
      obtain hopen | ⟨ts', hopen, hfields⟩ := except_bind_eq_error.mp h
      · obtain ⟨hunread, hhead⟩ := expect_eq_error hopen
        exact hunread ▸ .atBrace hhead
      · obtain rfl := expect_eq_ok.mp hopen
        rw [List.length_cons] at hn
        obtain hfields | ⟨_, _, hend⟩ := except_bind_eq_error.mp hfields
        · exact (stops_of_readFields n (by omega) hbare'.tail hfields).inStruct
        · cases hend
    | word name =>
      by_cases hangle : ts.head? = some .openAngle
      · obtain ⟨ts', rfl⟩ := List.head?_eq_some_iff.mp hangle
        -- An empty list of arguments would be passed before it is refused.
        have hclose : ts'.head? ≠ some .closeAngle := by
          intro hclose
          obtain ⟨rest, rfl⟩ := List.head?_eq_some_iff.mp hclose
          exact hbare name ⟨[], rest, rfl⟩
        rw [List.length_cons] at hn
        obtain ⟨m, rfl⟩ : ∃ m, n = m + 1 := ⟨n - 1, by omega⟩
        rw [readType, readList, if_neg hclose] at h
        obtain hargs | ⟨⟨args, after⟩, hargs, hend⟩ := except_bind_eq_error.mp h
        · exact (stops_of_readItems m (.inr rfl) (by omega) hbare'.tail hargs).inArgs name hclose
        · obtain ⟨ds, rfl, -⟩ := exists_derivation_of_readItems m hargs
          simp [ds.types_ne_nil, pure, Except.pure] at hend
      · rw [readType] at h
        · cases h
        · rintro ts' rfl
          exact hangle rfl
    | _ =>
      rw [readType, noType] at h
      · obtain rfl := Except.error.inj h
        refine .atType ?_
        rintro _ rest (_ | m) r ⟨⟩ <;> simp [readType, noType]
      all_goals simp

theorem stops_of_readList : ∀ (n : Nat) {ts stop}, 3 * ts.length + 3 ≤ n → NoBareGeneric ts →
    readList .closeParen n ts = .error stop →
    StopsAt (readList .closeParen) IsParams ts stop.unread
  | 0, ts, stop, hn, _, _ => absurd hn (by omega)
  | n + 1, ts, stop, hn, hbare, h => by
    rw [readList] at h
    split_ifs at h with hclose
    exact (stops_of_readItems n (.inl rfl) (by omega) hbare h).inItems hclose

theorem stops_of_readItems : ∀ (n : Nat) {close ts stop}, Closes close → 3 * ts.length + 2 ≤ n →
    NoBareGeneric ts → readItems close n ts = .error stop →
    StopsAt (readItems close) (IsItems close) ts stop.unread
  | 0, close, ts, stop, _, hn, _, _ => absurd hn (by omega)
  | n + 1, close, ts, stop, hclose, hn, hbare, h => by
    rw [readItems] at h
    obtain hitem | ⟨⟨item, after⟩, hitem, hafter⟩ := except_bind_eq_error.mp h
    · exact (stops_of_readType n (by omega) hbare hitem).inItem hclose
    · obtain ⟨d, -, rfl⟩ := exists_derivation_of_readType n hitem
      simp only at hafter
      split at hafter
      · next after' =>
        simp only [List.length_append, List.length_cons] at hn
        obtain hitems | ⟨_, _, hend⟩ := except_bind_eq_error.mp hafter
        · exact (stops_of_readItems n hclose (by omega) hbare.of_append.tail hitems).afterComma
            hitem
        · cases hend
      · next hcomma =>
        obtain hend | ⟨_, _, hend⟩ := except_bind_eq_error.mp hafter
        · obtain ⟨hunread, hhead⟩ := expect_eq_error hend
          refine hunread ▸ .afterItem hclose hitem ?_ hhead
          intro hnext
          obtain ⟨rest, rfl⟩ := List.head?_eq_some_iff.mp hnext
          exact hcomma rest rfl
        · cases hend

theorem stops_of_readFields : ∀ (n : Nat) {ts stop}, 3 * ts.length + 1 ≤ n → NoBareGeneric ts →
    readFields n ts = .error stop → StopsAt readFields IsFields ts stop.unread
  | 0, ts, stop, hn, _, _ => absurd hn (by omega)
  | n + 1, [], stop, _, _, h => by
    rw [readFields] at h
    obtain rfl := Except.error.inj h
    exact .atField (by simp)
  | n + 1, t :: ts, stop, hn, hbare, h => by
    rw [List.length_cons] at hn
    cases t with
    | closeBrace => simp [readFields] at h
    | word name =>
      rw [readFields] at h
      obtain htype | ⟨⟨type, after⟩, htype, h⟩ := except_bind_eq_error.mp h
      · exact (stops_of_readType n (by omega) hbare.tail htype).inField name
      · obtain hfields | ⟨_, _, hend⟩ := except_bind_eq_error.mp h
        · obtain ⟨d, -, rfl⟩ := exists_derivation_of_readType n htype
          obtain ⟨semicolon, hsplit⟩ := skipSemicolon_eq after
          have hlength := congrArg List.length hsplit
          rw [List.length_append] at hlength hn
          have hbare' : NoBareGeneric (skipSemicolon after) :=
            (hsplit ▸ hbare.tail.of_append : NoBareGeneric (_ ++ _)).of_append
          exact (stops_of_readFields n (by omega) hbare' hfields).afterField name htype
        · cases hend
    | _ =>
      rw [readFields] at h
      · obtain rfl := Except.error.inj h
        refine .atField ?_
        rintro _ rest (_ | m) r ⟨⟩ <;> simp [readFields, noType]
      all_goals simp

end

/-- **Tokens that are no type are refused at the first token that no type has there**, or at their
end if more tokens would have made a type of them. -/
theorem stops_of_ofTokens {stop : Stop} (hbare : NoBareGeneric ts) (h : ofTokens ts = .error stop) :
    ∃ before after, ts = before ++ after ∧ after.length = stop.unread ∧
      (∃ suffix, Wordless suffix ∧ IsType (before ++ suffix)) ∧
      ∀ t rest, after = t :: rest → ∀ rest', ¬IsType (before ++ t :: rest') := by
  have hread : ∀ d : Derivation, readType (3 * d.tokens.length) d.tokens = .ok (d.type, []) :=
    fun d => by simpa using readType_derivation d (le_refl _) ends_nil
  obtain hstop | ⟨⟨e, rest⟩, htype, hend⟩ := except_bind_eq_error.mp h
  · obtain ⟨before, after, hsplit, hlength, hwhole, hstuck⟩ :=
      stops_of_readType _ (by omega) hbare hstop
    refine ⟨before, after, hsplit, hlength, hwhole, ?_⟩
    rintro t rest hafter rest' ⟨d, hd⟩
    exact hstuck t rest hafter rest' _ _ (hd ▸ hread d)
  · cases rest with
    | nil => cases hend
    | cons t rest =>
      obtain rfl := Except.error.inj hend
      obtain ⟨d, rfl, hleft⟩ := exists_derivation_left htype
      refine ⟨d.tokens, t :: rest, rfl, rfl, ⟨[], wordless_nil, d, by simp⟩, ?_⟩
      rintro _ _ ⟨⟩ rest' ⟨d', hd'⟩
      cases hleft (t :: rest') _ _ [] rfl (hd' ▸ hread d')

end RuleTypes.TypeExpr
