import RuleTypes.Proofs.TypeExpr.Stops

/-!
# Syntax errors point at the first wrong token

An error has the offset of a place in the text. If the text has tokens, it is the start of the first
token that no type has there, after the tokens before it, or the end of the text if all its tokens
begin a type. If the text has no tokens, it is the start of the first character that makes it so,
however early its tokens went wrong (`syntax_error_offset`).
-/

namespace RuleTypes

/-! ## Places in a text -/

/-- The bytes that characters take. -/
def byteSize (cs : List Char) : Nat := (String.ofList cs).utf8ByteSize

theorem byteSize_cons (c : Char) (cs : List Char) :
    byteSize (c :: cs) = c.utf8Size + byteSize cs := by
  simp [byteSize, String.ofList_cons, String.utf8ByteSize_append]

theorem byteSize_append (cs cs' : List Char) :
    byteSize (cs ++ cs') = byteSize cs + byteSize cs' := by
  rw [byteSize, String.ofList_append, String.utf8ByteSize_append, byteSize, byteSize]

theorem byteSize_toList (s : String) : byteSize s.toList = s.utf8ByteSize := by
  rw [byteSize, String.ofList_toList]

theorem tokenized_of_scans {cs : List Char} {ts : List Token} (h : Scans cs ts) :
    Tokenized cs ts := by
  obtain ⟨lexemes, hscan, rfl⟩ := h 0
  exact tokenized_of_scanFrom hscan

theorem NoWordChar.of_append {cs cs' : List Char} (h : NoWordChar (cs ++ cs')) : NoWordChar cs := by
  intro c hc
  exact h c (by rw [List.head?_append, hc]; rfl)

theorem noWordChar_dropWhile (cs : List Char) : NoWordChar (cs.dropWhile Lexeme.isWordChar) := by
  intro c hc
  have hnot := List.head?_dropWhile_not Lexeme.isWordChar cs
  rwa [hc] at hnot

/-- The token stands at the offset, between the tokens before it and after it. -/
def StandsAt (cs : List Char) (before : List Token) (t : Token) (after : List Token)
    (offset : Nat) : Prop :=
  ∃ left spelling right, cs = left ++ (spelling ++ right) ∧ Tokenized left before ∧
    Spells spelling t ∧ Tokenized right after ∧ offset = byteSize left

namespace Lexeme

variable {pos : Nat} {cs : List Char}

/-- A lexeme has the offset of its token. -/
theorem standsAt_of_scanFrom {left right : List Lexeme} {lexeme : Lexeme}
    (h : scanFrom pos cs = .ok (left ++ lexeme :: right)) :
    ∃ offset, StandsAt cs (left.map (·.token)) lexeme.token (right.map (·.token)) offset ∧
      lexeme.start = pos + offset := by
  fun_induction scanFrom pos cs generalizing left with
  | case1 pos => simp at h
  | case2 pos c cs hblank ih =>
    obtain ⟨offset, ⟨before, spelling, after, rfl, hbefore, hspells, hafter, rfl⟩, hstart⟩ := ih h
    refine ⟨_, ⟨c :: before, spelling, after, rfl, .blank hblank hbefore, hspells, hafter, rfl⟩, ?_⟩
    rw [hstart, byteSize_cons, Nat.add_assoc]
  | case3 pos c cs hblank token htoken ih =>
    obtain ⟨rest, hrest, h⟩ := except_bind_eq_ok.mp h
    cases left with
    | nil =>
      obtain ⟨rfl, rfl⟩ := List.cons.inj (Except.ok.inj h)
      have hafter := tokenized_of_scanFrom hrest
      exact ⟨0, ⟨[], [c], cs, rfl, .nil, .punctuation htoken, hafter, rfl⟩, rfl⟩
    | cons first left =>
      obtain ⟨rfl, rfl⟩ := List.cons.inj (Except.ok.inj h)
      obtain ⟨offset, ⟨before, spelling, after, rfl, hbefore, hspells, hafter, rfl⟩, hstart⟩ :=
        ih hrest
      refine ⟨_, ⟨c :: before, spelling, after, rfl, ?_, hspells, hafter, rfl⟩, ?_⟩
      · exact tokenized_of_scans (hbefore.scans.punctuation htoken (isBlank_of_punctuation? htoken))
      · rw [hstart, byteSize_cons, Nat.add_assoc]
  | case4 pos c cs hblank htoken hstart word stop =>
    rename_i ih
    obtain ⟨hword, hsplit⟩ := word_of_isWordStart hstart cs
    have hnext := noWordChar_dropWhile cs
    obtain ⟨rest, hrest, h⟩ := except_bind_eq_ok.mp h
    cases left with
    | nil =>
      obtain ⟨rfl, rfl⟩ := List.cons.inj (Except.ok.inj h)
      exact ⟨0, ⟨[], _, _, hsplit, .nil, hword.spells, tokenized_of_scanFrom hrest, rfl⟩, rfl⟩
    | cons first left =>
      obtain ⟨rfl, rfl⟩ := List.cons.inj (Except.ok.inj h)
      obtain ⟨offset, ⟨before, spelling, after, hdrop, hbefore, hspells, hafter, rfl⟩, hoffset⟩ :=
        ih hrest
      rw [hdrop] at hsplit hnext
      refine ⟨_, ⟨word.toList ++ before, spelling, after, ?_, ?_, hspells, hafter, rfl⟩, ?_⟩
      · rw [hsplit, List.append_assoc]
      · exact tokenized_of_scans (hbefore.scans.word word hword hnext.of_append)
      · rw [hoffset, byteSize_append, byteSize_toList, Nat.add_assoc]
  | case5 pos c cs hblank htoken hstart => cases h

/-- The first character that belongs to no token is found, whatever comes after it. -/
theorem scanFrom_bad {bad : BadChar} (h : scanFrom pos cs = .error bad) :
    ∃ before after, cs = before ++ bad.char :: after ∧ (∃ ts, Tokenized before ts) ∧
      bad.offset = pos + byteSize before ∧
      ∀ after', scanFrom pos (before ++ bad.char :: after') = .error bad := by
  fun_induction scanFrom pos cs with
  | case1 pos => cases h
  | case2 pos c cs hblank ih =>
    obtain ⟨before, after, rfl, ⟨ts, hbefore⟩, hoffset, hbad⟩ := ih h
    refine ⟨c :: before, after, rfl, ⟨ts, .blank hblank hbefore⟩, ?_, fun after' => ?_⟩
    · rw [hoffset, byteSize_cons, Nat.add_assoc]
    · rw [List.cons_append, scanFrom, if_pos hblank, hbad]
  | case3 pos c cs hblank token htoken ih =>
    obtain hrest | ⟨_, _, h⟩ := except_bind_eq_error.mp h
    · obtain ⟨before, after, rfl, ⟨ts, hbefore⟩, hoffset, hbad⟩ := ih hrest
      have htokens := hbefore.scans.punctuation htoken (isBlank_of_punctuation? htoken)
      refine ⟨c :: before, after, rfl, ⟨_, tokenized_of_scans htokens⟩, ?_, fun after' => ?_⟩
      · rw [hoffset, byteSize_cons, Nat.add_assoc]
      · rw [List.cons_append, scanFrom, if_neg hblank]
        simp only [htoken, hbad]
        rfl
    · cases h
  | case4 pos c cs hblank htoken hstart word stop =>
    rename_i ih
    obtain ⟨hword, hsplit⟩ := word_of_isWordStart hstart cs
    have hnext := noWordChar_dropWhile cs
    obtain hrest | ⟨_, _, h⟩ := except_bind_eq_error.mp h
    · obtain ⟨before, after, hdrop, ⟨ts, hbefore⟩, hoffset, hbad⟩ := ih hrest
      rw [hdrop] at hsplit hnext
      have htokens := hbefore.scans.word word hword hnext.of_append
      refine ⟨word.toList ++ before, after, ?_, ⟨_, tokenized_of_scans htokens⟩, ?_,
        fun after' => ?_⟩
      · rw [hsplit, List.append_assoc]
      · rw [hoffset, byteSize_append, byteSize_toList, Nat.add_assoc]
      · have hnext' : NoWordChar (before ++ bad.char :: after') := by
          intro d hd
          exact hnext d (by cases before <;> exact hd)
        rw [List.append_assoc, scanFrom_word word hword hnext', hbad]
        rfl
    · cases h
  | case5 pos c cs hblank htoken hstart =>
    obtain rfl := Except.error.inj h
    refine ⟨[], cs, rfl, ⟨[], .nil⟩, rfl, fun after' => ?_⟩
    rw [List.nil_append, scanFrom, if_neg hblank]
    simp only [htoken, if_neg hstart]

/-- No token goes over the first character that belongs to none. -/
theorem not_tokenized_of_bad {bad : BadChar} {before : List Char}
    (h : scanFrom 0 (before ++ [bad.char]) = .error bad) (ts : List Token) :
    ¬Tokenized (before ++ [bad.char]) ts := by
  intro htokens
  obtain ⟨lexemes, hscan, -⟩ := htokens.scans 0
  cases hscan.symm.trans h

end Lexeme

namespace TypeExpr

/-! ## The offset of an error -/

/-- The tokens of a type whose words are names. -/
def IsValid (ts : List Token) : Prop := IsType ts ∧ Named ts

/-- More tokens make a valid type of these. -/
def Begins (ts : List Token) : Prop := ∃ rest, IsValid (ts ++ rest)

/-- Tokens of a text are the beginning of a valid type if no names have to follow. -/
theorem isValid_of_wordless {cs : List Char} {before after suffix : List Token}
    (htokens : Tokenized cs (before ++ after)) (hsuffix : Wordless suffix)
    (h : IsType (before ++ suffix)) : IsValid (before ++ suffix) := by
  refine ⟨h, fun name hname => ?_⟩
  obtain hname | hname := List.mem_append.mp hname
  · exact htokens.isName (List.mem_append_left after hname)
  · exact absurd hname (hsuffix name)

theorem offsetOf_zero (lexemes : List Lexeme) (size : Nat) : offsetOf lexemes size 0 = size := by
  simp [offsetOf]

/-- The first token that is unread stands at the offset that is reported. -/
theorem standsAt_offsetOf {text : String} {lexemes : List Lexeme} {before after : List Token}
    {t : Token} (hscan : Lexeme.scan text = .ok lexemes)
    (h : lexemes.map (·.token) = before ++ t :: after) (size : Nat) :
    StandsAt text.toList before t after (offsetOf lexemes size (t :: after).length) := by
  obtain ⟨left, rest, rfl, rfl, hrest⟩ := List.map_eq_append_iff.mp h
  obtain ⟨lexeme, right, rfl, rfl, rfl⟩ := List.map_eq_cons_iff.mp hrest
  obtain ⟨offset, hstands, hstart⟩ := Lexeme.standsAt_of_scanFrom hscan
  have hoffset : offsetOf (left ++ lexeme :: right) size (right.length + 1) = offset := by
    simp [offsetOf, hstart]
  rw [List.length_cons, List.length_map, hoffset]
  exact hstands

/-- A text with tokens is refused where the reader of its tokens stops. -/
theorem parse_eq_error {text : String} {lexemes : List Lexeme} {error : ParseError}
    (hscan : Lexeme.scan text = .ok lexemes) (h : parse text = .error error) :
    ∃ stop, ofTokens (lexemes.map (·.token)) = .error stop ∧
      error.offset = offsetOf lexemes text.utf8ByteSize stop.unread := by
  rw [parse] at h
  simp only [hscan] at h
  split at h
  · next stop hstop => exact ⟨stop, hstop, by rw [← Except.error.inj h]⟩
  · cases h

/-- **Syntax errors point at the first wrong token.** If a text with the tokens `ts` is refused, its
error is at the first token that does not go on with the beginning of a valid type, or at the end of
the text if all its tokens are such a beginning. A text that has no tokens is refused at the first
character that fits into none, whatever comes before it. -/
theorem syntax_error_offset (text : String) :
    (∀ ts error, Tokenized text.toList ts → NoBareGeneric ts → parse text = .error error →
      (∃ before t after, ts = before ++ t :: after ∧ Begins before ∧ ¬Begins (before ++ [t]) ∧
        StandsAt text.toList before t after error.offset) ∨
      (∃ t rest, IsValid (ts ++ t :: rest)) ∧ error.offset = text.utf8ByteSize) ∧
    ((∀ ts, ¬Tokenized text.toList ts) → ∃ before c after, text.toList = before ++ c :: after ∧
      (∃ ts, Tokenized before ts) ∧ (∀ ts, ¬Tokenized (before ++ [c]) ts) ∧
      parse text = .error ⟨.badCharacter c, byteSize before⟩) := by
  constructor
  · intro ts error htokens hbare herror
    obtain ⟨lexemes, hscan, rfl⟩ := scan_tokenized.mpr htokens
    obtain ⟨stop, hstop, hoffset⟩ := parse_eq_error hscan herror
    obtain ⟨before, after, hsplit, hunread, ⟨suffix, hsuffix, hwhole⟩, hstuck⟩ :=
      stops_of_ofTokens hbare hstop
    have hvalid := isValid_of_wordless (hsplit ▸ htokens) hsuffix hwhole
    rw [hoffset, ← hunread]
    cases after with
    | nil =>
      rw [hsplit, List.append_nil] at hstop ⊢
      refine .inr ⟨?_, offsetOf_zero _ _⟩
      cases suffix with
      | nil =>
        -- Then the tokens are a type already, and would have been read.
        obtain ⟨d, hd⟩ := hwhole
        cases hstop.symm.trans (ofTokens_eq_ok.mpr ⟨d, hd.trans (List.append_nil _), rfl⟩)
      | cons t suffix => exact ⟨t, suffix, hvalid⟩
    | cons t after =>
      refine .inl ⟨before, t, after, hsplit, ⟨suffix, hvalid⟩, ?_, standsAt_offsetOf hscan hsplit _⟩
      rintro ⟨rest, htype, -⟩
      rw [List.append_assoc] at htype
      exact hstuck t after rfl rest htype
  · intro hnone
    cases hscan : Lexeme.scan text with
    | ok lexemes => exact absurd (scan_tokenized.mp ⟨lexemes, hscan, rfl⟩) (hnone _)
    | error bad =>
      obtain ⟨before, after, hsplit, hbefore, hoffset, hbad⟩ := Lexeme.scanFrom_bad hscan
      refine ⟨before, bad.char, after, hsplit, hbefore, Lexeme.not_tokenized_of_bad (hbad []), ?_⟩
      rw [parse, hscan, ← Nat.zero_add (byteSize before), ← hoffset]

/-- The semicolon in `struct{a *;}` stands where a type has to begin. In `f64; 9` the semicolon does
not go on with a type, but the digit is no part of a token at all. -/
theorem syntax_error_offset_semicolons :
    (∃ before t after, [.struct, .openBrace, .word "a", .star, .semicolon, .closeBrace] =
        before ++ t :: after ∧ Begins before ∧ ¬Begins (before ++ [t]) ∧
      StandsAt "struct\x7ba *;\x7d".toList before t after 10) ∧
    ∃ before after, "f64; 9".toList = before ++ '9' :: after ∧ (∃ ts, Tokenized before ts) ∧
      byteSize before = 5 := by
  constructor
  · have hparse : parse "struct\x7ba *;\x7d" = .error ⟨.expectedType (some .semicolon), 10⟩ := by
      decide +kernel
    have hscan : ∃ lexemes, Lexeme.scan "struct\x7ba *;\x7d" = .ok lexemes ∧
        lexemes.map (·.token) =
          [.struct, .openBrace, .word "a", .star, .semicolon, .closeBrace] :=
      ⟨[⟨.struct, 0, 6⟩, ⟨.openBrace, 6, 7⟩, ⟨.word "a", 7, 8⟩, ⟨.star, 9, 10⟩,
        ⟨.semicolon, 10, 11⟩, ⟨.closeBrace, 11, 12⟩], by decide +kernel, rfl⟩
    have hbare : NoBareGeneric [.struct, .openBrace, .word "a", .star, .semicolon, .closeBrace] :=
      fun name h => absurd (h.subset (by simp : Token.openAngle ∈ _)) (by decide)
    obtain hwrong | ⟨-, hend⟩ :=
      (syntax_error_offset _).1 _ _ (scan_tokenized.mp hscan) hbare hparse
    · exact hwrong
    · exact absurd hend (by decide)
  · have hparse : parse "f64; 9" = .error ⟨.badCharacter '9', 5⟩ := by decide +kernel
    have hscan : Lexeme.scan "f64; 9" = .error ⟨'9', 5⟩ := by decide +kernel
    have hnone : ∀ ts, ¬Tokenized "f64; 9".toList ts := by
      intro ts htokens
      obtain ⟨lexemes, hok, -⟩ := scan_tokenized.mpr htokens
      cases hok.symm.trans hscan
    obtain ⟨before, c, after, hsplit, hbefore, -, herror⟩ := (syntax_error_offset _).2 hnone
    obtain ⟨hc, hsize⟩ := ParseError.mk.inj (Except.error.inj (herror.symm.trans hparse))
    obtain rfl := Complaint.badCharacter.inj hc
    exact ⟨before, after, hsplit, hbefore, hsize⟩

end TypeExpr

end RuleTypes
