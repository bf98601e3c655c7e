import RuleTypes.Proofs.Steps
import RuleTypes.Proofs.TypeExpr.Scanning

/-!
# Tokens by longest match

What it is to cut a text into tokens, said without the scanner: the text is put together from blanks
and spellings of tokens, and no token is spelled by more of the text from the same place on
(`Tokenized`). The scanner finds the tokens of a text exactly if it has them (`Tokenized.scans`,
`tokenized_of_scanFrom`), so a text has at most one sequence of tokens.
-/

namespace RuleTypes

/-- How a token is spelled. A word of the notation is never a name. -/
inductive Spells : List Char → Token → Prop
  | punctuation {c : Char} {token : Token} (h : Token.punctuation? c = some token) :
      Spells [c] token
  | func : Spells "func".toList .func
  | struct : Spells "struct".toList .struct
  | auto : Spells "auto".toList .auto
  | word {name : String} (h : IsName name) : Spells name.toList (.word name)

/-- The characters are blanks and spellings of the tokens, each the longest that stands there. -/
inductive Tokenized : List Char → List Token → Prop
  | nil : Tokenized [] []
  | blank {c : Char} {cs : List Char} {ts : List Token} (hc : Lexeme.isBlank c = true)
      (h : Tokenized cs ts) : Tokenized (c :: cs) ts
  | token {spelling rest : List Char} {token : Token} {ts : List Token}
      (hspells : Spells spelling token)
      (hlongest : ∀ other rest' token', other ++ rest' = spelling ++ rest → Spells other token' →
        other.length ≤ spelling.length)
      (h : Tokenized rest ts) : Tokenized (spelling ++ rest) (token :: ts)

/-! ## Spellings -/

/-- Identifiers spell words of the notation or names. -/
theorem IsIdentifier.spells {name : String} (h : IsIdentifier name) :
    Spells name.toList (.ofWord name) := by
  unfold Token.ofWord
  split_ifs with hfunc hstruct hauto
  · exact hfunc ▸ .func
  · exact hstruct ▸ .struct
  · exact hauto ▸ .auto
  · exact .word ⟨h, by simp [isReserved, reservedWords, hfunc, hstruct, hauto]⟩

theorem Spells.cases {cs : List Char} {token : Token} (h : Spells cs token) :
    (∃ c, cs = [c] ∧ Token.punctuation? c = some token) ∨
      ∃ name, cs = name.toList ∧ IsIdentifier name ∧ token = .ofWord name := by
  cases h with
  | punctuation h => exact .inl ⟨_, rfl, h⟩
  | func => exact .inr ⟨"func", rfl, (isIdentifier_iff rfl).mpr ⟨rfl, rfl⟩, rfl⟩
  | struct => exact .inr ⟨"struct", rfl, (isIdentifier_iff rfl).mpr ⟨rfl, rfl⟩, rfl⟩
  | auto => exact .inr ⟨"auto", rfl, (isIdentifier_iff rfl).mpr ⟨rfl, rfl⟩, rfl⟩
  | word h => exact .inr ⟨_, rfl, h.identifier, h.ofWord.symm⟩

theorem isBlank_of_punctuation? {c : Char} {token : Token}
    (h : Token.punctuation? c = some token) : Lexeme.isBlank c = false := by
  unfold Token.punctuation? at h
  split at h
  iterate 12 · rfl
  cases h

/-- A mark of punctuation begins no longer spelling. -/
theorem length_spelling_of_punctuation? {c : Char} {token token' : Token}
    {cs other rest : List Char} (hc : Token.punctuation? c = some token)
    (h : other ++ rest = c :: cs) (hspells : Spells other token') : other.length ≤ 1 := by
  obtain ⟨d, rfl, -⟩ | ⟨name, rfl, ⟨d, ds, hname, hstart, -⟩, -⟩ := hspells.cases
  · exact le_rfl
  · rw [hname, List.cons_append] at h
    obtain rfl := (List.cons.inj h).1
    simp [isWordStart_of_punctuation? hc] at hstart

/-- After its first character, a spelling goes at most as far as there are word characters. -/
theorem length_spelling_le {c : Char} {token : Token} {cs other rest : List Char}
    (h : other ++ rest = c :: cs) (hspells : Spells other token) :
    other.length ≤ (c :: cs.takeWhile Lexeme.isWordChar).length := by
  obtain ⟨d, rfl, hd⟩ | ⟨name, rfl, ⟨d, ds, hname, -, hchars⟩, -⟩ := hspells.cases
  · exact Nat.succ_le_succ (Nat.zero_le _)
  · rw [hname, List.cons_append] at h
    obtain ⟨rfl, rfl⟩ := List.cons.inj h
    rw [hname, List.takeWhile_append_of_pos hchars]
    simp

/-! ## The scanner -/

/-- The tokens that the scanner finds are those of the text. -/
theorem tokenized_of_scanFrom {pos : Nat} {cs : List Char} {lexemes : List Lexeme}
    (h : Lexeme.scanFrom pos cs = .ok lexemes) : Tokenized cs (lexemes.map (·.token)) := by
  fun_induction Lexeme.scanFrom pos cs generalizing lexemes with
  | case1 pos =>
    obtain rfl := Except.ok.inj h
    exact .nil
  | case2 pos c cs hblank ih => exact .blank hblank (ih h)
  | case3 pos c cs hblank token htoken ih =>
    obtain ⟨rest, hrest, h⟩ := except_bind_eq_ok.mp h
    obtain rfl := Except.ok.inj h
    change Tokenized ([c] ++ cs) _
    exact .token (.punctuation htoken) (fun _ _ _ => length_spelling_of_punctuation? htoken)
      (ih hrest)
  | case4 pos c cs hblank htoken hstart word stop =>
    rename_i ih
    obtain ⟨rest, hrest, h⟩ := except_bind_eq_ok.mp h
    obtain rfl := Except.ok.inj h
    obtain ⟨hword, hsplit⟩ := Lexeme.word_of_isWordStart hstart cs
    rw [hsplit]
    refine .token hword.spells (fun other rest' token' hother hspells => ?_) (ih hrest)
    rw [String.toList_ofList]
    exact length_spelling_le (hother.trans hsplit.symm) hspells
  | case5 pos c cs hblank htoken hstart => cases h

/-- A word that cannot be longer is not followed by a word character. -/
theorem noWordChar_of_longest {name : String} {rest : List Char} (hname : IsIdentifier name)
    (hlongest : ∀ other rest' token', other ++ rest' = name.toList ++ rest → Spells other token' →
      other.length ≤ name.toList.length) : NoWordChar rest := by
  intro d hd
  obtain ⟨rest, rfl⟩ := List.head?_eq_some_iff.mp hd
  rw [← Bool.not_eq_true]
  intro hword
  obtain ⟨c, cs, hchars, hstart, hcs⟩ := hname
  have hlonger : IsIdentifier (String.ofList (name.toList ++ [d])) := by
    refine ⟨c, cs ++ [d], by rw [String.toList_ofList, hchars, List.cons_append], hstart, ?_⟩
    simpa [or_imp, forall_and] using ⟨hcs, hword⟩
  have hlength := hlongest _ rest _ (by simp) hlonger.spells
  rw [String.toList_ofList, List.length_append, List.length_singleton] at hlength
  exact Nat.not_succ_le_self _ hlength

/-- **The scanner finds the tokens of a text.** -/
theorem Tokenized.scans {cs : List Char} {ts : List Token} (h : Tokenized cs ts) : Scans cs ts := by
  induction h with
  | nil => exact .nil
  | blank hc _ ih => exact ih.blank hc
  | token hspells hlongest _ ih =>
    obtain ⟨c, rfl, hc⟩ | ⟨name, rfl, hname, rfl⟩ := hspells.cases
    · exact ih.punctuation hc (isBlank_of_punctuation? hc)
    · exact ih.word name hname (noWordChar_of_longest hname hlongest)

theorem scan_tokenized {text : String} {ts : List Token} :
    (∃ lexemes, Lexeme.scan text = .ok lexemes ∧ lexemes.map (·.token) = ts) ↔
      Tokenized text.toList ts := by
  constructor
  · rintro ⟨lexemes, hscan, rfl⟩
    exact tokenized_of_scanFrom hscan
  · exact fun h => h.scans 0

/-- Only names are scanned as names. -/
theorem Tokenized.isName {cs : List Char} {ts : List Token} (h : Tokenized cs ts) {name : String}
    (hname : .word name ∈ ts) : IsName name := by
  induction h with
  | nil => cases hname
  | blank _ _ ih => exact ih hname
  | token hspells _ _ ih =>
    cases hname with
    | tail _ hname => exact ih hname
    | head =>
      cases hspells with
      | word h => exact h
      | punctuation h =>
        unfold Token.punctuation? at h
        split at h <;> cases h

end RuleTypes
