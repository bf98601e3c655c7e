import Mathlib.Data.List.TakeWhile
import RuleTypes.TypeExpr.Basic
import RuleTypes.TypeExpr.Token

/-!
# Scanning canonical texts

The canonical text of a type is scanned into the tokens of the type (`scans_text`), as long as its
names are names: identifiers that are no words of the notation. What follows the text may be
anything that does not go on with a word.
-/

namespace RuleTypes

/-! ## Names -/

/-- A letter or underscore, and then letters, digits and underscores. -/
def IsIdentifier (name : String) : Prop :=
  ∃ c cs, name.toList = c :: cs ∧ Lexeme.isWordStart c = true ∧
    ∀ d ∈ cs, Lexeme.isWordChar d = true

/-- An identifier that is no word of the notation. -/
structure IsName (name : String) : Prop where
  identifier : IsIdentifier name
  free : isReserved name = false

theorem isIdentifier_iff {name : String} {c : Char} {cs : List Char} (h : name.toList = c :: cs) :
    IsIdentifier name ↔ Lexeme.isWordStart c = true ∧ cs.all Lexeme.isWordChar = true := by
  constructor
  · rintro ⟨c', cs', hcs, hstart, hrest⟩
    obtain ⟨rfl, rfl⟩ := List.cons.inj (h.symm.trans hcs)
    exact ⟨hstart, List.all_eq_true.mpr hrest⟩
  · rintro ⟨hstart, hrest⟩
    exact ⟨c, cs, h, hstart, List.all_eq_true.mp hrest⟩

instance IsIdentifier.decidable (name : String) : Decidable (IsIdentifier name) :=
  match h : name.toList with
  | [] => isFalse fun ⟨c, cs, hcs, _⟩ => List.cons_ne_nil c cs (hcs.symm.trans h)
  | _ :: _ => decidable_of_iff _ (isIdentifier_iff h).symm

instance IsName.decidable (name : String) : Decidable (IsName name) :=
  decidable_of_iff (IsIdentifier name ∧ isReserved name = false)
    ⟨fun h => ⟨h.1, h.2⟩, fun h => ⟨h.identifier, h.free⟩⟩

theorem IsName.ofWord {name : String} (h : IsName name) : Token.ofWord name = .word name := by
  have hfree := h.free
  simp only [isReserved, reservedWords, List.contains_cons, List.contains_nil, Bool.or_false,
    Bool.or_eq_false_iff, beq_eq_false_iff_ne] at hfree
  rw [Token.ofWord, if_neg hfree.1, if_neg hfree.2.1, if_neg hfree.2.2]

namespace TypeExpr

mutual

/-- All names in the type are names, and generics have arguments. -/
def Canonical : TypeExpr → Prop
  | auto => True
  | named name => IsName name
  | pointer base => base.Canonical
  | slice element => element.Canonical
  | generic name args => IsName name ∧ args ≠ [] ∧ AllCanonical args
  | function params none => AllCanonical params
  | function params (some result) => AllCanonical params ∧ result.Canonical
  | record fields => FieldsCanonical fields

/-- All types of a list are canonical. -/
def AllCanonical : List TypeExpr → Prop
  | [] => True
  | e :: es => e.Canonical ∧ AllCanonical es

/-- All fields have names and canonical types. -/
def FieldsCanonical : List (String × TypeExpr) → Prop
  | [] => True
  | (name, e) :: fields => IsName name ∧ e.Canonical ∧ FieldsCanonical fields

end

mutual

/-- The tokens that write a type. -/
def tokens : TypeExpr → List Token
  | auto => [.auto]
  | named name => [.word name]
  | pointer base => .star :: base.tokens
  | slice element => .openBracket :: .closeBracket :: element.tokens
  | generic name args => .word name :: .openAngle :: (itemTokens args ++ [.closeAngle])
  | function params none => .func :: .openParen :: (itemTokens params ++ [.closeParen])
  | function params (some result) =>
    .func :: .openParen :: (itemTokens params ++ .closeParen :: .colon :: result.tokens)
  | record fields => .struct :: .openBrace :: (fieldTokens fields ++ [.closeBrace])

/-- The tokens that write types between commas. -/
def itemTokens : List TypeExpr → List Token
  | [] => []
  | [e] => e.tokens
  | e :: e' :: es => e.tokens ++ .comma :: itemTokens (e' :: es)

/-- The tokens that write fields between semicolons. -/
def fieldTokens : List (String × TypeExpr) → List Token
  | [] => []
  | [(name, e)] => .word name :: e.tokens
  | (name, e) :: field :: fields =>
    .word name :: (e.tokens ++ .semicolon :: fieldTokens (field :: fields))

end

end TypeExpr

/-! ## Scanning -/

/-- The characters are scanned into the tokens, wherever they stand. -/
def Scans (cs : List Char) (ts : List Token) : Prop :=
  ∀ pos, ∃ lexemes, Lexeme.scanFrom pos cs = .ok lexemes ∧ lexemes.map (·.token) = ts

/-- The characters do not go on with a word. -/
def NoWordChar (cs : List Char) : Prop := ∀ c ∈ cs.head?, Lexeme.isWordChar c = false

theorem isWordStart_of_punctuation? {c : Char} {token : Token}
    (h : Token.punctuation? c = some token) : Lexeme.isWordStart c = false := by
  unfold Token.punctuation? at h
  split at h
  iterate 12 · rfl
  cases h

theorem isWordStart_of_isBlank {c : Char} (h : Lexeme.isBlank c = true) :
    Lexeme.isWordStart c = false := by
  simp only [Lexeme.isBlank, Bool.or_eq_true, beq_iff_eq] at h
  obtain ((rfl | rfl) | rfl) | rfl := h
  all_goals rfl

/-- The word that begins with a character, and what follows it. -/
theorem Lexeme.word_of_isWordStart {c : Char} (hstart : isWordStart c = true) (cs : List Char) :
    IsIdentifier (String.ofList (c :: cs.takeWhile isWordChar)) ∧
      c :: cs = (String.ofList (c :: cs.takeWhile isWordChar)).toList ++
        cs.dropWhile isWordChar := by
  rw [String.toList_ofList, List.cons_append, List.takeWhile_append_dropWhile]
  exact ⟨⟨c, _, String.toList_ofList, hstart, fun d hd => List.mem_takeWhile_imp hd⟩, rfl⟩

/-- A word ends where no word character follows. -/
theorem Lexeme.scanFrom_word (name : String) (hname : IsIdentifier name) {cs : List Char}
    (hcs : NoWordChar cs) (pos : Nat) :
    scanFrom pos (name.toList ++ cs) = (do
      let rest ← scanFrom (pos + name.utf8ByteSize) cs
      return ⟨.ofWord name, pos, pos + name.utf8ByteSize⟩ :: rest) := by
  obtain ⟨c, rest, hchars, hstart, hrest⟩ := hname
  have htake : (rest ++ cs).takeWhile isWordChar = rest := by
    rw [List.takeWhile_append_of_pos hrest]
    cases cs with
    | nil => exact List.append_nil rest
    | cons d cs => rw [List.takeWhile_cons_of_neg (by simp [hcs d rfl]), List.append_nil]
  have hdrop : (rest ++ cs).dropWhile isWordChar = cs := by
    rw [List.dropWhile_append_of_pos hrest]
    cases cs with
    | nil => rfl
    | cons d cs => rw [List.dropWhile_cons_of_neg (by simp [hcs d rfl])]
  have hword : String.ofList (c :: rest) = name := by rw [← hchars, String.ofList_toList]
  have hblank : isBlank c = false := by
    by_contra hblank
    simp [isWordStart_of_isBlank (by simpa using hblank)] at hstart
  have hpunctuation : Token.punctuation? c = none := by
    by_contra hsome
    obtain ⟨token, htoken⟩ := Option.ne_none_iff_exists'.mp hsome
    simp [isWordStart_of_punctuation? htoken] at hstart
  rw [hchars, List.cons_append, scanFrom, if_neg (by simp [hblank])]
  simp only [hpunctuation, if_pos hstart, htake, hdrop, hword]

namespace Scans

variable {cs : List Char} {ts : List Token} {c : Char}

theorem nil : Scans [] [] := fun pos => ⟨[], by rw [Lexeme.scanFrom], rfl⟩

theorem blank (hc : Lexeme.isBlank c = true) (h : Scans cs ts) : Scans (c :: cs) ts := fun pos => by
  obtain ⟨lexemes, hscan, htokens⟩ := h (pos + c.utf8Size)
  exact ⟨lexemes, by rw [Lexeme.scanFrom, if_pos hc, hscan], htokens⟩

theorem punctuation {token : Token} (hc : Token.punctuation? c = some token)
    (hblank : Lexeme.isBlank c = false) (h : Scans cs ts) : Scans (c :: cs) (token :: ts) := by
  intro pos
  obtain ⟨lexemes, hscan, htokens⟩ := h (pos + c.utf8Size)
  refine ⟨⟨token, pos, pos + c.utf8Size⟩ :: lexemes, ?_, by rw [List.map_cons, htokens]⟩
  rw [Lexeme.scanFrom, if_neg (by simp [hblank])]
  simp only [hc, hscan]
  rfl

theorem word (name : String) (hname : IsIdentifier name) (hcs : NoWordChar cs)
    (h : Scans cs ts) : Scans (name.toList ++ cs) (.ofWord name :: ts) := by
  intro pos
  obtain ⟨lexemes, hscan, htokens⟩ := h (pos + name.utf8ByteSize)
  refine ⟨⟨.ofWord name, pos, pos + name.utf8ByteSize⟩ :: lexemes, ?_,
    by rw [List.map_cons, htokens]⟩
  rw [Lexeme.scanFrom_word name hname hcs, hscan]
  rfl

theorem ofName {name : String} (hname : IsName name) (hcs : NoWordChar cs) (h : Scans cs ts) :
    Scans (name.toList ++ cs) (.word name :: ts) :=
  hname.ofWord ▸ h.word name hname.identifier hcs

end Scans

/-! ## Canonical texts -/

namespace TypeExpr

variable {cs : List Char} {ts : List Token}

theorem noWordChar_nil : NoWordChar [] := fun _ h => nomatch h

theorem noWordChar_cons {c : Char} (h : Lexeme.isWordChar c = false) : NoWordChar (c :: cs) := by
  rintro d ⟨⟩
  exact h

mutual

/-- **A canonical text is scanned into the tokens of its type.** -/
theorem scans_text : ∀ (e : TypeExpr) {cs ts}, e.Canonical → NoWordChar cs → Scans cs ts →
    Scans (e.text.toList ++ cs) (e.tokens ++ ts)
  | auto, cs, ts, _, hcs, h => by
    rw [text, tokens]
    exact Scans.word "auto" ((isIdentifier_iff rfl).mpr ⟨rfl, rfl⟩) hcs h
  | named name, cs, ts, he, hcs, h => by
    rw [text, tokens]
    exact .ofName he hcs h
  | pointer base, cs, ts, he, hcs, h => by
    rw [text, tokens, String.toList_append]
    exact .punctuation (c := '*') rfl rfl (scans_text base he hcs h)
  | slice element, cs, ts, he, hcs, h => by
    rw [text, tokens, String.toList_append]
    exact .punctuation (c := '[') rfl rfl
      (.punctuation (c := ']') rfl rfl (scans_text element he hcs h))
  | generic name args, cs, ts, he, hcs, h => by
    obtain ⟨hname, -, hargs⟩ := he
    simp only [text, tokens, String.toList_append, List.append_assoc, List.cons_append]
    refine .ofName hname (noWordChar_cons rfl) (.punctuation (c := '<') rfl rfl ?_)
    exact scans_items args hargs (noWordChar_cons rfl) (.punctuation (c := '>') rfl rfl h)
  | function params none, cs, ts, he, hcs, h => by
    simp only [text, tokens, String.toList_append, List.append_assoc, List.cons_append]
    refine Scans.word "func" ((isIdentifier_iff rfl).mpr ⟨rfl, rfl⟩) (noWordChar_cons rfl)
      (.punctuation (c := '(') rfl rfl ?_)
    exact scans_items params he (noWordChar_cons rfl) (.punctuation (c := ')') rfl rfl h)
  | function params (some result), cs, ts, he, hcs, h => by
    obtain ⟨hparams, hresult⟩ := he
    simp only [text, tokens, String.toList_append, List.append_assoc, List.cons_append]
    refine Scans.word "func" ((isIdentifier_iff rfl).mpr ⟨rfl, rfl⟩) (noWordChar_cons rfl)
      (.punctuation (c := '(') rfl rfl ?_)
    refine scans_items params hparams (noWordChar_cons rfl) (.punctuation (c := ')') rfl rfl ?_)
    exact .punctuation (c := ':') rfl rfl (scans_text result hresult hcs h)
  | record fields, cs, ts, he, hcs, h => by
    simp only [text, tokens, String.toList_append, List.append_assoc, List.cons_append]
    refine Scans.word "struct" ((isIdentifier_iff rfl).mpr ⟨rfl, rfl⟩) (noWordChar_cons rfl)
      (.punctuation (c := '\x7b') rfl rfl ?_)
    exact scans_fields fields he (noWordChar_cons rfl) (.punctuation (c := '\x7d') rfl rfl h)

theorem scans_items : ∀ (es : List TypeExpr) {cs ts}, AllCanonical es → NoWordChar cs →
    Scans cs ts → Scans ((",".intercalate (texts es)).toList ++ cs) (itemTokens es ++ ts)
  | [], cs, ts, _, _, h => by
    rw [texts, String.intercalate_nil, itemTokens]
    exact h
  | [e], cs, ts, he, hcs, h => by
    rw [texts, texts, String.intercalate_singleton, itemTokens]
    exact scans_text e he.1 hcs h
  | e :: e' :: es, cs, ts, he, hcs, h => by
    rw [texts, texts, String.intercalate_cons_cons, ← texts, itemTokens]
    simp only [String.toList_append, List.append_assoc, List.cons_append]
    exact scans_text e he.1 (noWordChar_cons rfl)
      (.punctuation (c := ',') rfl rfl (scans_items (e' :: es) he.2 hcs h))

theorem scans_fields : ∀ (fields : List (String × TypeExpr)) {cs ts}, FieldsCanonical fields →
    NoWordChar cs → Scans cs ts →
    Scans ((";".intercalate (fieldTexts fields)).toList ++ cs) (fieldTokens fields ++ ts)
  | [], cs, ts, _, _, h => by
    rw [fieldTexts, String.intercalate_nil, fieldTokens]
    exact h
  | [(name, e)], cs, ts, he, hcs, h => by
    obtain ⟨hname, hcanonical, -⟩ := he
    rw [fieldTexts, fieldTexts, String.intercalate_singleton, fieldTokens]
    simp only [String.toList_append, List.append_assoc, List.cons_append]
    exact .ofName hname (noWordChar_cons rfl)
      (.blank (c := ' ') rfl (scans_text e hcanonical hcs h))
  | (name, e) :: field :: fields, cs, ts, he, hcs, h => by
    obtain ⟨hname, hcanonical, hfields⟩ := he
    have hrest := scans_fields (field :: fields) hfields hcs h
    obtain ⟨name', e'⟩ := field
    rw [fieldTexts, fieldTexts, String.intercalate_cons_cons, ← fieldTexts, fieldTokens]
    simp only [String.toList_append, List.append_assoc, List.cons_append]
    exact .ofName hname (noWordChar_cons rfl) (.blank (c := ' ') rfl
      (scans_text e hcanonical (noWordChar_cons rfl) (.punctuation (c := ';') rfl rfl hrest)))

end

end TypeExpr

end RuleTypes
