import Mathlib.Data.List.Chain
import RuleTypes.Proofs.TypeExpr.ErrorOffsets

/-!
# The layout of a text does not matter

Tokens may be written with any blanks before, between and after them, as long as two words do not
run together (`Spaced`). From such a text the scanner gets back the tokens, each with the range of
bytes that it takes (`scanFrom_written`). So two layouts of the same tokens are read as the same
type, or refused with the same complaint (`layout_irrelevant`).
-/

namespace RuleTypes

open TypeExpr

/-! ## Spellings -/

namespace Token

/-- How a token is written. -/
def spelling : Token → String
  | func => "func"
  | struct => "struct"
  | auto => "auto"
  | star => "*"
  | openBracket => "["
  | closeBracket => "]"
  | openParen => "("
  | closeParen => ")"
  | openAngle => "<"
  | closeAngle => ">"
  | openBrace => "\x7b"
  | closeBrace => "\x7d"
  | comma => ","
  | semicolon => ";"
  | colon => ":"
  | word name => name

/-- Whether a token is written in word characters. -/
def isWord : Token → Bool
  | func | struct | auto | word _ => true
  | _ => false

theorem spells {t : Token} (h : ∀ name, t = .word name → IsName name) :
    Spells t.spelling.toList t := by
  cases t with
  | func => exact .func
  | struct => exact .struct
  | auto => exact .auto
  | word name => exact .word (h name rfl)
  | star => exact .punctuation (c := '*') rfl
  | openBracket => exact .punctuation (c := '[') rfl
  | closeBracket => exact .punctuation (c := ']') rfl
  | openParen => exact .punctuation (c := '(') rfl
  | closeParen => exact .punctuation (c := ')') rfl
  | openAngle => exact .punctuation (c := '<') rfl
  | closeAngle => exact .punctuation (c := '>') rfl
  | openBrace => exact .punctuation (c := '\x7b') rfl
  | closeBrace => exact .punctuation (c := '\x7d') rfl
  | comma => exact .punctuation (c := ',') rfl
  | semicolon => exact .punctuation (c := ';') rfl
  | colon => exact .punctuation (c := ':') rfl

theorem isWord_ofWord (name : String) : (ofWord name).isWord = true := by
  unfold ofWord
  split_ifs <;> rfl

end Token

theorem isWordChar_of_punctuation? {c : Char} {token : Token}
    (h : Token.punctuation? c = some token) : Lexeme.isWordChar c = false := by
  unfold Token.punctuation? at h
  split at h
  iterate 12 · rfl
  cases h

theorem isWordChar_of_isBlank {c : Char} (h : Lexeme.isBlank c = true) :
    Lexeme.isWordChar c = false := by
  simp only [Lexeme.isBlank, Bool.or_eq_true, beq_iff_eq] at h
  obtain ((rfl | rfl) | rfl) | rfl := h
  all_goals rfl

/-! ## Texts in pieces -/

/-- A token and the blanks before it. -/
structure Piece where
  blanks : String
  token : Token
  deriving DecidableEq, Repr

namespace Piece

/-- The text of pieces, one after another. -/
def written : List Piece → String
  | [] => ""
  | piece :: pieces => piece.blanks ++ piece.token.spelling ++ written pieces

/-- The tokens of pieces that are written from the offset `pos` on, with the bytes they take. -/
def lexemesFrom (pos : Nat) : List Piece → List Lexeme
  | [] => []
  | piece :: pieces =>
    let start := pos + piece.blanks.utf8ByteSize
    let stop := start + piece.token.spelling.utf8ByteSize
    ⟨piece.token, start, stop⟩ :: lexemesFrom stop pieces

end Piece

/-- The text has no other characters than blanks. -/
def IsBlanks (text : String) : Prop := text.toList.all Lexeme.isBlank = true

instance (text : String) : Decidable (IsBlanks text) := inferInstanceAs (Decidable (_ = true))

/-- Tokens with blanks before and after each of them. The words among them are names, and two words
in a row have a blank between them. -/
structure Spaced (pieces : List Piece) (tail : String) : Prop where
  blanks : ∀ piece ∈ pieces, IsBlanks piece.blanks
  tail : IsBlanks tail
  named : Named (pieces.map (·.token))
  apart : pieces.IsChain fun a b => a.token.isWord = true → b.token.isWord = true → b.blanks ≠ ""

namespace Spaced

variable {piece : Piece} {pieces : List Piece} {tail : String}

theorem of_cons (h : Spaced (piece :: pieces) tail) : Spaced pieces tail where
  blanks := (List.forall_mem_cons.mp h.blanks).2
  tail := h.tail
  named := (named_cons.mp h.named).2
  apart := h.apart.tail

theorem spells (h : Spaced (piece :: pieces) tail) :
    Spells piece.token.spelling.toList piece.token :=
  Token.spells (named_cons.mp h.named).1

end Spaced

/-! ## Scanning -/

theorem IsBlanks.noWordChar_append {blanks : String} {cs : List Char} (h : IsBlanks blanks)
    (hcs : blanks = "" → NoWordChar cs) : NoWordChar (blanks.toList ++ cs) := by
  cases hblanks : blanks.toList with
  | nil => exact hcs (String.toList_eq_nil_iff.mp hblanks)
  | cons c rest =>
    have hc : Lexeme.isBlank c = true := List.all_eq_true.mp h c (by simp [hblanks])
    exact noWordChar_cons (isWordChar_of_isBlank hc)

/-- What comes after a word does not go on with it. -/
theorem Spaced.noWordChar {piece : Piece} {pieces : List Piece} {tail : String}
    (h : Spaced (piece :: pieces) tail) (hword : piece.token.isWord = true) :
    NoWordChar (Piece.written pieces ++ tail).toList := by
  cases pieces with
  | nil =>
    have htail : NoWordChar (tail.toList ++ []) := h.tail.noWordChar_append fun _ => noWordChar_nil
    simpa [Piece.written] using htail
  | cons next pieces =>
    have hblanks := (List.forall_mem_cons.mp h.of_cons.blanks).1
    have happart := (List.isChain_cons_cons.mp h.apart).1
    simp only [Piece.written, String.toList_append, List.append_assoc]
    refine hblanks.noWordChar_append fun hempty => ?_
    -- without a blank the next token is a mark of punctuation
    obtain ⟨c, hc, htoken⟩ | ⟨name, -, -, htoken⟩ := h.of_cons.spells.cases
    · rw [hc]
      exact noWordChar_cons (isWordChar_of_punctuation? htoken)
    · have hnext : next.token.isWord = true := htoken ▸ Token.isWord_ofWord name
      exact absurd hempty (happart hword hnext)

namespace Lexeme

/-- Blanks are passed over. -/
theorem scanFrom_blanks {blanks : List Char} (h : blanks.all isBlank = true) (pos : Nat)
    (cs : List Char) : scanFrom pos (blanks ++ cs) = scanFrom (pos + byteSize blanks) cs := by
  induction blanks generalizing pos with
  | nil => rfl
  | cons c blanks ih =>
    obtain ⟨hc, hblanks⟩ := Bool.and_eq_true_iff.mp h
    rw [List.cons_append, scanFrom, if_pos hc, ih hblanks, byteSize_cons, Nat.add_assoc]

/-- A mark of punctuation is read whatever follows it. -/
theorem scanFrom_punctuation {c : Char} {t : Token} (hc : Token.punctuation? c = some t)
    (pos : Nat) (cs : List Char) :
    scanFrom pos (c :: cs) = (do
      let rest ← scanFrom (pos + c.utf8Size) cs
      return ⟨t, pos, pos + c.utf8Size⟩ :: rest) := by
  rw [scanFrom, if_neg (by simp [isBlank_of_punctuation? hc])]
  simp only [hc]

/-- A token is read where it is written, unless it is a word and goes on. -/
theorem scanFrom_spelling {t : Token} (hspells : Spells t.spelling.toList t) {cs : List Char}
    (hcs : t.isWord = true → NoWordChar cs) (pos : Nat) :
    scanFrom pos (t.spelling.toList ++ cs) = (do
      let rest ← scanFrom (pos + t.spelling.utf8ByteSize) cs
      return ⟨t, pos, pos + t.spelling.utf8ByteSize⟩ :: rest) := by
  obtain ⟨c, hc, htoken⟩ | ⟨name, hname, hidentifier, htoken⟩ := hspells.cases
  · have hsize : t.spelling.utf8ByteSize = c.utf8Size := by
      rw [← byteSize_toList, hc, byteSize_cons]
      rfl
    rw [hc, hsize]
    exact scanFrom_punctuation htoken pos cs
  · have hword : t.isWord = true := htoken ▸ Token.isWord_ofWord name
    rw [String.toList_injective hname, scanFrom_word name hidentifier (hcs hword), htoken]

/-- **The scanner gets back the pieces of a text**, with the bytes they take. -/
theorem scanFrom_written {pieces : List Piece} {tail : String} (h : Spaced pieces tail)
    (pos : Nat) :
    scanFrom pos (Piece.written pieces ++ tail).toList = .ok (Piece.lexemesFrom pos pieces) := by
  induction pieces generalizing pos with
  | nil =>
    have htail := scanFrom_blanks h.tail pos []
    rw [List.append_nil, scanFrom] at htail
    simpa [Piece.written, Piece.lexemesFrom] using htail
  | cons piece pieces ih =>
    have hblanks := (List.forall_mem_cons.mp h.blanks).1
    simp only [Piece.written, String.append_assoc]
    rw [String.toList_append, scanFrom_blanks hblanks, byteSize_toList, String.toList_append,
      scanFrom_spelling h.spells h.noWordChar, ih h.of_cons]
    rfl

end Lexeme

theorem Piece.map_token_lexemesFrom (pos : Nat) (pieces : List Piece) :
    (lexemesFrom pos pieces).map (·.token) = pieces.map (·.token) := by
  induction pieces generalizing pos with
  | nil => rfl
  | cons piece pieces ih => exact congrArg (piece.token :: ·) (ih _)

/-- The range of a token begins after what comes before it and ends with its spelling. -/
theorem Piece.getElem?_lexemesFrom (pos : Nat) (left right : List Piece) (piece : Piece) :
    (lexemesFrom pos (left ++ piece :: right))[left.length]? = some ⟨piece.token,
      pos + (written left ++ piece.blanks).utf8ByteSize,
      pos + (written left ++ piece.blanks ++ piece.token.spelling).utf8ByteSize⟩ := by
  induction left generalizing pos with
  | nil => simp [lexemesFrom, written, String.utf8ByteSize_append, Nat.add_assoc]
  | cons first left ih =>
    rw [List.cons_append, lexemesFrom, List.length_cons, List.getElem?_cons_succ, ih]
    simp only [written, String.utf8ByteSize_append, Nat.add_assoc]

/-! ## Reading -/

namespace TypeExpr

/-- How a text with tokens is read depends on its tokens, offsets apart. -/
theorem parse_of_scan {text : String} {lexemes : List Lexeme} (h : Lexeme.scan text = .ok lexemes) :
    (∀ e, ofTokens (lexemes.map (·.token)) = .ok e → parse text = .ok e) ∧
      ∀ stop, ofTokens (lexemes.map (·.token)) = .error stop →
        ∃ offset, parse text = .error ⟨stop.complaint, offset⟩ := by
  constructor
  · intro e he
    simp only [parse, h, he]
  · intro stop hstop
    exact ⟨offsetOf lexemes text.utf8ByteSize stop.unread, by simp only [parse, h, hstop]⟩

/-- **The layout of a text does not matter.** Write tokens with any blanks before, between and after
them, but some between two words. The text is scanned into exactly these tokens, and the range of
each begins where the text before it and its blanks end and is as long as its spelling. Any other
layout of the same tokens is read as the same type, or both are refused with one complaint, at
offsets that may differ. -/
theorem layout_irrelevant {pieces : List Piece} {tail : String} (h : Spaced pieces tail) :
    (∃ lexemes, Lexeme.scan (Piece.written pieces ++ tail) = .ok lexemes ∧
      lexemes.map (·.token) = pieces.map (·.token) ∧
      ∀ left piece right, pieces = left ++ piece :: right →
        lexemes[left.length]? = some ⟨piece.token,
          (Piece.written left ++ piece.blanks).utf8ByteSize,
          (Piece.written left ++ piece.blanks ++ piece.token.spelling).utf8ByteSize⟩) ∧
    ∀ pieces' tail', Spaced pieces' tail' → pieces'.map (·.token) = pieces.map (·.token) →
      (∃ e, parse (Piece.written pieces ++ tail) = .ok e ∧
        parse (Piece.written pieces' ++ tail') = .ok e) ∨
      ∃ complaint offset offset',
        parse (Piece.written pieces ++ tail) = .error ⟨complaint, offset⟩ ∧
        parse (Piece.written pieces' ++ tail') = .error ⟨complaint, offset'⟩ := by
  have hscan : Lexeme.scan (Piece.written pieces ++ tail) = .ok (Piece.lexemesFrom 0 pieces) :=
    Lexeme.scanFrom_written h 0
  refine ⟨⟨_, hscan, Piece.map_token_lexemesFrom 0 pieces, ?_⟩, fun pieces' tail' h' hsame => ?_⟩
  · rintro left piece right rfl
    simpa using Piece.getElem?_lexemesFrom 0 left right piece
  · have hscan' : Lexeme.scan (Piece.written pieces' ++ tail') =
        .ok (Piece.lexemesFrom 0 pieces') := Lexeme.scanFrom_written h' 0
    obtain ⟨hok, herror⟩ := parse_of_scan hscan
    obtain ⟨hok', herror'⟩ := parse_of_scan hscan'
    rw [Piece.map_token_lexemesFrom] at hok herror hok' herror'
    rw [hsame] at hok' herror'
    cases htokens : ofTokens (pieces.map (·.token)) with
    | ok e => exact .inl ⟨e, hok e htokens, hok' e htokens⟩
    | error stop =>
      obtain ⟨offset, hoffset⟩ := herror stop htokens
      obtain ⟨offset', hoffset'⟩ := herror' stop htokens
      exact .inr ⟨stop.complaint, offset, offset', hoffset, hoffset'⟩

/-- `func(functor autox)`, on one line and as close as can be. -/
def closePieces : List Piece :=
  [⟨"", .func⟩, ⟨"", .openParen⟩, ⟨"", .word "functor"⟩, ⟨" ", .word "autox"⟩, ⟨"", .closeParen⟩]

/-- The same tokens over two lines. -/
def widePieces : List Piece :=
  [⟨"\t", .func⟩, ⟨" ", .openParen⟩, ⟨"", .word "functor"⟩, ⟨"\r\n  ", .word "autox"⟩,
    ⟨" ", .closeParen⟩]

theorem spaced_pieces : Spaced closePieces "" ∧ Spaced widePieces "\n" := by
  have hnames : IsName "functor" ∧ IsName "autox" := by decide
  refine ⟨⟨by decide, by decide, ?_, by decide⟩, ⟨by decide, by decide, ?_, by decide⟩⟩
  all_goals simp [closePieces, widePieces, hnames, Named]

/-- The words are not run together, and both layouts lack a comma before `autox`. -/
theorem layout_irrelevant_functor :
    Spaced closePieces "" ∧ Spaced widePieces "\n" ∧
      (∃ lexemes, Lexeme.scan (Piece.written widePieces ++ "\n") = .ok lexemes ∧
        lexemes.map (·.token) =
          [.func, .openParen, .word "functor", .word "autox", .closeParen] ∧
        lexemes[3]? = some ⟨.word "autox", 18, 23⟩) ∧
      ∃ offset, parse (Piece.written widePieces ++ "\n") =
        .error ⟨.expected .closeParen (some (.word "autox")), offset⟩ := by
  obtain ⟨hclose, hwide⟩ := spaced_pieces
  obtain ⟨⟨lexemes, hscan, htokens, hranges⟩, hparse⟩ := layout_irrelevant hwide
  refine ⟨hclose, hwide, ⟨lexemes, hscan, htokens, hranges (widePieces.take 3) _ _ rfl⟩, ?_⟩
  have hrefused : parse (Piece.written closePieces ++ "") =
      .error ⟨.expected .closeParen (some (.word "autox")), 13⟩ := by decide +kernel
  obtain ⟨e, -, hok⟩ | ⟨complaint, offset, _, hwidely, hclosely⟩ := hparse _ _ hclose rfl
  · cases hrefused.symm.trans hok
  · obtain ⟨rfl, -⟩ := ParseError.mk.inj (Except.error.inj (hclosely.symm.trans hrefused))
    exact ⟨offset, hwidely⟩

end TypeExpr

end RuleTypes
