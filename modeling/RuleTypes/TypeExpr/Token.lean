import RuleTypes.Text.Quoted

/-!
# Tokens of the type notation

A text is first cut into lexemes: tokens with the byte range they were read from. Blanks (space,
tab, line feed, carriage return) separate tokens and are otherwise skipped; a word is a letter or
underscore followed by letters, digits and underscores, as long as possible; every other token is
one character. Letters and digits are those of ASCII. The first character that begins no token is
an error, wherever it stands.
-/

namespace RuleTypes

/-- The tokens of the type notation. -/
inductive Token
  | func
  | struct
  | auto
  | star
  | openBracket
  | closeBracket
  | openParen
  | closeParen
  | openAngle
  | closeAngle
  | openBrace
  | closeBrace
  | comma
  | semicolon
  | colon
  /-- A name. -/
  | word (name : String)
  deriving DecidableEq, Repr, Inhabited

namespace Token

/-- The token as messages name it. -/
def text : Token → String
  | func => "Func"
  | struct => "Struct"
  | auto => "Auto"
  | star => "Star"
  | openBracket => "LBracket"
  | closeBracket => "RBracket"
  | openParen => "LParen"
  | closeParen => "RParen"
  | openAngle => "LAngle"
  | closeAngle => "RAngle"
  | openBrace => "LBrace"
  | closeBrace => "RBrace"
  | comma => "Comma"
  | semicolon => "Semi"
  | colon => "Colon"
  | word name => "Ident(" ++ Text.quoted name ++ ")"

/-- The tokens of one character. -/
def punctuation? : Char → Option Token
  | '*' => some star
  | '[' => some openBracket
  | ']' => some closeBracket
  | '(' => some openParen
  | ')' => some closeParen
  | '<' => some openAngle
  | '>' => some closeAngle
  | '\x7b' => some openBrace
  | '\x7d' => some closeBrace
  | ',' => some comma
  | ';' => some semicolon
  | ':' => some colon
  | _ => none

/-- A run of word characters: one of the three words of the notation, or a name. -/
def ofWord (name : String) : Token :=
  if name = "func" then func
  else if name = "struct" then struct
  else if name = "auto" then auto
  else word name

end Token

/-- A token and the byte range of the text it was read from. -/
structure Lexeme where
  token : Token
  start : Nat
  stop : Nat
  deriving DecidableEq, Repr, Inhabited

namespace Lexeme

/-- Characters that only separate tokens. -/
def isBlank (c : Char) : Bool := c == ' ' || c == '\t' || c == '\n' || c == '\r'

/-- Characters that begin a word. -/
def isWordStart (c : Char) : Bool := c.isAlpha || c == '_'

/-- Characters that continue a word. -/
def isWordChar (c : Char) : Bool := c.isAlphanum || c == '_'

/-- The first character that begins no token, and the offset it stands at. -/
structure BadChar where
  char : Char
  offset : Nat
  deriving DecidableEq, Repr, Inhabited

/-- The lexemes of the characters that stand at byte offset `pos` and after. -/
def scanFrom (pos : Nat) : List Char → Except BadChar (List Lexeme)
  | [] => .ok []
  | c :: cs =>
    if isBlank c then scanFrom (pos + c.utf8Size) cs
    else match Token.punctuation? c with
      | some token => do
        let rest ← scanFrom (pos + c.utf8Size) cs
        return ⟨token, pos, pos + c.utf8Size⟩ :: rest
      | none =>
        if isWordStart c then do
          let word := String.ofList (c :: cs.takeWhile isWordChar)
          let stop := pos + word.utf8ByteSize
          let rest ← scanFrom stop (cs.dropWhile isWordChar)
          return ⟨.ofWord word, pos, stop⟩ :: rest
        else .error ⟨c, pos⟩
termination_by cs => cs.length
decreasing_by
  all_goals simp only [List.length_cons]
  all_goals first
    | omega
    | exact Nat.lt_succ_of_le (List.dropWhile_sublist _).length_le

/-- The lexemes of a text. -/
def scan (text : String) : Except BadChar (List Lexeme) := scanFrom 0 text.toList

end Lexeme

end RuleTypes
