import RuleTypes.TypeExpr.Basic
import RuleTypes.TypeExpr.Token

/-!
# Reading written types

The grammar, over tokens:

    type := '*' type
          | '[' ']' type
          | 'func' '(' (type (',' type)*)? ')' (':' type)?
          | 'struct' '{' (word type ';'?)* '}'
          | 'auto'
          | word ('<' type (',' type)* '>')?

The readers below take the tokens still unread and return what is left of them. Where they stop,
the error says how many tokens were unread, and only `parse`, which knows the text, turns that
number into an offset. So the layout of a text never bears on how its tokens are read.

Every reader carries a bound on its depth. Each step down passes a token or one of two wrappers,
so three times the number of tokens is always deep enough.
-/

namespace RuleTypes

/-- Why a text is not a type. -/
inductive Complaint
  | badCharacter (c : Char)
  | trailing (found : Token)
  /-- A particular token had to follow; `none` is the end of the text. -/
  | expected (want : Token) (found : Option Token)
  | expectedType (found : Option Token)
  | expectedField (found : Token)
  | unterminatedStruct
  | emptyGeneric (name : String)
  deriving DecidableEq, Repr, Inhabited

namespace Complaint

/-- What was found, as messages name it. -/
def foundText : Option Token → String
  | some token => token.text
  | none => "end of input"

/-- The wording of a complaint. -/
def text : Complaint → String
  | badCharacter c => "unexpected character " ++ Text.quoted c.toString
  | trailing found => "unexpected trailing " ++ found.text
  | expected want found => "expected " ++ want.text ++ ", got " ++ foundText found
  | expectedType found => "expected a type, got " ++ foundText found
  | expectedField found => "expected a field name, got " ++ found.text
  | unterminatedStruct => "unterminated struct"
  | emptyGeneric name => "generic '" ++ name ++ "' needs type arguments"

end Complaint

/-- A complaint and the byte offset it is about. -/
structure ParseError where
  complaint : Complaint
  offset : Nat
  deriving DecidableEq, Repr, Inhabited

namespace TypeExpr

/-- A reader's error: the complaint, and how many tokens were unread. -/
structure Stop where
  complaint : Complaint
  unread : Nat
  deriving DecidableEq, Repr, Inhabited

/-- A reader of an `α` from the tokens still unread. -/
abbrev Reader (α : Type) : Type := List Token → Except Stop (α × List Token)

/-- Stops where a type had to begin. -/
def noType {α : Type} (ts : List Token) : Except Stop (α × List Token) :=
  .error ⟨.expectedType ts.head?, ts.length⟩

/-- Passes the token `want`. -/
def expect (want : Token) : List Token → Except Stop (List Token)
  | [] => .error ⟨.expected want none, 0⟩
  | t :: ts => if t = want then .ok ts else .error ⟨.expected want (some t), ts.length + 1⟩

/-- Passes a separator between fields, if there is one. -/
def skipSemicolon : List Token → List Token
  | .semicolon :: ts => ts
  | ts => ts

mutual

/-- Reads a type. -/
def readType : Nat → Reader TypeExpr
  | 0, ts => noType ts
  | _ + 1, .auto :: ts => .ok (.auto, ts)
  | n + 1, .star :: ts => do
    let (base, ts) ← readType n ts
    return (.pointer base, ts)
  | n + 1, .openBracket :: ts => do
    let ts ← expect .closeBracket ts
    let (element, ts) ← readType n ts
    return (.slice element, ts)
  | n + 1, .func :: ts => do
    let ts ← expect .openParen ts
    let (params, ts) ← readList .closeParen n ts
    match ts with
    | .colon :: ts => do
      let (result, ts) ← readType n ts
      return (.function params (some result), ts)
    | ts => return (.function params none, ts)
  | n + 1, .struct :: ts => do
    let ts ← expect .openBrace ts
    let (fields, ts) ← readFields n ts
    return (.record fields, ts)
  | n + 1, .word name :: .openAngle :: ts => do
    let (args, ts) ← readList .closeAngle n ts
    if args.isEmpty then .error ⟨.emptyGeneric name, ts.length⟩
    else return (.generic name args, ts)
  | _ + 1, .word name :: ts => .ok (.named name, ts)
  | _ + 1, ts => noType ts

/-- Reads types between commas, up to and including `close`; there may be none. -/
def readList (close : Token) : Nat → Reader (List TypeExpr)
  | 0, ts => noType ts
  | n + 1, ts => if ts.head? = some close then .ok ([], ts.tail) else readItems close n ts

/-- Reads one or more types between commas, up to and including `close`. -/
def readItems (close : Token) : Nat → Reader (List TypeExpr)
  | 0, ts => noType ts
  | n + 1, ts => do
    let (item, ts) ← readType n ts
    match ts with
    | .comma :: ts => do
      let (items, ts) ← readItems close n ts
      return (item :: items, ts)
    | ts => do
      let ts ← expect close ts
      return ([item], ts)

/-- Reads fields up to and including the closing brace. -/
def readFields : Nat → Reader (List (String × TypeExpr))
  | 0, ts => noType ts
  | _ + 1, .closeBrace :: ts => .ok ([], ts)
  | n + 1, .word name :: ts => do
    let (type, ts) ← readType n ts
    let (fields, ts) ← readFields n (skipSemicolon ts)
    return ((name, type) :: fields, ts)
  | _ + 1, t :: ts => .error ⟨.expectedField t, ts.length + 1⟩
  | _ + 1, [] => .error ⟨.unterminatedStruct, 0⟩

end

/-- The type that a whole token sequence writes. -/
def ofTokens (ts : List Token) : Except Stop TypeExpr := do
  let (e, rest) ← readType (3 * ts.length + 3) ts
  match rest with
  | [] => return e
  | t :: _ => .error ⟨.trailing t, rest.length⟩

/-- The offset of the first of the last `unread` lexemes, or `size` if there are none. -/
def offsetOf (lexemes : List Lexeme) (size unread : Nat) : Nat :=
  match lexemes[lexemes.length - unread]? with
  | some lexeme => lexeme.start
  | none => size

/-- Reads a type from its text. -/
def parse (text : String) : Except ParseError TypeExpr :=
  match Lexeme.scan text with
  | .error bad => .error ⟨.badCharacter bad.char, bad.offset⟩
  | .ok lexemes =>
    match ofTokens (lexemes.map (·.token)) with
    | .error stop => .error ⟨stop.complaint, offsetOf lexemes text.utf8ByteSize stop.unread⟩
    | .ok e => .ok e

end TypeExpr

end RuleTypes
