import RuleTypes.Text.Hidden

/-!
# Quoted text

Messages quote a piece of source text between double quotes. The quote, the backslash and the
four control characters that have a name of their own are escaped by a backslash, and every other
hidden character is written as its code point.
-/

namespace RuleTypes.Text

/-- A character as it stands in quoted text. -/
def quotedChar (c : Char) : String :=
  match c with
  | '\x00' => "\\0"
  | '\t' => "\\t"
  | '\r' => "\\r"
  | '\n' => "\\n"
  | '"' => "\\\""
  | '\\' => "\\\\"
  | c =>
    if isHidden c then "\\u\x7b" ++ String.ofList (Nat.toDigits 16 c.toNat) ++ "\x7d"
    else c.toString

/-- The text between double quotes. -/
def quoted (text : String) : String :=
  "\"" ++ String.join (text.toList.map quotedChar) ++ "\""

end RuleTypes.Text
