/-!
# Written types

A `TypeExpr` is a type as rule code writes it, before its names are looked up. `text` prints it
in the canonical form, the one `TypeExpr.parse` reads back. Three words belong to the notation
itself and name neither a type nor a field.
-/

namespace RuleTypes

/-- A type as written. -/
inductive TypeExpr
  /-- To be taken from an initializer. -/
  | auto
  /-- A primitive type or a declared struct. -/
  | named (name : String)
  | pointer (base : TypeExpr)
  | slice (element : TypeExpr)
  /-- A generic type applied to its arguments. -/
  | generic (name : String) (args : List TypeExpr)
  /-- A function; without a result it returns no value. -/
  | function (params : List TypeExpr) (result : Option TypeExpr)
  /-- A struct without a name: its fields, in order. -/
  | record (fields : List (String × TypeExpr))
  deriving Repr, Inhabited

/-- The words of the type notation. -/
def reservedWords : List String := ["func", "struct", "auto"]

/-- Whether a name is a word of the type notation. -/
def isReserved (name : String) : Bool := reservedWords.contains name

namespace TypeExpr

/-- Whether the type is exactly `auto`. -/
def isAuto : TypeExpr → Bool
  | auto => true
  | _ => false

/-! ## Equality is decidable -/

mutual

/-- Structural comparison. -/
def same : TypeExpr → TypeExpr → Bool
  | auto, auto => true
  | named m, named n => m == n
  | pointer a, pointer b => same a b
  | slice a, slice b => same a b
  | generic m as, generic n bs => m == n && sameList as bs
  | function as none, function bs none => sameList as bs
  | function as (some a), function bs (some b) => sameList as bs && same a b
  | record as, record bs => sameFields as bs
  | _, _ => false

/-- Structural comparison of lists of types. -/
def sameList : List TypeExpr → List TypeExpr → Bool
  | [], [] => true
  | a :: as, b :: bs => same a b && sameList as bs
  | _, _ => false

/-- Structural comparison of fields. -/
def sameFields : List (String × TypeExpr) → List (String × TypeExpr) → Bool
  | [], [] => true
  | (m, a) :: as, (n, b) :: bs => m == n && same a b && sameFields as bs
  | _, _ => false

end

mutual

theorem same_iff : ∀ a b : TypeExpr, same a b = true ↔ a = b
  | auto, b => by cases b <;> simp [same]
  | named _, b => by cases b <;> simp [same]
  | pointer a, b => by cases b <;> simp [same, same_iff a]
  | slice a, b => by cases b <;> simp [same, same_iff a]
  | generic _ as, b => by cases b <;> simp [same, sameList_iff as]
  | function as none, b => by
    cases b with
    | function bs r => cases r <;> simp [same, sameList_iff as]
    | _ => simp [same]
  | function as (some a), b => by
    cases b with
    | function bs r => cases r <;> simp [same, sameList_iff as, same_iff a]
    | _ => simp [same]
  | record as, b => by cases b <;> simp [same, sameFields_iff as]

theorem sameList_iff : ∀ as bs : List TypeExpr, sameList as bs = true ↔ as = bs
  | [], bs => by cases bs <;> simp [sameList]
  | a :: as, bs => by cases bs <;> simp [sameList, same_iff a, sameList_iff as]

theorem sameFields_iff : ∀ as bs : List (String × TypeExpr), sameFields as bs = true ↔ as = bs
  | [], bs => by cases bs <;> simp [sameFields]
  | (m, a) :: as, bs => by
    cases bs with
    | nil => simp [sameFields]
    | cons b bs => obtain ⟨n, b⟩ := b; simp [sameFields, same_iff a, sameFields_iff as]

end

instance : DecidableEq TypeExpr := fun a b => decidable_of_iff _ (same_iff a b)

/-! ## Canonical text -/

mutual

/-- The canonical text of a type. -/
def text : TypeExpr → String
  | auto => "auto"
  | named name => name
  | pointer base => "*" ++ base.text
  | slice element => "[]" ++ element.text
  | generic name args => name ++ "<" ++ ",".intercalate (texts args) ++ ">"
  | function params none => "func(" ++ ",".intercalate (texts params) ++ ")"
  | function params (some result) =>
    "func(" ++ ",".intercalate (texts params) ++ "):" ++ result.text
  | record fields => "struct\x7b" ++ ";".intercalate (fieldTexts fields) ++ "\x7d"

/-- The canonical texts of a list of types. -/
def texts : List TypeExpr → List String
  | [] => []
  | e :: es => e.text :: texts es

/-- The canonical texts of a list of fields, name before type. -/
def fieldTexts : List (String × TypeExpr) → List String
  | [] => []
  | (name, e) :: fields => (name ++ " " ++ e.text) :: fieldTexts fields

end

end TypeExpr

end RuleTypes
