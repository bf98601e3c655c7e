import RuleTypes.Fingerprint
import RuleTypes.TypeTable.Basic

/-!
# Text and fingerprint of a type

Both follow the components of a form down to declared structs, which stand for themselves by
their name. In a table, the components of any other form were there before it, so the descent
from an id ends within as many steps as the id counts.
-/

namespace RuleTypes

namespace Form

/-- The text of a form, given the texts of its components. -/
def text (textOf : TypeId → Except Fault String) : Form → Except Fault String
  | auto => .ok "auto"
  | noValue => .ok "none"
  | primitive name => .ok name
  | pointer base => do return "*" ++ (← textOf base)
  | function params result => do
    let params ← params.mapM textOf
    let head := "func(" ++ ",".intercalate params ++ ")"
    if result = .noValue then return head
    return head ++ ":" ++ (← textOf result)
  | generic name args =>
    if name = sliceName then
      match args with
      | [] => .error .outOfRange
      | element :: _ => do return "[]" ++ (← textOf element)
    else do
      let args ← args.mapM textOf
      return name ++ "<" ++ ",".intercalate args ++ ">"
  | record fields => do
    let fields ← fields.mapM fun field => return field.1 ++ " " ++ (← textOf field.2)
    return "struct\x7b" ++ ";".intercalate fields ++ "\x7d"
  | declared name _ => .ok name

/-- The fingerprint of a form, given the fingerprints of its components. -/
def fingerprint (fingerprintOf : TypeId → Except Fault Fingerprint) :
    Form → Except Fault Fingerprint
  | auto => .ok .auto
  | noValue => .ok .noValue
  | primitive name => .ok (.primitive name)
  | pointer base => do return .pointer (← fingerprintOf base)
  | function params result => do
    let params ← params.mapM fingerprintOf
    return .function params (← fingerprintOf result)
  | generic name args => do return .generic name (← args.mapM fingerprintOf)
  | record fields => do
    let fields ← fields.mapM fun field => return (field.1, ← fingerprintOf field.2)
    return .record fields
  | declared name _ => .ok (.declared name)

end Form

namespace TypeTable

/-- The text of an id, following components at most `depth` steps down. -/
def textAt (t : TypeTable) : Nat → TypeId → Except Fault String
  | 0, _ => .error .endless
  | depth + 1, id => do (← t.form id).text (t.textAt depth)

/-- The canonical text of a type. -/
def text (t : TypeTable) (id : TypeId) : Except Fault String := t.textAt (id.index + 1) id

/-- The texts of types, as messages list them. -/
def listText (t : TypeTable) (ids : List TypeId) : Except Fault String := do
  return ", ".intercalate (← ids.mapM t.text)

/-- The fingerprint of an id, following components at most `depth` steps down. -/
def fingerprintAt (t : TypeTable) : Nat → TypeId → Except Fault Fingerprint
  | 0, _ => .error .endless
  | depth + 1, id => do (← t.form id).fingerprint (t.fingerprintAt depth)

/-- The structural fingerprint of a type. -/
def fingerprint (t : TypeTable) (id : TypeId) : Except Fault Fingerprint :=
  t.fingerprintAt (id.index + 1) id

end TypeTable

end RuleTypes
