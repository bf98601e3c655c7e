import RuleTypes.Failure
import RuleTypes.FormIndex
import RuleTypes.NameMap
import RuleTypes.TypeExpr.Basic

/-!
# The type table

The table gives every type one id. It is a growing list of forms, and the id of a type is the
place of its form. Asking for a form that is already in the table returns its id, which the index
of the table knows; only a new form is added, at the end. So two types are the same exactly when
their ids are.

Declared structs are the exception: each declaration is a type of its own, and is pending until it
is given its fields (see `TypeTable/Declared.lean`).
-/

namespace RuleTypes

/-- How many arguments each generic takes. -/
abbrev Generics : Type := NameMap Nat

/-- The generics of every rule program: slices take one argument. -/
def Generics.standard : Generics := NameMap.empty.insert Form.sliceName 1

/-- Declares further generics; a later declaration replaces an earlier one. -/
def Generics.declareAll (generics : Generics) (pairs : List (String × Nat)) : Generics :=
  pairs.foldl (fun g pair => g.insert pair.1 pair.2) generics

/-- The canonical store of types. -/
structure TypeTable where
  forms : Array Form
  index : FormIndex
  /-- Declared structs that are reserved and not yet sealed. -/
  pending : List TypeId
  generics : Generics
  indexed : index.Locates forms.toList
  deriving Repr

/-- An operation on a type table, with errors in `ε`. What it added before it failed stays. -/
abbrev TableM (ε : Type) : Type → Type := EStateM (Failure ε) TypeTable

/-- Rewords the errors of a table operation. -/
def TableM.mapError {ε ε' α : Type} (f : ε → ε') (x : TableM ε α) : TableM ε' α := fun t =>
  match x t with
  | .ok a t => .ok a t
  | .error e t => .error (e.mapError f) t

namespace TypeTable

variable {ε : Type}

/-- The table before any type is added: it knows the two sentinels. -/
def new (generics : Generics) : TypeTable where
  forms := #[.auto, .noValue]
  index := .empty
  pending := []
  generics
  indexed := FormIndex.locates_empty (by decide)

instance : Inhabited TypeTable := ⟨new .empty⟩

/-- The number of ids issued so far. -/
def size (t : TypeTable) : Nat := t.forms.size

/-- Whether the table holds nothing but the sentinels. -/
def isEmpty (t : TypeTable) : Bool := t.size ≤ 2

/-- Whether the table issued an id. -/
def isIssued (t : TypeTable) (id : TypeId) : Bool := id.index < t.size

/-- The form of an id. -/
def form? (t : TypeTable) (id : TypeId) : Option Form := t.forms[id.index]?

/-- The form of an id that has to be one of this table's. -/
def form (t : TypeTable) (id : TypeId) : Except Fault Form :=
  match t.form? id with
  | some form => .ok form
  | none => .error (.unissued id)

/-- The id of a structural form that is in the table. -/
def find? (t : TypeTable) (form : Form) : Option TypeId := t.index.find? form

/-- The primitive type of a name, if it is in the table. -/
def primitive? (t : TypeTable) (name : String) : Option TypeId := t.find? (.primitive name)

/-- Whether an id is no pending struct. -/
def isSealed (t : TypeTable) (id : TypeId) : Bool := !t.pending.contains id

/-- The table with one more form. -/
def push (t : TypeTable) (form : Form) : TypeTable :=
  { t with
    forms := t.forms.push form
    index := t.index.enter ⟨t.size⟩ form
    indexed := by simpa [size] using t.indexed.push form }

/-- Sets how many arguments a generic takes. -/
def declareGeneric (t : TypeTable) (name : String) (arity : Nat) : TypeTable :=
  { t with generics := t.generics.insert name arity }

/-! ## Adding types -/

/-- The id of a form, which is added if it is new. -/
def intern (form : Form) : TableM ε TypeId := fun t =>
  match t.find? form with
  | some id => .ok id t
  | none => .ok ⟨t.size⟩ (t.push form)

/-- Stops at the first id that the table did not issue. -/
def requireIssued (ids : List TypeId) : TableM ε Unit := fun t =>
  match ids.find? fun id => !t.isIssued id with
  | some id => .error (.fault (.unissued id)) t
  | none => .ok () t

/-- The primitive type of a name. -/
def internPrimitive (name : String) : TableM ε TypeId := intern (.primitive name)

/-- The type of pointers to `base`. -/
def internPointer (base : TypeId) : TableM ε TypeId := do
  requireIssued [base]
  intern (.pointer base)

/-- The type of functions from `params` to `result`. -/
def internFunction (params : List TypeId) (result : TypeId) : TableM ε TypeId := do
  requireIssued (params ++ [result])
  intern (.function params result)

/-- A generic type applied to arguments; their number has to be the declared one. -/
def internGeneric (name : String) (args : List TypeId) : TableM TableError TypeId := do
  match (← get).generics.get? name with
  | none => throw (.error (.unknownGeneric name))
  | some arity =>
    if arity ≠ args.length then throw (.error (.invalidArity name arity args.length))
    requireIssued args
    intern (.generic name args)

/-- The type of slices of `element`. -/
def internSlice (element : TypeId) : TableM ε TypeId := fun t =>
  match internGeneric Form.sliceName [element] t with
  | .ok id t => .ok id t
  | .error (.error cause) t => .error (.fault (.sliceGeneric cause)) t
  | .error (.fault cause) t => .error (.fault cause) t

/-- The first reason why `names` cannot name the fields of `owner`, given the names before them:
a reserved word, or a name that stood before. -/
def fieldNamesError? (owner : String) (before : List String) : List String → Option TableError
  | [] => none
  | name :: names =>
    if isReserved name then some (.reservedField owner name)
    else if before.contains name then some (.duplicateField owner name)
    else fieldNamesError? owner (name :: before) names

/-- Stops unless the names can name the fields of `owner`. -/
def requireFieldNames (owner : String) (names : List String) : TableM TableError Unit :=
  match fieldNamesError? owner [] names with
  | some cause => throw (.error cause)
  | none => pure ()

/-- The struct without a name that has the given fields. -/
def internRecord (fields : List (String × TypeId)) : TableM TableError TypeId := do
  requireFieldNames "anonymous struct" (fields.map (·.1))
  requireIssued (fields.map (·.2))
  intern (.record fields)

end TypeTable

end RuleTypes
