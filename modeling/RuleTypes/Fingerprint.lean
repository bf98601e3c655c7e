import RuleTypes.Digest

/-!
# Structural fingerprints

A fingerprint is a 64-bit digest of the structure of a type. It does not depend on a table, so
it can name a function in linked code. Every kind of type starts from a constant of its own, and
every component is marked with its position before it is mixed in, so that the order of
components matters. `mix` is the one step all of them share: an odd multiple of the state plus
the marked component.
-/

namespace RuleTypes

/-- A structural digest of a type. -/
structure Fingerprint where
  bits : UInt64
  deriving DecidableEq, Repr, Inhabited

namespace Fingerprint

/-- The odd multiplier between two components. -/
def separator : UInt64 := 0x4bc94d6bd06053ad

/-! ## Starting points, one for each kind of type, and marks for results and fields -/

def primitiveSeed : UInt64 := 0x2fac10b63a6cc57c
def pointerSeed : UInt64 := 0x6a09e667f3bcc908
def functionSeed : UInt64 := 0x5ea77ffbcdf5f302
def resultMark : UInt64 := 0xbb67ae8584caa73b
def genericSeed : UInt64 := 0x3c6ef372fe94f82b
def declaredSeed : UInt64 := 0x9a7f3d5e2b8c4601
def recordSeed : UInt64 := 0xa54ff53a5f1d36f1
def fieldMark : UInt64 := 0x1a095090689d4647

/-! ## Mixing -/

/-- The marks of the first eight positions. -/
def positionMarks : List UInt64 :=
  [0x9e3779b97f4a7c15, 0xbf58476d1ce4e5b9, 0x94d049bb133111eb, 0xd6e8feb86659fd93,
    0xe7037ed1a0b428db, 0xc6a4a7935bd1e995, 0x8648dbbc94d49b8d, 0xa2b48b2c69e0d657]

/-- The mark of position `i`; past the eighth it is counted on from the first mark. -/
def positionMark (i : Nat) : UInt64 :=
  match positionMarks[i]? with
  | some mark => mark
  | none => 0x9e3779b97f4a7c15 + UInt64.ofNat i

/-- One component entering the state. -/
def mix (state component : UInt64) : UInt64 := state * separator + component

/-- Mixes the components at positions `i`, `i + 1`, … into the state. -/
def foldFrom (i : Nat) (state : UInt64) : List Fingerprint → UInt64
  | [] => state
  | child :: rest => foldFrom (i + 1) (mix state (positionMark i ^^^ child.bits)) rest

/-- Mixes a list of components into a seed. -/
def fold (seed : UInt64) (children : List Fingerprint) : UInt64 := foldFrom 0 seed children

/-! ## The fingerprints of types -/

/-- The fingerprint of the type that stands for an initializer's. -/
def auto : Fingerprint := ⟨0xfffffffffffffffe⟩

/-- The fingerprint of the type without values. -/
def noValue : Fingerprint := ⟨0xfffffffffffffffd⟩

/-- A primitive type is known by its name. -/
def primitive (name : String) : Fingerprint := ⟨primitiveSeed ^^^ Digest.ofText name⟩

def pointer (base : Fingerprint) : Fingerprint := ⟨fold pointerSeed [base]⟩

def function (params : List Fingerprint) (result : Fingerprint) : Fingerprint :=
  ⟨mix (fold functionSeed params) (resultMark ^^^ result.bits)⟩

def generic (name : String) (args : List Fingerprint) : Fingerprint :=
  ⟨fold (genericSeed ^^^ Digest.ofText name) args⟩

/-- A declared struct is known by its name, whatever its fields. -/
def declared (name : String) : Fingerprint := ⟨declaredSeed ^^^ Digest.ofText name⟩

/-- One field as a component: the mark of its name, and its type's bits turned by seventeen. -/
def fieldComponent (i : Nat) (name : String) (type : Fingerprint) : UInt64 :=
  positionMark i ^^^ (fieldMark ^^^ Digest.ofText name) ^^^ Digest.rotateLeft type.bits 17

/-- Mixes the fields at positions `i`, `i + 1`, … into the state. -/
def foldFields (i : Nat) (state : UInt64) : List (String × Fingerprint) → UInt64
  | [] => state
  | (name, type) :: rest => foldFields (i + 1) (mix state (fieldComponent i name type)) rest

/-- A record is known by its field names and types, in order. -/
def record (fields : List (String × Fingerprint)) : Fingerprint :=
  ⟨foldFields 0 recordSeed fields⟩

/-! ## Text -/

/-- Sixteen lower-case hexadecimal digits. -/
def text (f : Fingerprint) : String :=
  let digits := Nat.toDigits 16 f.bits.toNat
  String.ofList (List.replicate (16 - digits.length) '0' ++ digits)

/-- The fingerprint as listings name it. -/
def fullText (f : Fingerprint) : String := s!"StableHash(0x{f.text})"

end Fingerprint

end RuleTypes
