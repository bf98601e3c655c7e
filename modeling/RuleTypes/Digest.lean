/-!
# XXH64

The 64-bit digest of a byte string that fingerprints are built from: XXH64 with seed zero. The
input is read in stripes of four little-endian words, each word feeding one of four lanes; the
lanes are then merged, what is left of the input is mixed in word by word and byte by byte, and a
last avalanche spreads every bit.
-/

namespace RuleTypes.Digest

/-! ## The five odd multipliers -/

def prime1 : UInt64 := 0x9e3779b185ebca87
def prime2 : UInt64 := 0xc2b2ae3d27d4eb4f
def prime3 : UInt64 := 0x165667b19e3779f9
def prime4 : UInt64 := 0x85ebca77c2b2ae63
def prime5 : UInt64 := 0x27d4eb2f165667c5

/-- Rotation to the left by `k` bits, for `0 < k < 64`. -/
def rotateLeft (x : UInt64) (k : UInt64) : UInt64 := (x <<< k) ||| (x >>> (64 - k))

/-- The number written by a list of bytes, least significant first. -/
def littleEndian : List UInt8 → UInt64
  | [] => 0
  | b :: bs => b.toUInt64 ||| (littleEndian bs <<< 8)

/-- One word entering a lane. -/
def round (lane word : UInt64) : UInt64 := rotateLeft (lane + word * prime2) 31 * prime1

/-- The four lanes that stripes are read into. -/
structure Lanes where
  first : UInt64
  second : UInt64
  third : UInt64
  fourth : UInt64

/-- The lanes before the first stripe. -/
def Lanes.start : Lanes := ⟨prime1 + prime2, prime2, 0, 0 - prime1⟩

/-- The lanes after one stripe of thirty-two bytes. -/
def Lanes.absorb (l : Lanes) (stripe : List UInt8) : Lanes :=
  ⟨round l.first (littleEndian (stripe.take 8)),
    round l.second (littleEndian ((stripe.drop 8).take 8)),
    round l.third (littleEndian ((stripe.drop 16).take 8)),
    round l.fourth (littleEndian ((stripe.drop 24).take 8))⟩

/-- One lane joining the merged state. -/
def mergeRound (h lane : UInt64) : UInt64 := (h ^^^ round 0 lane) * prime1 + prime4

/-- The state after the last stripe. -/
def Lanes.merge (l : Lanes) : UInt64 :=
  let h := rotateLeft l.first 1 + rotateLeft l.second 7 + rotateLeft l.third 12
    + rotateLeft l.fourth 18
  mergeRound (mergeRound (mergeRound (mergeRound h l.first) l.second) l.third) l.fourth

/-- Reads whole stripes; returns the lanes and the fewer than thirty-two bytes that are left. -/
def stripes (l : Lanes) (bytes : List UInt8) : Lanes × List UInt8 :=
  if 32 ≤ bytes.length then stripes (l.absorb bytes) (bytes.drop 32) else (l, bytes)
termination_by bytes.length
decreasing_by simp only [List.length_drop]; omega

/-- Mixes in the last bytes: words of eight, then one of four, then single bytes. -/
def tail (h : UInt64) (bytes : List UInt8) : UInt64 :=
  if 8 ≤ bytes.length then
    let h := h ^^^ round 0 (littleEndian (bytes.take 8))
    tail (rotateLeft h 27 * prime1 + prime4) (bytes.drop 8)
  else if 4 ≤ bytes.length then
    let h := h ^^^ (littleEndian (bytes.take 4) * prime1)
    tail (rotateLeft h 23 * prime2 + prime3) (bytes.drop 4)
  else
    bytes.foldl (fun h b => rotateLeft (h ^^^ (b.toUInt64 * prime5)) 11 * prime1) h
termination_by bytes.length
decreasing_by all_goals (simp only [List.length_drop]; omega)

/-- The closing mix, in which every bit reaches every other. -/
def avalanche (h : UInt64) : UInt64 :=
  let h := (h ^^^ (h >>> 33)) * prime2
  let h := (h ^^^ (h >>> 29)) * prime3
  h ^^^ (h >>> 32)

/-- XXH64 of a byte string, with seed zero. -/
def ofBytes (bytes : List UInt8) : UInt64 :=
  let (lanes, rest) := stripes .start bytes
  let h := if 32 ≤ bytes.length then lanes.merge else prime5
  avalanche (tail (h + UInt64.ofNat bytes.length) rest)

/-- XXH64 of the UTF-8 bytes of a text. -/
def ofText (text : String) : UInt64 := ofBytes text.toUTF8.toList

end RuleTypes.Digest
