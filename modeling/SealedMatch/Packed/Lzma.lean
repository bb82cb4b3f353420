/-
Module: SealedMatch.Packed.Lzma
Purpose: LZMA data: literal bytes and references to earlier ones, in adaptive binary range coding.
Trusted boundary: none
Main exports: LzmaProperties, LzmaState, LzmaStep, Lzma.begin, Lzma.readSymbols
-/
import SealedMatch.Packed.Source

namespace SealedMatch

/-- How many bits of the byte before, of the place, and of the place once more choose the models of
literals, of literals and of all else. -/
structure LzmaProperties where
  literalContext : Nat
  literalPlace : Nat
  place : Nat

/-- Read properties from the byte that holds them. -/
def LzmaProperties.ofByte? (b : UInt8) : Option LzmaProperties :=
  let n := b.toNat
  let properties : LzmaProperties := ⟨n % 9, n / 9 % 5, n / 45⟩
  if properties.place ≤ 4 ∧ properties.literalContext + properties.literalPlace ≤ 4 then
    some properties
  else none

/-- The state of a decoder: the models with their probabilities, what kinds of symbols came last,
the four distances used last, the range and the point in it, and what has been unpacked. References
go back no further than to `base`, nor beyond the size of the dictionary. -/
structure LzmaState where
  properties : LzmaProperties
  models : Array Nat
  phase : Nat
  distances : List Nat
  range : UInt32
  point : UInt32
  out : ByteArray
  base : Nat
  dictionary : Nat

/-- A step of a decoder. -/
abbrev LzmaStep (α : Type) := StateT LzmaState Unpack α

namespace Lzma

/-! ### Models

The models stand one behind the other; these are the places of the first ones of each kind. -/

def isMatch : Nat := 0
def isRepeat : Nat := 192
def isOlder : Nat := 204
def isOlderThanSecond : Nat := 216
def isOldest : Nat := 228
def isLongRepeat : Nat := 240
def distanceSlot : Nat := 432
def distanceMiddle : Nat := 688
def distanceEnd : Nat := 803
def matchLength : Nat := 819
def repeatLength : Nat := 1333
def literal : Nat := 1847

/-- How many models the literals of one context have. -/
def literalSize : Nat := 0x300

/-- All models before anything has been read. -/
def freshModels (p : LzmaProperties) : Array Nat :=
  Array.replicate (literal + literalSize * 2 ^ (p.literalContext + p.literalPlace)) 1024

/-- A decoder before anything has been read. -/
def begin (p : LzmaProperties) (out : ByteArray) (base dictionary : Nat) : LzmaState where
  properties := p
  models := freshModels p
  phase := 0
  distances := [0, 0, 0, 0]
  range := 0xFFFFFFFF
  point := 0
  out := out
  base := base
  dictionary := dictionary

/-- Read the point in the range: a zero, then four bytes. -/
def readPoint : LzmaStep Unit := do
  let zero ← (nextByte : Unpack UInt8)
  if zero ≠ 0 then throw .lzmaData
  let bytes ← (nextBytes 4 : Unpack (List UInt8))
  modify fun s => { s with range := 0xFFFFFFFF, point := UInt32.ofNat (littleEndian bytes.reverse) }

/-! ### Bits -/

/-- Widen a range that has become narrow. -/
def widenRange : LzmaStep Unit := do
  if (← get).range < 0x1000000 then
    let b ← (nextByte : Unpack UInt8)
    modify fun s => { s with range := s.range <<< 8, point := (s.point <<< 8) ||| b.toUInt32 }

/-- Read a bit by a model. -/
def modelBit (model : Nat) : LzmaStep Nat := do
  widenRange
  modifyGet fun s =>
    let p := s.models.getD model 1024
    let bound := s.range / 2048 * UInt32.ofNat p
    if s.point < bound then
      (0, { s with range := bound, models := s.models.set! model (p + (2048 - p) / 32) })
    else
      (1, { s with
        range := s.range - bound
        point := s.point - bound
        models := s.models.set! model (p - p / 32) })

/-- Read bits without a model, the first one most significant; `n` holds those before. -/
def evenBits (n : Nat) : Nat → LzmaStep Nat
  | 0 => pure n
  | count + 1 => do
    widenRange
    let bit ← modifyGet fun s =>
      let half := s.range / 2
      if s.point < half then (0, { s with range := half })
      else (1, { s with range := half, point := s.point - half })
    evenBits (2 * n + bit) count

/-- Read bits by a tree of models, the first one most significant; `node` is one and the bits
before. -/
def treeBits (models node : Nat) : Nat → LzmaStep Nat
  | 0 => pure node
  | count + 1 => do
    let bit ← modelBit (models + node)
    treeBits models (2 * node + bit) count

/-- Read a number by a tree of models, the first bit most significant. -/
def treeNumber (models count : Nat) : LzmaStep Nat := do
  pure ((← treeBits models 1 count) - 2 ^ count)

/-- Read a number by a tree of models, the first bit least significant. -/
def reverseNumber (models node : Nat) : Nat → LzmaStep Nat
  | 0 => pure 0
  | count + 1 => do
    let bit ← modelBit (models + node)
    let rest ← reverseNumber models (2 * node + bit) count
    pure (bit + 2 * rest)

/-! ### Symbols -/

/-- How many bytes lie in the dictionary. -/
def reach (s : LzmaState) : Nat := min (s.out.size - s.base) s.dictionary

/-- The byte that lies `distance` bytes before the last one. -/
def byteBack (s : LzmaState) (distance : Nat) : Nat :=
  let place := s.out.size - distance - 1
  if h : place < s.out.size then
    if s.base + distance < s.out.size then s.out[place].toNat else 0
  else 0

/-- Where the next byte lies, as far as models look at it. -/
def placeState (s : LzmaState) : Nat := (s.out.size - s.base) % 2 ^ s.properties.place

/-- The models of the next literal. -/
def literalModels (s : LzmaState) : Nat :=
  let p := s.properties
  let place := (s.out.size - s.base) % 2 ^ p.literalPlace
  let before := byteBack s 0 / 2 ^ (8 - p.literalContext)
  literal + literalSize * (place * 2 ^ p.literalContext + before)

/-- Read a literal whose models also look at the byte that a repeated reference would give, as long
as its bits agree. -/
def matchedBits (models other node : Nat) : Nat → LzmaStep Nat
  | 0 => pure node
  | count + 1 => do
    let expected := other / 2 ^ count % 2
    let bit ← modelBit (models + 0x100 * (1 + expected) + node)
    let node := 2 * node + bit
    if bit = expected then matchedBits models other node count else treeBits models node count

/-- Read a literal. -/
def readLiteral : LzmaStep Unit := do
  let s ← get
  let models := literalModels s
  let node ←
    if s.phase < 7 then treeBits models 1 8
    else matchedBits models (byteBack s (s.distances.headD 0)) 1 8
  modify fun s =>
    { s with
      out := s.out.push (UInt8.ofNat node)
      phase := if s.phase < 4 then 0 else if s.phase < 10 then s.phase - 3 else s.phase - 6 }

/-- Read a length. -/
def readLength (models : Nat) : LzmaStep Nat := do
  let place := placeState (← get)
  if (← modelBit models) = 0 then
    pure (2 + (← treeNumber (models + 2 + 8 * place) 3))
  else if (← modelBit (models + 1)) = 0 then
    pure (10 + (← treeNumber (models + 130 + 8 * place) 3))
  else pure (18 + (← treeNumber (models + 258) 8))

/-- Read a distance, which is one less than the bytes to go back. -/
def readDistance (length : Nat) : LzmaStep Nat := do
  let slot ← treeNumber (distanceSlot + 64 * min (length - 2) 3) 6
  if slot < 4 then pure slot
  else
    let count := slot / 2 - 1
    let start := 2 + slot % 2
    if slot < 14 then
      let least := start * 2 ^ count
      pure (least + (← reverseNumber (distanceMiddle + least - slot) 1 count))
    else
      let high ← evenBits start (count - 4)
      pure (high * 16 + (← reverseNumber distanceEnd 1 4))

/-- The distance that marks the end. -/
def endMark : Nat := 2 ^ 32 - 1

/-- Write bytes that a reference names. -/
def copy (distance length : Nat) : LzmaStep Unit :=
  modify fun s => { s with out := copyBack s.out (distance + 1) length }

/-- Read a reference with a distance of its own; tell its length, or nothing at the end mark. -/
def readMatch : LzmaStep (Option Nat) := do
  modify fun s => { s with phase := if s.phase < 7 then 7 else 10 }
  let length ← readLength matchLength
  let distance ← readDistance length
  modify fun s => { s with distances := distance :: s.distances.take 3 }
  if distance = endMark then pure none
  else if reach (← get) ≤ distance then throw .lzmaData
  else pure (some length)

/-- Read which of the distances used last is used again, and move it to the front. -/
def readOlder (phase : Nat) : LzmaStep Unit := do
  let age ←
    if (← modelBit (isOlderThanSecond + phase)) = 0 then pure 1
    else pure (2 + (← modelBit (isOldest + phase)))
  modify fun s =>
    { s with distances := s.distances.getD age 0 :: s.distances.eraseIdx age }

/-- Read a reference with a distance used before; tell its length. -/
def readRepeat : LzmaStep Nat := do
  let s ← get
  if reach s = 0 then throw .lzmaData
  let phase := s.phase
  if (← modelBit (isOlder + phase)) = 0 then
    if (← modelBit (isLongRepeat + 16 * phase + placeState s)) = 0 then
      modify fun s => { s with phase := if phase < 7 then 9 else 11 }
      return 1
  else readOlder phase
  modify fun s => { s with phase := if phase < 7 then 8 else 11 }
  readLength repeatLength

/-- Write the bytes of a reference, of which no more than `left` may follow. -/
def follow (left? : Option Nat) (length : Nat) : LzmaStep Unit := do
  if left?.any (· < length) then throw .lzmaData
  copy ((← get).distances.headD 0) length

/-- Read a symbol; tell whether it was the end mark. -/
def readSymbol (left? : Option Nat) : LzmaStep Bool := do
  let s ← get
  if (← modelBit (isMatch + 16 * s.phase + placeState s)) = 0 then
    if left? = some 0 then throw .lzmaData
    readLiteral
    pure false
  else if (← modelBit (isRepeat + s.phase)) = 0 then
    match ← readMatch with
    | none => pure true
    | some length => do
      follow left? length
      pure false
  else
    let length ← readRepeat
    follow left? length
    pure false

/-- Whether the range coding is at its end. -/
def finished : LzmaStep Bool := do
  widenRange
  pure ((← get).point = 0)

/-- Read symbols up to the end: as many bytes as are said to follow, if that is said, or an end
mark. Behind the said number of bytes there may be an end mark if `marked`. -/
def readSymbols (left? : Option Nat) (marked : Bool) : Nat → LzmaStep Unit
  | 0 => throw .lzmaData
  | fuel + 1 => do
    if left? = some 0 then
      if ← finished then return
      if !marked then throw .lzmaData
    let before := (← get).out.size
    if ← readSymbol left? then
      if left?.any (· ≠ 0) then throw .lzmaData
      if !(← finished) then throw .lzmaData
    else
      let written := (← get).out.size - before
      readSymbols (left?.map (· - written)) marked fuel

/-- How many symbols there can be: a symbol takes the sixty-fourth part of a bit at least. -/
def symbolFuel (s : Source) : Nat := 64 * (s.bitsLeft + 64)

end Lzma

end SealedMatch
