/-
Module: SealedMatch.Packed.Source
Purpose: Packed data, read bit by bit or byte by byte.
Trusted boundary: none
Main exports: Source, Unpack, lowBits, highBits, nextByte
-/
import SealedMatch.Packed.Defect
import SealedMatch.Power

namespace SealedMatch

/-- Packed data, and how many of its bits have been read. -/
structure Source where
  bytes : ByteArray
  position : Nat

namespace Source

/-- The byte at a place, zero behind the last one. -/
def byteAt (s : Source) (place : Nat) : UInt8 :=
  if h : place < s.bytes.size then s.bytes[place] else 0

/-- How many bits are left. -/
def bitsLeft (s : Source) : Nat := 8 * s.bytes.size - s.position

/-- The number of the byte that the next bit belongs to. -/
def place (s : Source) : Nat := s.position / 8

end Source

/-- A step of unpacking: it reads on in a source or meets a defect. -/
abbrev Unpack (α : Type) := StateT Source (Except PackedDefect) α

/-- Read from the start of packed data. -/
def Unpack.start {α : Type} (p : Unpack α) (bytes : ByteArray) : Except PackedDefect α :=
  (p.run ⟨bytes, 0⟩).map Prod.fst

/-- Meet a defect. -/
def meet {α : Type} (defect : PackedDefect) : Unpack α := throw defect

/-- Meet a defect unless a condition holds. -/
def demand (condition : Bool) (defect : PackedDefect) : Unpack Unit :=
  if condition then pure () else meet defect

/-- The bit at a position, the least significant bit of a byte first. -/
def lowBitAt (s : Source) (position : Nat) : Nat :=
  ((s.byteAt (position / 8)).toNat >>> (position % 8)) % 2

/-- The bit at a position, the most significant bit of a byte first. -/
def highBitAt (s : Source) (position : Nat) : Nat :=
  ((s.byteAt (position / 8)).toNat >>> (7 - position % 8)) % 2

/-- The number that `count` bits from a position on form, the first one least significant. -/
def lowNumberAt (s : Source) (position : Nat) : Nat → Nat
  | 0 => 0
  | count + 1 => lowBitAt s position + 2 * lowNumberAt s (position + 1) count

/-- The number that `count` bits from a position on form, the first one most significant. -/
def highNumberAt (s : Source) (position : Nat) : Nat → Nat
  | 0 => 0
  | count + 1 => 2 * highNumberAt s position count + highBitAt s (position + count)

/-- Read bits that must all be there. -/
def readNumber (numberAt : Source → Nat → Nat → Nat) (count : Nat) : Unpack Nat := do
  let s ← get
  demand (count ≤ s.bitsLeft) .unfinished
  set { s with position := s.position + count }
  pure (numberAt s s.position count)

/-- Read a number of some bits, the first one least significant. -/
def lowBits (count : Nat) : Unpack Nat := readNumber lowNumberAt count

/-- Read a number of some bits, the first one most significant. -/
def highBits (count : Nat) : Unpack Nat := readNumber highNumberAt count

/-- Skip what is left of a byte that has been begun. -/
def alignByte : Unpack Unit :=
  modify fun s => { s with position := (s.position + 7) / 8 * 8 }

/-- Read one byte. -/
def nextByte : Unpack UInt8 := do
  let n ← lowBits 8
  pure (UInt8.ofNat n)

/-- Read some bytes. -/
def nextBytes (count : Nat) : Unpack (List UInt8) := do
  let s ← get
  demand (8 * count ≤ s.bitsLeft) .unfinished
  set { s with position := s.position + 8 * count }
  pure ((List.range count).map fun i => s.byteAt (s.place + i))

/-- Whether all bytes have been read. -/
def atEnd : Unpack Bool := do
  let s ← get
  pure (s.bitsLeft = 0)

/-- A number in bytes, the first one least significant. -/
def littleEndian (bytes : List UInt8) : Nat :=
  bytes.foldr (fun b n => b.toNat + 256 * n) 0

/-- Read a number of some bytes, the first one least significant. -/
def nextNumber (count : Nat) : Unpack Nat := do
  pure (littleEndian (← nextBytes count))

/-- Read streams one behind the other to the end of the data. What follows a stream and is none,
`ignores` says by which defect, does not count. Every stream takes a byte at least, so the number of
bytes is fuel enough. -/
def readMoreStreams (stream : Unpack ByteArray) (ignores : PackedDefect → Bool) :
    Nat → ByteArray → Unpack ByteArray
  | 0, out => pure out
  | fuel + 1, out => do
    if ← atEnd then pure out
    else
      let s ← get
      match stream.run s with
      | .ok (data, s) =>
        set s
        readMoreStreams stream ignores fuel (out ++ data)
      | .error defect => if ignores defect then pure out else meet defect

/-- Read streams, the first of which must be sound. -/
def readStreams (stream : Unpack ByteArray) (ignores : PackedDefect → Bool) (fuel : Nat) :
    Unpack ByteArray := do
  let data ← stream
  readMoreStreams stream ignores fuel data

/-- Write the bytes that lie `distance` bytes back once more, `count` of them. -/
def copyBack (out : ByteArray) (distance : Nat) : Nat → ByteArray
  | 0 => out
  | count + 1 =>
    let place := out.size - distance
    let b := if h : place < out.size then out[place] else 0
    copyBack (out.push b) distance count

end SealedMatch
