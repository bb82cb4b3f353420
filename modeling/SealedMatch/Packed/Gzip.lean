/-
Module: SealedMatch.Packed.Gzip
Purpose: Gzip files: members of deflated data with their lengths and checksums.
Trusted boundary: none
Main exports: gunzip
-/
import SealedMatch.Packed.Checksum
import SealedMatch.Packed.Deflate

namespace SealedMatch

namespace Gzip

/-- Skip a text that a zero ends, or the end of the data. Every step takes a byte, so the number of
bytes is fuel enough. -/
def skipText : Nat → Unpack Unit
  | 0 => pure ()
  | fuel + 1 => do
    if ← atEnd then pure ()
    else if (← nextByte) = 0 then pure ()
    else skipText fuel

/-- Whether a flag of a header is set. -/
def flagged (flags : UInt8) (bit : Nat) : Bool := (flags.toNat >>> bit) % 2 == 1

/-- Read the header of a member behind its first two bytes. -/
def readHeader : Unpack Unit := do
  let head ← nextBytes 8
  let flags := head.getD 1 0
  demand (head.head? = some 8) .unknownGzipMethod
  if flagged flags 2 then
    let count ← nextNumber 2
    let _ ← nextBytes count
  let size := (← get).bytes.size
  if flagged flags 3 then skipText size
  if flagged flags 4 then skipText size
  if flagged flags 1 then
    let _ ← nextBytes 2

/-- Skip zeros between members. -/
def skipZeros : Nat → Unpack Unit
  | 0 => pure ()
  | fuel + 1 => do
    let s ← get
    if s.bitsLeft = 0 ∨ s.byteAt s.place ≠ 0 then pure ()
    else
      let _ ← nextByte
      skipZeros fuel

/-- Read the data of a member and what stands behind them. -/
def readMember : Unpack ByteArray := do
  readHeader
  let data ← inflate
  alignByte
  let stored ← nextNumber 4
  let length ← nextNumber 4
  let computed := crc32 data.toList
  demand (stored = computed.toNat) (.gzipChecksum (UInt32.ofNat stored) computed)
  demand (length = data.size % 2 ^ 32) .gzipLength
  skipZeros (← get).bytes.size
  pure data

/-- Read members to the end of the data. Every member takes a byte at least, so the number of bytes
is fuel enough. -/
def readMembers : Nat → ByteArray → Unpack ByteArray
  | 0, out => pure out
  | fuel + 1, out => do
    let s ← get
    let start ← nextBytes (min 2 (s.bitsLeft / 8))
    if start.isEmpty then pure out
    else
      demand (start = [0x1F, 0x8B]) (.noGzipMember start)
      let data ← readMember
      readMembers fuel (out ++ data)

end Gzip

/-- Unpack a gzip file. -/
def gunzip (bytes : ByteArray) : Except PackedDefect ByteArray :=
  (Gzip.readMembers (bytes.size + 1) ByteArray.empty).start bytes

end SealedMatch
