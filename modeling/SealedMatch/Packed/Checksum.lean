/-
Module: SealedMatch.Packed.Checksum
Purpose: Remainders of binary polynomials, as packed data carry them.
Trusted boundary: none
Main exports: crc32, crc64, crc32High
-/

namespace SealedMatch

/-- The remainder after eight more bits, the least significant one first. -/
def reduceLow64 (polynomial : UInt64) : Nat → UInt64 → UInt64
  | 0, r => r
  | n + 1, r =>
    reduceLow64 polynomial n (if r &&& 1 == 1 then (r >>> 1) ^^^ polynomial else r >>> 1)

/-- The remainder after one more byte. -/
def crcLowByte (polynomial : UInt64) (r : UInt64) (b : UInt8) : UInt64 :=
  reduceLow64 polynomial 8 (r ^^^ b.toUInt64)

/-- The 32-bit remainder of bytes, the least significant bits first. -/
def crc32 (bytes : List UInt8) : UInt32 :=
  ((bytes.foldl (crcLowByte 0xEDB88320) 0xFFFFFFFF) ^^^ 0xFFFFFFFF).toUInt32

/-- The 64-bit remainder of bytes, the least significant bits first. -/
def crc64 (bytes : List UInt8) : UInt64 :=
  (bytes.foldl (crcLowByte 0xC96C5795D7870F42) 0xFFFFFFFFFFFFFFFF) ^^^ 0xFFFFFFFFFFFFFFFF

/-- The remainder after eight more bits, the most significant one first. -/
def reduceHigh32 : Nat → UInt32 → UInt32
  | 0, r => r
  | n + 1, r =>
    reduceHigh32 n (if r >>> 31 == 1 then (r <<< 1) ^^^ 0x04C11DB7 else r <<< 1)

/-- The remainder after one more byte. -/
def crcHighByte (r : UInt32) (b : UInt8) : UInt32 := reduceHigh32 8 (r ^^^ (b.toUInt32 <<< 24))

/-- The 32-bit remainder of bytes, the most significant bits first. -/
def crc32High (bytes : List UInt8) : UInt32 :=
  (bytes.foldl crcHighByte 0xFFFFFFFF) ^^^ 0xFFFFFFFF

end SealedMatch
