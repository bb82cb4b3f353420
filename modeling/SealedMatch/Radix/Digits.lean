/-
Module: SealedMatch.Radix.Digits
Purpose: Integers as digits in a power-of-two radix, least significant first.
Trusted boundary: none
Main exports: digits, recompose, DigitSystem
-/
import SealedMatch.Failure.Cause

namespace SealedMatch

/-- The `count` least significant digits of an integer. Quotients are rounded down, so the digits
of a negative number are those of its residue. -/
def digits (radix : Int) : Nat → Int → List Int
  | 0, _ => []
  | count + 1, v => v % radix :: digits radix count (v / radix)

/-- The number with the given digits, whatever integers they are. -/
def recompose (radix : Int) : List Int → Int
  | [] => 0
  | d :: rest => d + radix * recompose radix rest

@[simp] theorem length_digits (radix : Int) (count : Nat) (v : Int) :
    (digits radix count v).length = count := by
  induction count generalizing v with
  | zero => rfl
  | succ count ih => simp [digits, ih]

/-- How numbers are cut into digits: `blockLength` bits a digit, `blockCount` digits a number. -/
structure DigitSystem where
  blockLength : Nat
  blockCount : Nat
  blockLength_pos : 1 ≤ blockLength
  blockLength_le : blockLength ≤ 4
  blockCount_pos : 1 ≤ blockCount
  blockCount_le : blockCount ≤ 16
deriving DecidableEq

namespace DigitSystem

/-- Digits range below the radix. -/
def radix (d : DigitSystem) : Nat := 2 ^ d.blockLength

/-- How many numbers the digits can tell apart. -/
def capacity (d : DigitSystem) : Nat := d.radix ^ d.blockCount

/-- Accept digits of one to four bits, one to sixteen of them. -/
def ofInts (blockLength blockCount : Int) : Except Failure DigitSystem :=
  if length_ok : 1 ≤ blockLength ∧ blockLength ≤ 4 then
    if count_ok : 1 ≤ blockCount ∧ blockCount ≤ 16 then
      .ok ⟨blockLength.toNat, blockCount.toNat, by omega, by omega, by omega, by omega⟩
    else .error (.configuration (.blockCountOutOfRange blockCount))
  else .error (.configuration (.blockLengthOutOfRange blockLength))

/-- The digits of an integer; what lies beyond the last digit is dropped. -/
def decompose (d : DigitSystem) (v : Int) : List Int :=
  digits d.radix d.blockCount v

end DigitSystem

end SealedMatch
