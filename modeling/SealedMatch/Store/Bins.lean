/-
Module: SealedMatch.Store.Bins
Purpose: Measurements as indices of quantization bins.
Trusted boundary: none
Main exports: quantize, quantizeAll
-/
import SealedMatch.Failure.Cause

namespace SealedMatch

/-- The index of the first boundary that the value does not exceed, or the number of boundaries if
it exceeds them all. The boundaries may come in any order, and a value that cannot be compared
exceeds them all. -/
def quantize {α : Type} [LE α] [DecidableLE α] (value : α) : List α → Nat
  | [] => 0
  | boundary :: rest => if value ≤ boundary then 0 else quantize value rest + 1

/-- The greatest code that fits one byte. -/
def maxCode : Nat := 255

/-- The codes of all features of a vector. There must be few enough boundaries for codes of one
byte. -/
def quantizeAll {α : Type} [LE α] [DecidableLE α] (vector boundaries : List α) :
    Except Failure (List UInt8) :=
  if maxCode < boundaries.length then .error (.input (.tooManyBins boundaries.length))
  else .ok (vector.map fun value => UInt8.ofNat (quantize value boundaries))

theorem quantize_le_length {α : Type} [LE α] [DecidableLE α] (value : α) (boundaries : List α) :
    quantize value boundaries ≤ boundaries.length := by
  induction boundaries with
  | nil => simp [quantize]
  | cons b rest ih =>
    simp only [quantize, List.length_cons]
    split <;> omega

end SealedMatch
