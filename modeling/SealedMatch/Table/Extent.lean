/-
Module: SealedMatch.Table.Extent
Purpose: Which shapes an array of words can have.
Trusted boundary: none
Main exports: mostAxes, mostEntries, newAxis, requireRow, requireShift, wordPower
-/
import SealedMatch.Table.Tensor

namespace SealedMatch

/-- How many axes an array has at most. -/
def mostAxes : Nat := 64

/-- How many entries an array can have before memory runs out. -/
def mostEntries : Nat := 2 ^ 36

/-- How many words an array takes: axes without length do not count. -/
def spread (shape : List Nat) : Nat := volume (shape.filter (· ≠ 0))

/-- Accept a length for a new last axis. -/
def newAxis (shape : List Nat) (length : Int) : Except Fault Nat :=
  if mostAxes ≤ shape.length then .error (.tooManyAxes (shape.length + 1) mostAxes)
  else if !isWord length then .error .axisTooLong
  else if length < 0 then .error .negativeDimension
  else
    let shape := shape ++ [length.toNat]
    if !isWord (8 * spread shape) then .error .arrayTooLarge
    else if mostEntries < spread shape then .error (.noRoomFor shape)
    else .ok length.toNat

/-- Accept a number of numbers that are listed from zero on. -/
def requireRow (length : Nat) : Except Fault Unit :=
  if 2 ^ 63 < length then .error .rowTooLong
  else (newAxis [] length).map fun _ => ()

/-- Shifts from which on a power of two is past all numbers. -/
def greatestShift : Int := 30 * (2 ^ 61 - 9)

/-- Shifts from which on there is no memory for a power of two. -/
def longestShift : Int := 2 ^ 40

/-- Exponents up to which the powers of integers are written out. -/
def mostFactors : Nat := 2 ^ 32

/-- Refuse shifts whose power of two no number or no memory holds. -/
def requireShift (shift : Int) : Except Fault Unit :=
  if shift < 0 then .error .negativeShift
  else if greatestShift ≤ shift then .error .shiftTooLarge
  else if longestShift ≤ shift then .error .noRoom
  else .ok ()

/-- Two to a power. A number past all words stands for all that are as large. -/
def wordPower (shift : Int) : Except Fault Nat :=
  (requireShift shift).map fun _ => 2 ^ min shift.toNat 64

end SealedMatch
