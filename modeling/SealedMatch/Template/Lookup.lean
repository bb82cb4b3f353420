/-
Module: SealedMatch.Template.Lookup
Purpose: One digit of one feature's score, as a function of the probe code.
Trusted boundary: none
Main exports: DigitLookup, DigitLookup.evaluate, DigitLookup.evaluateOrZero, DigitLookup.tabulate
-/
import SealedMatch.Table.Score

namespace SealedMatch

/-- A digit of the scores of one feature against one template code. The table has an axis each for
template codes, probe codes and digits, and is shared by all lookups of the feature. -/
structure DigitLookup where
  feature : Int
  template : Int
  block : Int
  table : Tensor

namespace DigitLookup

/-- How many probe codes the table covers. -/
def codeCount (l : DigitLookup) : Except Failure Nat := l.table.axisLength 1

/-- The digit of a probe code in the table, if the table covers the code. -/
def entry? (l : DigitLookup) (code : Int) : Except Failure (Option Int) := do
  let size ← l.codeCount
  if 0 ≤ code ∧ code < size then
    let digit ← l.table.read [l.template, code, l.block]
    pure (some digit)
  else pure none

/-- The digit of a probe code, which must be covered. -/
def evaluate (l : DigitLookup) (code : Int) : Except Failure Int := do
  match ← l.entry? code with
  | some digit => pure digit
  | none =>
    let size ← l.codeCount
    throw (.domain (.probeCode l.feature code size))

/-- The digit of a probe code, zero where the table does not cover it. -/
def evaluateOrZero (l : DigitLookup) (code : Int) : Except Failure Int := do
  pure ((← l.entry? code).getD 0)

/-- What the table holds for the template code and the digit, with an axis for probe codes and the
axes behind that of digits, if there are any. -/
def row (l : DigitLookup) : Except Fault Tensor := do
  Tensor.requireIndices [l.template, l.block]
  match l.table.shape with
  | templates :: codes :: blocks :: inner =>
    let t ← Tensor.place 0 templates l.template
    let b ← Tensor.place 2 blocks l.block
    let size := volume inner
    pure ⟨codes :: inner,
      Array.ofFn fun i : Fin (volume (codes :: inner)) =>
        l.table.entries.getD (((t * codes + i.val / size) * blocks + b) * size + i.val % size) 0,
      by simp⟩
  | shape => throw (.tooManyIndices shape.length 3)

/-- Leave out the first axes while they have one position and others follow. -/
def withoutLeadingOnes : List Nat → List Nat
  | 1 :: n :: shape => withoutLeadingOnes (n :: shape)
  | shape => shape

/-- The entries of the first `covered` positions of a row. A row with further axes only has them if
it holds a single entry. -/
def firstEntries (row : Tensor) (covered : Nat) : Except Fault (Array Int) :=
  let shape := withoutLeadingOnes (covered :: row.shape.drop 1)
  if shape = [covered] then .ok (row.entries.extract 0 covered)
  else .error (.shapesDiffer shape [covered])

/-- The digits of the codes below `size`, zero for those that the table does not cover. -/
def tabulate (l : DigitLookup) (size : Int) : Except Failure (Array Int) :=
  Except.mapError Failure.fault do
    let size ← newAxis [] size
    let row ← l.row
    let entries ← firstEntries row (min size (row.shape.headD 0))
    pure (Array.ofFn fun code : Fin size => entries.getD code.val 0)

end DigitLookup

end SealedMatch
