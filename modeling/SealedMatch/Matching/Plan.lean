/-
Module: SealedMatch.Matching.Plan
Purpose: The flat order in which the lookups of an authentication are evaluated.
Trusted boundary: none
Main exports: LookupPlan, LookupPlan.build, LookupPlan.cutOutputs
-/
import SealedMatch.Template.Compiler

namespace SealedMatch

/-- Everything one authentication evaluates, feature by feature and digit by digit. Position `i`
pairs `codes[i]` with `lookups[i]`; feature `f` occupies the positions from the first to the second
number of `slices[f]`. -/
structure LookupPlan where
  codes : List Int
  lookups : List DigitLookup
  slices : List (Nat × Nat)
  /-- The feature of each position. -/
  features : List Nat
  /-- The digit of each position. -/
  blocks : List Int

namespace LookupPlan

def lookupCount (p : LookupPlan) : Nat := p.lookups.length

def featureCount (p : LookupPlan) : Nat := p.slices.length

/-- How many digits each feature has. -/
def digitCounts (p : LookupPlan) : List Nat := p.slices.map fun slice => slice.2 - slice.1

/-- Refuse a code that one of the feature's lookups does not cover. -/
def checkCode (feature : Nat) (code : Int) : List DigitLookup → Except Failure Unit
  | [] => pure ()
  | l :: rest => do
    let size ← l.codeCount
    if 0 ≤ code ∧ code < size then checkCode feature code rest
    else throw (.domain (.probeCode feature code size))

/-- The plan of no feature. -/
def empty : LookupPlan := ⟨[], [], [], [], []⟩

/-- Add the lookups of the next feature at the end. -/
def push (p : LookupPlan) (feature : Nat) (code : Int) (lookups : List DigitLookup) :
    LookupPlan where
  codes := p.codes ++ lookups.map fun _ => code
  lookups := p.lookups ++ lookups
  slices := p.slices ++ [(p.lookupCount, p.lookupCount + lookups.length)]
  features := p.features ++ lookups.map fun _ => feature
  blocks := p.blocks ++ lookups.map (·.block)

/-- Add features from one on, each with its probe code, after checking the code. -/
def extendFrom (p : LookupPlan) (feature : Nat) :
    List (Int × List DigitLookup) → Except Failure LookupPlan
  | [] => pure p
  | (code, lookups) :: rest => do
    checkCode feature code lookups
    (p.push feature code lookups).extendFrom (feature + 1) rest

/-- Pair every probe code with the lookups of its feature. There must be a code for every feature,
and every lookup must cover its code: a code outside would count as the digit zero. -/
def build (probe : List Int) (compiled : EnrolledTemplate) : Except Failure LookupPlan :=
  if probe.length ≠ compiled.featureCount then
    .error (.input (.probeLengthMismatch probe.length compiled.featureCount))
  else empty.extendFrom 0 (probe.zip compiled.lookups)

/-- Cut a buffer with one output for every position back into features. -/
def cutOutputs {α : Type} (p : LookupPlan) (outputs : List α) : List (Nat × List α) :=
  p.slices.mapIdx fun feature slice =>
    (feature, (outputs.drop slice.1).take (slice.2 - slice.1))

end LookupPlan

end SealedMatch
