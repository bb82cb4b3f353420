/-
Module: SealedMatch.Policy.Configuration
Purpose: The matching policy of a run.
Trusted boundary: none
Main exports: MatchPolicy, MatchPolicy.ofFields, MatchPolicy.toRecord
-/
import SealedMatch.Radix.Digits

namespace SealedMatch

/-- How samples of one dataset are matched: the digits of scores, the width of the sum, the number
of features and the decision threshold. -/
structure MatchPolicy where
  datasetName : String
  digitSystem : DigitSystem
  sumWidth : Nat
  featureCount : Nat
  threshold : Nat
  datasetName_ne : datasetName ≠ ""
  blockCount_le_sumWidth : digitSystem.blockCount ≤ sumWidth
  featureCount_pos : 1 ≤ featureCount

namespace MatchPolicy

/-- Digits of scores range below the radix. -/
def radix (c : MatchPolicy) : Nat := c.digitSystem.radix

theorem le_toNat_of_le {n : Nat} {k : Int} (h : (n : Int) ≤ k) : n ≤ k.toNat := by omega

theorem one_le_toNat {k : Int} (h : 1 ≤ k) : 1 ≤ k.toNat := by omega

/-- Accept a policy. Each rule is checked in turn: the name is a text that is not blank, the digits
are in range, the sum is at least as wide as a score, there is a feature, and the threshold is not
negative. -/
def ofFields (name : Value) (blockLength blockCount sumWidth featureCount threshold : Int) :
    Except Failure MatchPolicy := do
  match name with
  | .text s =>
    if name_ok : s ≠ "" then
      let d ← DigitSystem.ofInts blockLength blockCount
      if width_ok : (d.blockCount : Int) ≤ sumWidth then
        if features_ok : 1 ≤ featureCount then
          if 0 ≤ threshold then
            pure ⟨s, d, sumWidth.toNat, featureCount.toNat, threshold.toNat, name_ok,
              le_toNat_of_le width_ok, one_le_toNat features_ok⟩
          else throw (.configuration (.negativeThreshold threshold))
        else throw (.configuration (.noFeatures featureCount))
      else throw (.configuration (.sumTooNarrow sumWidth))
    else throw (.configuration (.blankDatasetName name))
  | _ => throw (.configuration (.blankDatasetName name))

/-- The policy as a record. -/
def toRecord (c : MatchPolicy) : Record :=
  [("dataset_name", .text c.datasetName), ("block_length", .nat c.digitSystem.blockLength),
    ("block_count", .nat c.digitSystem.blockCount), ("sum_width", .nat c.sumWidth),
    ("number_of_features", .nat c.featureCount), ("threshold", .nat c.threshold)]

end MatchPolicy

end SealedMatch
