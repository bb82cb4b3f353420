/-
Module: SealedMatch.Proofs.Store.Bins
Purpose: The code of a measurement counts the boundaries below it, and grows with it.
Trusted boundary: none
Main exports: quantize_mono, quantize_eq_countP, quantize_of_incomparable, boundariesBelow,
  quantizeAll_counts
-/
import Mathlib.Data.List.Chain
import SealedMatch.Proofs.Decimal.Order
import SealedMatch.Store.Bins

namespace SealedMatch

/-! ### Values of any kind -/

section AnyOrder

variable {α : Type} [LE α] [DecidableLE α] {value greater : α} {boundaries : List α}

/-- The code only grows as the boundaries that are not exceeded become fewer. -/
theorem quantize_mono (h : ∀ b ∈ boundaries, greater ≤ b → value ≤ b) :
    quantize value boundaries ≤ quantize greater boundaries := by
  induction boundaries with
  | nil => exact le_rfl
  | cons b rest ih =>
      have tail := ih fun c hc => h c (List.mem_cons_of_mem b hc)
      have head := h b List.mem_cons_self
      unfold quantize
      split
      · exact Nat.zero_le _
      · rename_i exceeded
        rw [if_neg fun hb => exceeded (head hb)]
        exact Nat.succ_le_succ tail

/-- What compares with no boundary exceeds them all. -/
theorem quantize_of_incomparable (h : ∀ b ∈ boundaries, ¬ value ≤ b) :
    quantize value boundaries = boundaries.length := by
  induction boundaries with
  | nil => rfl
  | cons b rest ih =>
      unfold quantize
      rw [if_neg (h b List.mem_cons_self), ih fun c hc => h c (List.mem_cons_of_mem b hc)]
      rfl

/-- If no boundary that is exceeded stands behind one that is not, the code counts those that are
exceeded. -/
theorem quantize_eq_countP (h : boundaries.Pairwise fun b c => value ≤ b → value ≤ c) :
    quantize value boundaries = boundaries.countP fun b => ¬ value ≤ b := by
  induction boundaries with
  | nil => rfl
  | cons b rest ih =>
      obtain ⟨head, tail⟩ := List.pairwise_cons.1 h
      unfold quantize
      split
      · rename_i reached
        have none : rest.countP (fun c => ¬ value ≤ c) = 0 :=
          List.countP_eq_zero.2 fun c hc => by simpa using head c hc reached
        rw [List.countP_cons_of_neg (by simpa using reached), none]
      · rename_i exceeded
        rw [List.countP_cons_of_pos (by simpa using exceeded), ih tail]

/-- Codes fit one byte if there are few enough boundaries. -/
theorem toNat_quantize (hfew : boundaries.length ≤ maxCode) (value : α) :
    (UInt8.ofNat (quantize value boundaries)).toNat = quantize value boundaries := by
  have below := quantize_le_length value boundaries
  have fits : quantize value boundaries < 2 ^ 8 := by
    unfold maxCode at hfew
    omega
  rw [UInt8.toNat_ofNat', Nat.mod_eq_of_lt fits]

end AnyOrder

/-! ### Doubles -/

/-- How many boundaries lie strictly below a measurement, all of them if it is not-a-number. -/
def boundariesBelow (boundaries : List Float) (value : Float) : Nat :=
  if value.isNaN then boundaries.length else boundaries.countP (· < value)

/-- Boundaries that ascend from one to the next ascend throughout. -/
theorem pairwise_of_ascending {boundaries : List Float} (h : boundaries.IsChain (· ≤ ·)) :
    boundaries.Pairwise (· ≤ ·) := by
  have : Trans (LE.le : Float → Float → Prop) LE.le LE.le := ⟨Decimal.le_of_le_of_le⟩
  exact List.isChain_iff_pairwise.1 h

theorem quantize_eq_boundariesBelow {boundaries : List Float}
    (hnumbers : ∀ b ∈ boundaries, b.isNaN = false) (hascending : boundaries.IsChain (· ≤ ·))
    (value : Float) : quantize value boundaries = boundariesBelow boundaries value := by
  unfold boundariesBelow
  split
  · rename_i hvalue
    refine quantize_of_incomparable fun b _ hle => ?_
    rw [(Decimal.isNaN_of_le hle).1] at hvalue
    cases hvalue
  · rename_i hvalue
    have sorted : boundaries.Pairwise fun b c => value ≤ b → value ≤ c :=
      (pairwise_of_ascending hascending).imp fun hbc hvb => Decimal.le_of_le_of_le hvb hbc
    rw [quantize_eq_countP sorted]
    refine List.countP_congr fun b hb => ?_
    simpa using (Decimal.lt_iff_not_le (hnumbers b hb) (by simpa using hvalue)).symm

/-- A vector is refused exactly if there are too many boundaries for codes of one byte, whatever it
holds. Otherwise it gets a code for each of its measurements, and none is cut off. Codes grow with
the measurements, in whatever order the boundaries stand. If the boundaries are numbers in ascending
order, possibly repeated or infinite, the code counts those below the measurement. -/
theorem quantizeAll_counts (vector boundaries : List Float) :
    (∀ failure, quantizeAll vector boundaries = .error failure ↔
      maxCode < boundaries.length ∧ failure = .input (.tooManyBins boundaries.length)) ∧
    (boundaries.length ≤ maxCode → ∃ codes, quantizeAll vector boundaries = .ok codes ∧
      codes.map UInt8.toNat = vector.map fun value => quantize value boundaries) ∧
    (∀ value greater : Float, value ≤ greater →
      quantize value boundaries ≤ quantize greater boundaries) ∧
    ((∀ b ∈ boundaries, b.isNaN = false) → boundaries.IsChain (· ≤ ·) →
      ∀ value, quantize value boundaries = boundariesBelow boundaries value) := by
  refine ⟨fun failure => ?_, fun hfew => ?_, fun value greater hle => ?_, fun hnumbers hascending =>
    quantize_eq_boundariesBelow hnumbers hascending⟩
  · unfold quantizeAll
    split
    · rename_i many
      simp [many, eq_comm]
    · rename_i few
      simp [few]
  · refine ⟨vector.map fun value => UInt8.ofNat (quantize value boundaries), ?_, ?_⟩
    · unfold quantizeAll
      rw [if_neg (Nat.not_lt.2 hfew)]
    · rw [List.map_map]
      exact List.map_congr_left fun value _ => toNat_quantize hfew value
  · exact quantize_mono fun b _ hb => Decimal.le_of_le_of_le hle hb

/-- Both zeros, a repeated boundary and an infinite one. -/
def repeatedBoundaries : List Float := [-0.0, 0.0, 1.0, 1.0, 1.0 / 0.0]

theorem quantizeAll_counts_repeated :
    repeatedBoundaries.length ≤ maxCode ∧ (∀ b ∈ repeatedBoundaries, b.isNaN = false) ∧
      repeatedBoundaries.IsChain (· ≤ ·) ∧ (0.5 : Float) ≤ 1.0 ∧
      quantize 0.5 repeatedBoundaries ≤ quantize 1.0 repeatedBoundaries ∧
      ∃ codes, quantizeAll [0.5, 0.0 / 0.0, 1.0, -1.0 / 0.0, 7.0] repeatedBoundaries = .ok codes ∧
        codes.map UInt8.toNat = [2, 5, 2, 0, 4] := by
  have few : repeatedBoundaries.length ≤ maxCode := by decide
  have numbers : ∀ b ∈ repeatedBoundaries, b.isNaN = false := by decide +kernel
  have ascending : repeatedBoundaries.IsChain (· ≤ ·) := by decide +kernel
  have step : (0.5 : Float) ≤ 1.0 := by decide +kernel
  obtain ⟨_, accepted, grows, counts⟩ :=
    quantizeAll_counts [0.5, 0.0 / 0.0, 1.0, -1.0 / 0.0, 7.0] repeatedBoundaries
  obtain ⟨codes, hcodes, hlisted⟩ := accepted few
  refine ⟨few, numbers, ascending, step, grows _ _ step, codes, hcodes, ?_⟩
  rw [hlisted, funext fun value => counts numbers ascending value]
  decide +kernel

end SealedMatch
