/-
Module: SealedMatch.Proofs.Radix.Numerals
Purpose: The numbers below the capacity and the lists of so many digits correspond one to one.
Trusted boundary: none
Main exports: recompose_eq_sum, recompose_append, recompose_range, DigitSystem.numerals,
  DigitSystem.decompose_corresponds
-/
import Mathlib.Data.Set.Function
import SealedMatch.Proofs.Radix.Digits

namespace SealedMatch

variable {r : Int}

/-! ### The number of a list of digits -/

/-- Digits from a place on count as much more as the power of the place says. -/
theorem sum_zipIdx (r : Int) (ds : List Int) (place : Nat) :
    ((ds.zipIdx place).map fun x => x.1 * r ^ x.2).sum = r ^ place * recompose r ds := by
  induction ds generalizing place with
  | nil => simp [recompose]
  | cons d ds ih =>
      rw [List.zipIdx_cons, List.map_cons, List.sum_cons, ih, recompose, pow_succ]
      ring

/-- Each digit counts as its place says, whatever integer it is. -/
theorem recompose_eq_sum (r : Int) (ds : List Int) :
    recompose r ds = (ds.zipIdx.map fun x => x.1 * r ^ x.2).sum := by
  rw [sum_zipIdx, pow_zero, one_mul]

/-- What stands behind some digits counts as many places more. -/
theorem recompose_append (r : Int) (ds es : List Int) :
    recompose r (ds ++ es) = recompose r ds + r ^ ds.length * recompose r es := by
  induction ds with
  | nil => simp [recompose]
  | cons d ds ih =>
      simp only [List.cons_append, recompose, List.length_cons]
      rw [ih]
      ring

theorem recompose_zeros (r : Int) (n : Nat) : recompose r (List.replicate n 0) = 0 := by
  induction n with
  | zero => rfl
  | succ n ih => simp [List.replicate_succ, recompose, ih]

/-- Digits make up a number that has no more digits. -/
theorem recompose_range (hr : 0 < r) {ds : List Int} (h : ∀ d ∈ ds, 0 ≤ d ∧ d < r) :
    0 ≤ recompose r ds ∧ recompose r ds < r ^ ds.length := by
  have positive : 0 < r ^ ds.length := pow_pos hr _
  rw [← recompose_emod hr h]
  exact ⟨Int.emod_nonneg _ positive.ne', Int.emod_lt_of_pos _ positive⟩

/-! ### The correspondence -/

namespace DigitSystem

/-- The lists of as many digits as a system has, least significant first. -/
def numerals (d : DigitSystem) : Set (List Int) :=
  {ds | ds.length = d.blockCount ∧ ∀ x ∈ ds, 0 ≤ x ∧ x < d.radix}

/-- The numbers that so many digits can tell apart. -/
def residues (d : DigitSystem) : Set Int := {v | 0 ≤ v ∧ v < d.capacity}

variable (d : DigitSystem)

theorem decompose_mem_numerals (v : Int) : d.decompose v ∈ d.numerals :=
  ⟨length_digits _ _ _, digits_range d.radix_pos _ _⟩

theorem recompose_decompose (v : Int) : recompose d.radix (d.decompose v) = v % d.capacity := by
  rw [capacity_eq]
  exact recompose_digits d.radix_pos d.blockCount v

theorem decompose_recompose {ds : List Int} (h : ds ∈ d.numerals) :
    d.decompose (recompose d.radix ds) = ds := by
  unfold decompose
  rw [← h.1]
  exact digits_recompose h.2

theorem recompose_mem_residues {ds : List Int} (h : ds ∈ d.numerals) :
    recompose d.radix ds ∈ d.residues := by
  unfold residues
  rw [capacity_eq, ← h.1]
  exact recompose_range d.radix_pos h.2

/-- Below the capacity, a number and its digits determine each other. -/
theorem invOn_decompose :
    Set.InvOn (recompose d.radix) d.decompose d.residues d.numerals := by
  constructor
  · intro v hv
    rw [recompose_decompose, Int.emod_eq_of_lt hv.1 hv.2]
  · intro ds hds
    exact d.decompose_recompose hds

/-- Every integer, negative or beyond the capacity, has a numeral, which stands for its residue, and
every numeral is the one of its number. So numbers below the capacity and numerals correspond one to
one. Zeros in front of the most significant digit count nothing. -/
theorem decompose_corresponds :
    (∀ v : Int, (d.decompose v).length = d.blockCount ∧
      (∀ x ∈ d.decompose v, 0 ≤ x ∧ x < d.radix) ∧
      recompose d.radix (d.decompose v) = v % d.capacity) ∧
    (∀ ds : List Int, ds.length = d.blockCount → (∀ x ∈ ds, 0 ≤ x ∧ x < d.radix) →
      d.decompose (recompose d.radix ds) = ds) ∧
    Set.BijOn d.decompose d.residues d.numerals ∧
    Set.BijOn (recompose d.radix) d.numerals d.residues ∧
    ∀ (ds : List Int) (n : Nat),
      recompose d.radix ds = (ds.zipIdx.map fun x => x.1 * (d.radix : Int) ^ x.2).sum ∧
        recompose d.radix (ds ++ List.replicate n 0) = recompose d.radix ds := by
  have inverse := d.invOn_decompose
  have decomposed : Set.MapsTo d.decompose d.residues d.numerals :=
    fun v _ => d.decompose_mem_numerals v
  have recomposed : Set.MapsTo (recompose d.radix) d.numerals d.residues :=
    fun _ hds => d.recompose_mem_residues hds
  refine ⟨fun v => ?_, fun ds hlength hrange => ?_, inverse.bijOn decomposed recomposed,
    inverse.symm.bijOn recomposed decomposed, fun ds n => ⟨recompose_eq_sum _ _, ?_⟩⟩
  · obtain ⟨hlength, hrange⟩ := d.decompose_mem_numerals v
    exact ⟨hlength, hrange, d.recompose_decompose v⟩
  · exact d.decompose_recompose ⟨hlength, hrange⟩
  · rw [recompose_append, recompose_zeros, mul_zero, add_zero]

/-- With three digits of two bits, minus five has the digits of fifty-nine, and three, two and one
are the digits of twenty-seven. -/
theorem decompose_corresponds_quaternary :
    ∃ d : DigitSystem, d.radix = 4 ∧ [3, 2, 1].length = d.blockCount ∧
      (∀ x ∈ [(3 : Int), 2, 1], 0 ≤ x ∧ x < d.radix) ∧
      d.decompose (recompose d.radix [3, 2, 1]) = [3, 2, 1] ∧
      recompose d.radix [3, 2, 1] = 27 ∧ d.decompose (-5) = [3, 2, 3] ∧
      recompose d.radix (d.decompose (-5)) = 59 := by
  obtain ⟨d, hradix, hcount⟩ : ∃ d : DigitSystem, d.radix = 4 ∧ d.blockCount = 3 :=
    ⟨⟨2, 3, by decide, by decide, by decide, by decide⟩, rfl, rfl⟩
  obtain ⟨encoded, decoded, _⟩ := d.decompose_corresponds
  obtain ⟨_, _, residue⟩ := encoded (-5)
  have capacity : d.capacity = 64 := by
    unfold DigitSystem.capacity
    rw [hradix, hcount]
  have range : ∀ x ∈ [(3 : Int), 2, 1], 0 ≤ x ∧ x < d.radix := by
    rw [hradix]
    decide
  refine ⟨d, hradix, hcount.symm, range, decoded [3, 2, 1] hcount.symm range, ?_, ?_, ?_⟩
  · rw [hradix]
    rfl
  · unfold decompose
    rw [hradix, hcount]
    decide
  · rw [residue, capacity]
    rfl

end DigitSystem

end SealedMatch
