/-
Module: SealedMatch.Proofs.Table.DigitCount
Purpose: How many digits the corner of a table needs, and that fewer do not do.
Trusted boundary: none
Main exports: leadingDigitCount_eq_min, leadingDigitCount_of_neg, leadingDigitCount_pos_iff,
  emod_leadingDigitCount, DigitSystem.isLeast_leadingDigitCount, DigitSystem.earlyStopCount_exact
-/
import Mathlib.Data.List.TakeWhile
import Mathlib.Data.Nat.Digits.Lemmas
import Mathlib.Order.Bounds.Defs
import SealedMatch.Proofs.Table.Grid

namespace SealedMatch

/-! ### Where counting stops -/

/-- Where taking numbers from zero on stops early, the next one is not to be taken. -/
theorem takeWhile_range_stops {p : Nat → Bool} {n : Nat}
    (h : ((List.range n).takeWhile p).length < n) :
    p ((List.range n).takeWhile p).length = false := by
  induction n with
  | zero => simp at h
  | succ n ih =>
      rw [List.range_succ, List.takeWhile_append] at h ⊢
      by_cases full : ((List.range n).takeWhile p).length = (List.range n).length
      · rw [if_pos full] at h ⊢
        by_cases hp : p n = true
        · simp [hp] at h
        · simp [hp]
      · rw [if_neg full] at h ⊢
        rw [List.length_range] at full
        exact ih (by omega)

/-- All numbers before that one are to be taken. -/
theorem takeWhile_range_takes {p : Nat → Bool} {n i : Nat}
    (h : i < ((List.range n).takeWhile p).length) : p i = true := by
  have counted := List.takeWhile_prefix (l := List.range n) p
  have here : ((List.range n).takeWhile p)[i] = i := by
    rw [counted.getElem h, List.getElem_range]
  have taken := List.mem_takeWhile_imp (List.getElem_mem h)
  rwa [here] at taken

variable {bits count : Nat} {v largest : Int}

theorem radix_pos_of_bits (bits : Nat) : (0 : Int) < ((2 ^ bits : Nat) : Int) :=
  Int.natCast_pos.2 (Nat.two_pow_pos bits)

/-- Shifted by some digits, nothing is left of a number that has no more. -/
theorem shiftRight_eq_zero_iff (hv : 0 ≤ v) (taken : Nat) :
    v >>> (taken * bits) = 0 ↔ v < ((2 ^ bits : Nat) : Int) ^ taken := by
  have power : ((2 ^ (taken * bits) : Nat) : Int) = ((2 ^ bits : Nat) : Int) ^ taken := by
    push_cast
    rw [Nat.mul_comm, pow_mul]
  have positive := pow_pos (radix_pos_of_bits bits) taken
  rw [Int.shiftRight_eq_div_pow, power, Int.ediv_eq_iff_of_pos positive]
  constructor
  · rintro ⟨_, high⟩
    rwa [zero_mul, zero_add] at high
  · intro high
    rw [zero_mul, zero_add]
    exact ⟨hv, high⟩

/-- An arithmetic shift leaves something of every negative number. -/
theorem shiftRight_ne_zero (hv : v < 0) (shift : Nat) : v >>> shift ≠ 0 := by
  rw [Int.shiftRight_eq_div_pow]
  exact (Int.ediv_neg_of_neg_of_pos hv (Int.natCast_pos.2 (Nat.two_pow_pos shift))).ne

/-! ### Counting digits -/

/-- Where the count stops early, the number has no further digit. -/
theorem lt_pow_leadingDigitCount (hv : 0 ≤ v) (h : leadingDigitCount bits count v < count) :
    v < ((2 ^ bits : Nat) : Int) ^ leadingDigitCount bits count v := by
  have stops := takeWhile_range_stops h
  exact (shiftRight_eq_zero_iff hv _).1 (bne_eq_false_iff_eq.1 stops)

/-- Up to the count, the number has a further digit. -/
theorem pow_le_of_lt_leadingDigitCount (hv : 0 ≤ v) {taken : Nat}
    (h : taken < leadingDigitCount bits count v) : ((2 ^ bits : Nat) : Int) ^ taken ≤ v := by
  have takes := takeWhile_range_takes h
  rw [bne_iff_ne, Ne, shiftRight_eq_zero_iff hv] at takes
  exact Int.not_lt.1 takes

/-- As many digits are counted as the number has, but not more than there are. -/
theorem leadingDigitCount_eq_min (hv : 0 ≤ v) {length : Nat}
    (hlength : IsLeast {n : Nat | v < ((2 ^ bits : Nat) : Int) ^ n} length) :
    leadingDigitCount bits count v = min length count := by
  obtain ⟨enough, least⟩ := hlength
  have few := leadingDigitCount_le bits count v
  have atMost : leadingDigitCount bits count v ≤ length := by
    by_contra more
    exact absurd (pow_le_of_lt_leadingDigitCount hv (Nat.lt_of_not_le more)) (Int.not_le.2 enough)
  rcases Nat.lt_or_eq_of_le few with early | all
  · have atLeast : length ≤ leadingDigitCount bits count v :=
      least (lt_pow_leadingDigitCount hv early)
    omega
  · omega

/-- All digits of a negative number are counted. -/
theorem leadingDigitCount_of_neg (hv : v < 0) : leadingDigitCount bits count v = count := by
  unfold leadingDigitCount
  rw [List.takeWhile_eq_self_iff.2, List.length_range]
  intro i _
  exact bne_iff_ne.2 (shiftRight_ne_zero hv _)

/-- No digit is taken of zero, and at least one of every other number. -/
theorem leadingDigitCount_pos_iff (hcount : 0 < count) :
    0 < leadingDigitCount bits count largest ↔ largest ≠ 0 := by
  obtain ⟨count, rfl⟩ := Nat.exists_eq_succ_of_ne_zero hcount.ne'
  unfold leadingDigitCount
  rw [List.range_succ_eq_map, List.takeWhile_cons]
  by_cases hzero : largest = 0 <;> simp [hzero]

/-- The digits that are counted hold all of a number up to the largest one, as far as there are
digits. -/
theorem emod_leadingDigitCount (hlow : 0 ≤ v) (hhigh : v ≤ largest) :
    v % ((2 ^ bits : Nat) : Int) ^ leadingDigitCount bits count largest =
      v % ((2 ^ bits : Nat) : Int) ^ count := by
  have few := leadingDigitCount_le bits count largest
  rcases Nat.lt_or_eq_of_le few with hless | hall
  · have small := lt_pow_leadingDigitCount (hlow.trans hhigh) hless
    have radix := radix_pos_of_bits bits
    have wider : ((2 ^ bits : Nat) : Int) ^ leadingDigitCount bits count largest ≤
        ((2 ^ bits : Nat) : Int) ^ count := pow_le_pow_right₀ (by omega) few
    rw [Int.emod_eq_of_lt hlow (by omega), Int.emod_eq_of_lt hlow (by omega)]
  · rw [hall]

namespace DigitSystem

variable (d : DigitSystem)

/-- Every nonnegative number has a number of digits. -/
theorem exists_digitLength (hv : 0 ≤ v) :
    ∃ length, IsLeast {n : Nat | v < (d.radix : Int) ^ n} length := by
  obtain ⟨m, rfl⟩ := Int.eq_ofNat_of_zero_le hv
  have fits : ∀ n, (d.radix.digits m).length ≤ n ↔ (m : Int) < (d.radix : Int) ^ n := fun n =>
    (Nat.digits_length_le_iff d.two_le_radix m).trans (by exact_mod_cast Iff.rfl)
  exact ⟨_, (fits _).1 le_rfl, fun n hn => (fits n).2 hn⟩

/-- The first digits of a number make it up exactly if it has no further ones. -/
theorem recompose_take_eq_self_iff (hv : 0 ≤ v) (n : Nat) :
    recompose d.radix ((d.decompose v).take n) = v ↔
      v < (d.radix : Int) ^ min n d.blockCount := by
  unfold decompose
  rw [take_digits, recompose_digits d.radix_pos]
  constructor
  · intro same
    rw [← same]
    exact Int.emod_lt_of_pos v (pow_pos d.radix_pos _)
  · exact Int.emod_eq_of_lt hv

/-- Of a number within the capacity, the digits that are counted are the fewest that make up every
number up to it. -/
theorem isLeast_leadingDigitCount (hlow : 0 ≤ largest) (hhigh : largest < d.capacity) :
    IsLeast {n : Nat | ∀ v : Int, 0 ≤ v → v ≤ largest →
        recompose d.radix ((d.decompose v).take n) = v}
      (leadingDigitCount d.blockLength d.blockCount largest) := by
  obtain ⟨length, hlength⟩ := d.exists_digitLength hlow
  rw [capacity_eq] at hhigh
  have fits : length ≤ d.blockCount := hlength.2 hhigh
  rw [leadingDigitCount_eq_min hlow hlength, Nat.min_eq_left fits]
  constructor
  · intro v hv hle
    rw [d.recompose_take_eq_self_iff hv, Nat.min_eq_left fits]
    exact Int.lt_of_le_of_lt hle hlength.1
  · intro n hn
    have whole := (d.recompose_take_eq_self_iff hlow n).1 (hn largest hlow le_rfl)
    exact (hlength.2 whole).trans (Nat.min_le_left n d.blockCount)

/-- As many digits are looked up as the corner of a table has, but not more than there are; none of
zero, and all of a negative corner. Of a corner within the capacity these are the fewest digits that
make up every number up to it. -/
theorem earlyStopCount_exact {t : Tensor} {rows columns : Nat} (h : t.Grid rows columns) :
    ∃ corner k, t.read [0, 0] = .ok corner ∧ earlyStopCount t d = .ok k ∧
      (0 ≤ corner → ∃ length, IsLeast {n : Nat | corner < (d.radix : Int) ^ n} length ∧
        k = min length d.blockCount) ∧
      (k = 0 ↔ corner = 0) ∧ (corner < 0 → k = d.blockCount) ∧
      (0 ≤ corner → corner < d.capacity →
        IsLeast {n : Nat | ∀ v : Int, 0 ≤ v → v ≤ corner →
          recompose d.radix ((d.decompose v).take n) = v} k) := by
  have first : ∀ {n : Nat}, 0 < n → (0 : Int) ≤ 0 ∧ (0 : Int) < n := fun hn =>
    ⟨le_rfl, Int.natCast_pos.2 hn⟩
  obtain ⟨corner, hread⟩ : ∃ corner, t.read [0, 0] = .ok corner :=
    ⟨_, h.read_eq (first h.rows_pos) (first h.columns_pos) ⟨by decide, by decide⟩⟩
  have counted :
      earlyStopCount t d = .ok (leadingDigitCount d.blockLength d.blockCount corner) := by
    unfold earlyStopCount
    rw [hread, ok_bind]
    rfl
  refine ⟨corner, _, hread, counted, fun hlow => ?_, ?_, leadingDigitCount_of_neg,
    d.isLeast_leadingDigitCount⟩
  · obtain ⟨length, hlength⟩ := d.exists_digitLength hlow
    exact ⟨length, hlength, leadingDigitCount_eq_min hlow hlength⟩
  · rw [← not_iff_not, ← Ne, ← Nat.pos_iff_ne_zero]
    exact leadingDigitCount_pos_iff d.blockCount_pos

/-- A row that begins with a number. -/
def rowOf (corner : Int) : Tensor := ⟨[1, 2], #[corner, 63], rfl⟩

theorem grid_rowOf (corner : Int) : (rowOf corner).Grid 1 2 := ⟨rfl, by decide, by decide⟩

/-- With five digits of two bits, sixty-four, the third power of the radix, is the least number that
needs a fourth digit. Minus one gets all five. -/
theorem earlyStopCount_exact_boundary :
    ∃ d : DigitSystem, d.radix = 4 ∧ d.blockCount = 5 ∧ (rowOf 64).Grid 1 2 ∧
      (rowOf (-1)).Grid 1 2 ∧ earlyStopCount (rowOf 64) d = .ok 4 ∧
      IsLeast {n : Nat | (64 : Int) < (d.radix : Int) ^ n} 4 ∧
      IsLeast {n : Nat | ∀ v : Int, 0 ≤ v → v ≤ 64 →
        recompose d.radix ((d.decompose v).take n) = v} 4 ∧
      earlyStopCount (rowOf (-1)) d = .ok 5 := by
  obtain ⟨d, hd⟩ : ∃ d : DigitSystem, d = ⟨2, 5, by decide, by decide, by decide, by decide⟩ :=
    ⟨_, rfl⟩
  have radix : d.radix = 4 := by rw [hd]; rfl
  have count : d.blockCount = 5 := by rw [hd]
  have four : earlyStopCount (rowOf 64) d = .ok 4 := by rw [hd]; rfl
  obtain ⟨_, k, hread, hk, digits, _, _, fewest⟩ := d.earlyStopCount_exact (grid_rowOf 64)
  obtain ⟨_, k', hread', hk', _, _, negative, _⟩ := d.earlyStopCount_exact (grid_rowOf (-1))
  cases hread
  cases hread'
  obtain rfl : k = 4 := Except.ok.inj (hk.symm.trans four)
  obtain ⟨length, hlength, hmin⟩ := digits (by decide)
  obtain rfl : length = 4 := by omega
  refine ⟨d, radix, count, grid_rowOf 64, grid_rowOf (-1), four, hlength, fewest (by decide) ?_, ?_⟩
  · unfold capacity
    rw [radix, count]
    decide
  · rw [hk', negative (by decide), count]

end DigitSystem

end SealedMatch
