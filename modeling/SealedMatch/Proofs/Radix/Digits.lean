/-
Module: SealedMatch.Proofs.Radix.Digits
Purpose: Digits determine a number modulo a power of the radix.
Trusted boundary: none
Main exports: digits_range, digits_zero, digits_eq_map, emod_pow_succ, recompose_digits,
  digits_emod, digits_recompose, digits_append_zeros, add_mul_lt_iff
-/
import Mathlib.Algebra.Order.Ring.Int
import Mathlib.Tactic.LinearCombination
import Mathlib.Tactic.Linarith
import Mathlib.Tactic.Ring
import SealedMatch.Radix.Digits

namespace SealedMatch

variable {r : Int}

/-- Every digit lies below the radix. -/
theorem digits_range (hr : 0 < r) (n : Nat) (v : Int) : ∀ d ∈ digits r n v, 0 ≤ d ∧ d < r := by
  induction n generalizing v with
  | zero => simp [digits]
  | succ n ih =>
      intro d hd
      rcases List.mem_cons.1 hd with rfl | hd
      · exact ⟨Int.emod_nonneg v hr.ne', Int.emod_lt_of_pos v hr⟩
      · exact ih (v / r) d hd

/-- Digits are natural numbers. -/
theorem map_toNat_digits (hr : 0 < r) (n : Nat) (v : Int) :
    ((digits r n v).map Int.toNat).map (↑) = digits r n v := by
  rw [List.map_map]
  refine (List.map_congr_left fun d hd => ?_).trans (List.map_id _)
  exact Int.toNat_of_nonneg (digits_range hr n v d hd).1

theorem toNat_digits_lt {r : Nat} (hr : 0 < r) (n : Nat) (v : Int) :
    ∀ d ∈ (digits r n v).map Int.toNat, d < r := by
  intro d hd
  obtain ⟨x, hx, rfl⟩ := List.mem_map.1 hd
  obtain ⟨low, high⟩ := digits_range (Int.natCast_pos.2 hr) n v x hx
  omega

theorem digits_zero (n : Nat) : digits r n 0 = List.replicate n 0 := by
  induction n with
  | zero => rfl
  | succ n ih => simp [digits, List.replicate_succ, ih]

theorem ediv_pow_succ (hr : 0 ≤ r) (v : Int) (n : Nat) : v / r / r ^ n = v / r ^ (n + 1) := by
  rw [Int.ediv_ediv_of_nonneg hr, pow_succ, mul_comm]

/-- Each digit on its own. -/
theorem digits_eq_map (hr : 0 ≤ r) (n : Nat) (v : Int) :
    digits r n v = (List.range n).map fun b => v / r ^ b % r := by
  induction n generalizing v with
  | zero => rfl
  | succ n ih =>
      rw [List.range_succ_eq_map, List.map_cons, List.map_map]
      simp only [digits]
      rw [ih, pow_zero, Int.ediv_one]
      congr 1
      apply List.map_congr_left
      intro b _
      simp only [Function.comp_apply]
      rw [ediv_pow_succ hr]

theorem take_digits (n m : Nat) (v : Int) : (digits r n v).take m = digits r (min m n) v := by
  induction n generalizing m v with
  | zero => simp [digits]
  | succ n ih =>
      cases m with
      | zero => simp [digits]
      | succ m => rw [digits, List.take_succ_cons, ih, Nat.succ_min_succ, digits]

/-- The first digit of a residue is that of the number; the others are those of the residue of the
quotient. -/
theorem emod_pow_succ (hr : 0 < r) (n : Nat) (v : Int) :
    v % r ^ (n + 1) = v % r + r * (v / r % r ^ n) := by
  have hpow : 0 < r ^ n := pow_pos hr n
  have outer : r * (v / r) + v % r = v := Int.mul_ediv_add_emod v r
  have inner : r ^ n * (v / r / r ^ n) + v / r % r ^ n = v / r := Int.mul_ediv_add_emod _ _
  have low := Int.emod_nonneg v hr.ne'
  have low' := Int.emod_lt_of_pos v hr
  have high := Int.emod_nonneg (v / r) hpow.ne'
  have high' := Int.emod_lt_of_pos (v / r) hpow
  have split : v = (v % r + r * (v / r % r ^ n)) + r ^ (n + 1) * (v / r / r ^ n) := by
    rw [pow_succ]
    linear_combination -outer - r * inner
  have nonneg : 0 ≤ v % r + r * (v / r % r ^ n) :=
    add_nonneg low (mul_nonneg hr.le high)
  have below : v % r + r * (v / r % r ^ n) < r ^ (n + 1) := by
    have step : r * (v / r % r ^ n + 1) ≤ r * r ^ n :=
      mul_le_mul_of_nonneg_left (by omega) hr.le
    rw [pow_succ]
    linarith
  conv_lhs => rw [split, Int.add_mul_emod_self_left]
  exact Int.emod_eq_of_lt nonneg below

/-- Digits make up the residue of their number. -/
theorem recompose_digits (hr : 0 < r) (n : Nat) (v : Int) :
    recompose r (digits r n v) = v % r ^ n := by
  induction n generalizing v with
  | zero => simp [digits, recompose]
  | succ n ih =>
      simp only [digits, recompose]
      rw [ih, emod_pow_succ hr]

/-- Remainder and quotient of a number given by its first digit and the others. -/
theorem emod_ediv_add_mul {d : Int} (low : 0 ≤ d) (high : d < r) (v : Int) :
    (d + r * v) % r = d ∧ (d + r * v) / r = v := by
  have nonzero : r ≠ 0 := by omega
  constructor
  · rw [Int.add_mul_emod_self_left, Int.emod_eq_of_lt low high]
  · rw [Int.add_mul_ediv_left _ _ nonzero, Int.ediv_eq_zero_of_lt low high, zero_add]

/-- Digits do not see more of a number than its residue. -/
theorem digits_emod (hr : 0 < r) (n : Nat) (v : Int) : digits r n (v % r ^ n) = digits r n v := by
  induction n generalizing v with
  | zero => rfl
  | succ n ih =>
      have low := Int.emod_nonneg v hr.ne'
      have low' := Int.emod_lt_of_pos v hr
      obtain ⟨first, others⟩ := emod_ediv_add_mul low low' (v / r % r ^ n)
      simp only [digits]
      rw [emod_pow_succ hr, first, others, ih]

/-- Numbers below the radix are the digits of what they make up. -/
theorem digits_recompose {ds : List Int} (h : ∀ d ∈ ds, 0 ≤ d ∧ d < r) :
    digits r ds.length (recompose r ds) = ds := by
  induction ds with
  | nil => rfl
  | cons d ds ih =>
      obtain ⟨low, high⟩ := h d (by simp)
      obtain ⟨first, others⟩ := emod_ediv_add_mul low high (recompose r ds)
      have rest := ih fun x hx => h x (List.mem_cons_of_mem d hx)
      simp only [List.length_cons, digits, recompose]
      rw [first, others, rest]

/-- What digits make up is its own residue. -/
theorem recompose_emod (hr : 0 < r) {ds : List Int} (h : ∀ d ∈ ds, 0 ≤ d ∧ d < r) :
    recompose r ds % r ^ ds.length = recompose r ds := by
  rw [← recompose_digits hr, digits_recompose h]

/-- Behind the digits of a residue there are only zeros. -/
theorem digits_append_zeros (hr : 0 < r) (n m : Nat) (v : Int) :
    digits r n v ++ List.replicate m 0 = digits r (n + m) (v % r ^ n) := by
  induction n generalizing v with
  | zero => rw [pow_zero, Int.emod_one, Nat.zero_add, digits_zero]; rfl
  | succ n ih =>
      have low := Int.emod_nonneg v hr.ne'
      have low' := Int.emod_lt_of_pos v hr
      have count : n + 1 + m = (n + m) + 1 := by omega
      obtain ⟨first, others⟩ := emod_ediv_add_mul low low' (v / r % r ^ n)
      rw [count]
      simp only [digits, List.cons_append]
      rw [ih, emod_pow_succ hr, first, others]

/-- A more significant part decides a comparison, unless it is equal. -/
theorem add_mul_lt_iff {a b A B : Int} (ha : 0 ≤ a) (har : a < r) (hb : 0 ≤ b) (hbr : b < r) :
    a + r * A < b + r * B ↔ A < B ∨ A = B ∧ a < b := by
  constructor
  · intro h
    rcases lt_trichotomy A B with hlt | heq | hgt
    · exact Or.inl hlt
    · subst heq
      exact Or.inr ⟨rfl, by omega⟩
    · have := mul_le_mul_of_nonneg_left (show B + 1 ≤ A from hgt) (show 0 ≤ r by omega)
      linarith
  · rintro (hlt | ⟨rfl, hlt⟩)
    · have := mul_le_mul_of_nonneg_left (show A + 1 ≤ B from hlt) (show 0 ≤ r by omega)
      linarith
    · linarith

/-- A digit has two values at least. -/
theorem DigitSystem.two_le_radix (d : DigitSystem) : 2 ≤ d.radix := by
  have := Nat.pow_le_pow_right (show 0 < 2 by decide) d.blockLength_pos
  unfold DigitSystem.radix
  omega

theorem DigitSystem.radix_pos (d : DigitSystem) : (0 : Int) < d.radix := by
  have := d.two_le_radix
  omega

theorem DigitSystem.capacity_eq (d : DigitSystem) :
    (d.capacity : Int) = (d.radix : Int) ^ d.blockCount :=
  Nat.cast_pow d.radix d.blockCount

end SealedMatch
