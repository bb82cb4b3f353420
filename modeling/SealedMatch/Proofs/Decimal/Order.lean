/-
Module: SealedMatch.Proofs.Decimal.Order
Purpose: Doubles that are numbers stand in a total order, and nothing compares with not-a-number.
Trusted boundary: none
Main exports: Decimal.rank, Decimal.rank_eq_none_iff, Decimal.le_iff_rank, Decimal.le_of_le_of_le,
  Decimal.lt_iff_not_le
-/
import Mathlib.Algebra.Order.Ring.Int
import Mathlib.Data.Nat.Cast.Order.Basic
import Mathlib.Data.Prod.Lex
import Mathlib.Order.Compare

namespace SealedMatch.Decimal

open Float.Model (UnpackedFloat)

/-! ### Ranks -/

/-- Where an unpacked double stands among the numbers. Infinities are outermost, the zeros share the
middle, and finite numbers of one sign go by exponent and mantissa, downwards if they are
negative. -/
def rankOf : UnpackedFloat → Option (Int ×ₗ Int ×ₗ Int)
  | .notANumber => none
  | .infinity .negative => some (toLex (-2, toLex (0, 0)))
  | .finite .negative mantissa exponent _ => some (toLex (-1, toLex (-exponent, -(mantissa : Int))))
  | .zero _ => some (toLex (0, toLex (0, 0)))
  | .finite .positive mantissa exponent _ => some (toLex (1, toLex (exponent, (mantissa : Int))))
  | .infinity .positive => some (toLex (2, toLex (0, 0)))

theorem compare_finite (side exponent exponent' mantissa mantissa' : Int) :
    compare (toLex (side, toLex (exponent, mantissa)) : Int ×ₗ Int ×ₗ Int)
        (toLex (side, toLex (exponent', mantissa'))) =
      (compare exponent exponent').then (compare mantissa mantissa') := by
  simp [Prod.Lex.compare_def, compareLex, compareOn]

theorem compare_neg_neg (m n : Int) : compare (-m) (-n) = (compare m n).swap := by
  have reversing : StrictAnti fun n : Int => -n := fun _ _ => Int.neg_lt_neg
  rw [← cmp_eq_compare, ← cmp_eq_compare, cmp_swap]
  exact reversing.cmp_map_eq m n

theorem compare_natCast (m n : Nat) : compare (m : Int) n = compare m n := by
  rw [← cmp_eq_compare, ← cmp_eq_compare]
  exact Nat.strictMono_cast.cmp_map_eq m n

/-- Numbers compare as their ranks do. -/
theorem compare_eq (a b : UnpackedFloat) :
    a.compare b = (rankOf a).bind fun x => (rankOf b).map fun y => compare x y := by
  rcases a with s | _ | s | ⟨s, m, e, hm⟩ <;> rcases b with s' | _ | s' | ⟨s', m', e', hm'⟩ <;>
    try cases s <;> try cases s'
  -- Only finite numbers of one sign take more than a look at the constructors.
  all_goals try rfl
  case finite.finite.negative.negative =>
    have ranks := compare_finite (-1) (-e) (-e') (-m) (-m')
    rw [compare_neg_neg, compare_neg_neg, compare_natCast, ← Ordering.swap_then] at ranks
    exact congrArg some ranks.symm
  case finite.finite.positive.positive =>
    have ranks := compare_finite 1 e e' m m'
    rw [compare_natCast] at ranks
    exact congrArg some ranks.symm

/-- Where a double stands among the numbers. -/
def rank (x : Float) : Option (Int ×ₗ Int ×ₗ Int) := rankOf x.toModel.unpack

theorem rank_eq_none_iff {x : Float} : rank x = none ↔ x.isNaN = true := by
  show rankOf x.toModel.unpack = none ↔ x.toModel.unpack.isNaN = true
  rcases x.toModel.unpack with s | _ | s | ⟨s, m, e, hm⟩ <;> try cases s
  case notANumber => exact iff_of_true rfl rfl
  all_goals exact iff_of_false (Option.some_ne_none _) Bool.false_ne_true

theorem exists_rank_iff {x : Float} : (∃ a, rank x = some a) ↔ x.isNaN = false := by
  rw [← Option.ne_none_iff_exists', ne_eq, rank_eq_none_iff, Bool.not_eq_true]

/-! ### Comparisons -/

theorem le_iff_rank {x y : Float} :
    x ≤ y ↔ ∃ a b, rank x = some a ∧ rank y = some b ∧ a ≤ b := by
  have compared : x ≤ y ↔ (x.toModel.unpack.compare y.toModel.unpack).any (·.isLE) = true := by
    show decide _ = true ↔ _
    rw [decide_eq_true_iff]
    rfl
  rw [compared, compare_eq]
  show ((rank x).bind fun a => (rank y).map fun b => compare a b).any _ = true ↔ _
  cases rank x with
  | none => simp
  | some a =>
      cases rank y with
      | none => simp
      | some b => simp [← Ordering.ne_gt_iff_isLE, compare_le_iff_le]

theorem lt_iff_rank {x y : Float} :
    x < y ↔ ∃ a b, rank x = some a ∧ rank y = some b ∧ a < b := by
  have compared : x < y ↔ x.toModel.unpack.compare y.toModel.unpack = some .lt := by
    show decide _ = true ↔ _
    rw [decide_eq_true_iff]
    exact beq_iff_eq
  rw [compared, compare_eq]
  show ((rank x).bind fun a => (rank y).map fun b => compare a b) = _ ↔ _
  cases rank x with
  | none => simp
  | some a =>
      cases rank y with
      | none => simp
      | some b => simp [compare_lt_iff_lt]

/-- What compares is a number. -/
theorem isNaN_of_le {x y : Float} (h : x ≤ y) : x.isNaN = false ∧ y.isNaN = false := by
  obtain ⟨a, b, ha, hb, _⟩ := le_iff_rank.1 h
  exact ⟨exists_rank_iff.1 ⟨a, ha⟩, exists_rank_iff.1 ⟨b, hb⟩⟩

theorem le_of_le_of_le {x y z : Float} (hxy : x ≤ y) (hyz : y ≤ z) : x ≤ z := by
  obtain ⟨a, b, ha, hb, hab⟩ := le_iff_rank.1 hxy
  obtain ⟨b', c, hb', hc, hbc⟩ := le_iff_rank.1 hyz
  obtain rfl : b = b' := Option.some.inj (hb.symm.trans hb')
  exact le_iff_rank.2 ⟨a, c, ha, hc, hab.trans hbc⟩

/-- Of two numbers, one is below the other unless the other does not exceed it. -/
theorem lt_iff_not_le {x y : Float} (hx : x.isNaN = false) (hy : y.isNaN = false) :
    x < y ↔ ¬ y ≤ x := by
  obtain ⟨a, ha⟩ := exists_rank_iff.2 hx
  obtain ⟨b, hb⟩ := exists_rank_iff.2 hy
  rw [lt_iff_rank, le_iff_rank, ha, hb]
  simp

end SealedMatch.Decimal
