/-
Module: SealedMatch.Proofs.Table.Capacity
Purpose: The capacity check passes exactly if no choice of one entry from every table can wrap the
  sum around.
Trusted boundary: none
Main exports: Capacity.wholePower_eq, Capacity.powerExceeds_iff, Tensor.maximum_eq_ok_iff,
  totalOfMaxima_eq, Choice, CapacityCheck.lt_of_fits, CapacityCheck.fits_iff_choices
-/
import Mathlib.Algebra.Order.BigOperators.Group.List
import Mathlib.Algebra.Order.Ring.Int
import Mathlib.Algebra.Ring.Parity
import SealedMatch.Proofs.Outcome
import SealedMatch.Table.Capacity

namespace SealedMatch

/-! ### Powers of the radix -/

namespace Capacity

/-- However it is written out, a whole power is a power. -/
theorem wholePower_eq (base : Int) (exponent : Nat) :
    wholePower base exponent = base ^ exponent := by
  unfold wholePower
  split
  · rename_i small
    obtain ⟨hbase, hexponent⟩ := small
    obtain rfl | rfl | rfl : base = -1 ∨ base = 0 ∨ base = 1 := by omega
    · rw [pow_add, neg_one_pow_eq_pow_mod_two exponent]
      exact mul_one _
    · rw [zero_pow (by omega), zero_pow (by omega)]
    · rw [one_pow, one_pow]
  · rfl

/-- A power has more binary digits than it has factors of at least two. -/
theorem lt_pow_of_log2_lt {total radix : Int} {width : Nat} (hradix : 1 < radix)
    (hwidth : total.natAbs.log2 < width) : total < radix ^ width := by
  calc total ≤ (total.natAbs : Int) := Int.le_natAbs
    _ < (2 ^ (total.natAbs.log2 + 1) : Nat) := Int.ofNat_lt.2 Nat.lt_log2_self
    _ = (2 : Int) ^ (total.natAbs.log2 + 1) := by push_cast; rfl
    _ ≤ 2 ^ width := pow_le_pow_right₀ (by decide) hwidth
    _ ≤ radix ^ width := pow_le_pow_left₀ (by decide) hradix width

theorem powerExceeds_iff {radix : Int} {width : Nat} {total : Int} :
    powerExceeds radix width total = true ↔ total < radix ^ width := by
  unfold powerExceeds
  rw [wholePower_eq, Bool.or_eq_true, Bool.and_eq_true, decide_eq_true_eq, decide_eq_true_eq,
    decide_eq_true_eq]
  exact ⟨fun h => h.elim (fun many => lt_pow_of_log2_lt many.1 many.2) id, Or.inr⟩

/-- Any width is accepted with a radix that is not negative. -/
theorem ofPower_ok {radix : Int} (hradix : 0 ≤ radix) (width : Nat) :
    ofPower radix width = .ok (.power radix width) := by
  unfold ofPower
  rw [if_pos (Int.natCast_nonneg width), if_neg (by omega), Int.toNat_natCast]

end Capacity

/-! ### Largest entries -/

/-- The maximum is reached and never exceeded. -/
theorem Tensor.maximum_eq_ok_iff {t : Tensor} {m : Int} :
    t.maximum = .ok m ↔ m ∈ t.entries.toList ∧ ∀ v ∈ t.entries.toList, v ≤ m := by
  unfold maximum
  cases t.entries.toList with
  | nil => simp
  | cons first rest =>
      rw [← List.max?_eq_some_iff, List.max?_cons']
      simp

theorem Tensor.le_maximum {t : Tensor} {m : Int} (h : t.maximum = .ok m) :
    ∀ v ∈ t.entries.toList, v ≤ m :=
  (maximum_eq_ok_iff.1 h).2

/-- Every table with an entry has a largest one. -/
theorem Tensor.exists_maximum {t : Tensor} (h : 0 < t.size) : ∃ m, t.maximum = .ok m := by
  unfold maximum
  split
  · rename_i none
    have empty : t.entries.toList.length = 0 := by rw [none]; rfl
    rw [Array.length_toList] at empty
    exact absurd empty h.ne'
  · exact ⟨_, rfl⟩

/-- The total of the maxima is taken of one maximum after the other. -/
theorem totalOfMaxima_eq (tables : List Tensor) :
    totalOfMaxima tables = (tables.mapM Tensor.maximum).map List.sum := by
  have general : ∀ start : Int,
      tables.foldlM (fun total t => do pure (total + (← t.maximum))) start =
        (tables.mapM Tensor.maximum).map fun maxima => start + maxima.sum := by
    induction tables with
    | nil =>
        intro start
        exact congrArg Except.ok (add_zero start).symm
    | cons t tables ih =>
        intro start
        rw [List.foldlM_cons, List.mapM_cons]
        cases t.maximum with
        | error e => rfl
        | ok m =>
            rw [ok_bind, ok_bind]
            refine (ih (start + m)).trans ?_
            cases tables.mapM Tensor.maximum with
            | error e => rfl
            | ok maxima => exact congrArg Except.ok (add_assoc start m maxima.sum)
  unfold totalOfMaxima
  rw [general]
  simp only [zero_add]

theorem totalOfMaxima_eq_ok {tables : List Tensor} {total : Int}
    (h : totalOfMaxima tables = .ok total) :
    ∃ maxima, List.Forall₂ (fun t m => Tensor.maximum t = .ok m) tables maxima ∧
      total = maxima.sum := by
  rw [totalOfMaxima_eq] at h
  cases hmaxima : tables.mapM Tensor.maximum with
  | error e =>
      rw [hmaxima] at h
      cases h
  | ok maxima =>
      rw [hmaxima] at h
      cases h
      exact ⟨maxima, mapM_eq_ok hmaxima, rfl⟩

/-- Tables with entries have a total. -/
theorem exists_totalOfMaxima {tables : List Tensor} (h : ∀ t ∈ tables, 0 < t.size) :
    ∃ total, totalOfMaxima tables = .ok total := by
  have each : ∀ t ∈ tables, t.maximum = .ok (t.maximum.toOption.getD 0) := by
    intro t ht
    obtain ⟨m, hm⟩ := Tensor.exists_maximum (h t ht)
    rw [hm]
    rfl
  rw [totalOfMaxima_eq, mapM_ok each]
  exact ⟨_, rfl⟩

/-! ### Choices -/

/-- One entry of every table. -/
def Choice (tables : List Tensor) (chosen : List Int) : Prop :=
  List.Forall₂ (fun t v => v ∈ t.entries.toList) tables chosen

theorem Choice.sum_le {tables : List Tensor} {chosen maxima : List Int} (h : Choice tables chosen)
    (hmaxima : List.Forall₂ (fun t m => Tensor.maximum t = .ok m) tables maxima) :
    chosen.sum ≤ maxima.sum := by
  have each : List.Forall₂ (· ≤ ·) chosen maxima := by
    induction h generalizing maxima with
    | nil =>
        cases hmaxima
        exact .nil
    | cons head _ ih =>
        cases hmaxima with
        | cons hmaximum hrest => exact .cons (Tensor.le_maximum hmaximum _ head) (ih hrest)
  exact each.sum_le_sum

/-- The total of the maxima is that of a choice, and no choice has a greater one. -/
theorem greatest_choice {tables : List Tensor} {total : Int}
    (h : totalOfMaxima tables = .ok total) :
    (∃ chosen, Choice tables chosen ∧ chosen.sum = total) ∧
      ∀ chosen, Choice tables chosen → chosen.sum ≤ total := by
  obtain ⟨maxima, hmaxima, rfl⟩ := totalOfMaxima_eq_ok h
  exact ⟨⟨maxima, hmaxima.imp fun _ _ hm => (Tensor.maximum_eq_ok_iff.1 hm).1, rfl⟩,
    fun chosen hchosen => hchosen.sum_le hmaxima⟩

namespace CapacityCheck

/-- A capacity that fits exceeds the sum of the maxima. -/
theorem lt_of_fits {tables : List Tensor} {radix width : Nat} {check : CapacityCheck}
    (h : ofTables tables radix width = .ok check) (hfits : check.fits = true) :
    ∃ maxima, List.Forall₂ (fun t m => Tensor.maximum t = .ok m) tables maxima ∧
      maxima.sum < (radix : Int) ^ width := by
  unfold ofTables at h
  obtain ⟨total, htotal, h⟩ := bind_eq_ok h
  rw [Capacity.ofPower_ok (Int.natCast_nonneg radix) width, ok_bind] at h
  cases h
  obtain ⟨maxima, hall, rfl⟩ := totalOfMaxima_eq_ok htotal
  exact ⟨maxima, hall, Capacity.powerExceeds_iff.1 hfits⟩

/-- Tables with entries are checked whatever the width of the sum. The check passes exactly if every
choice of one entry from each table stays below the power of the radix. Otherwise, and only then,
there is a warning. It tells the greatest total, which some choice has and none exceeds. -/
theorem fits_iff_choices {tables : List Tensor} (hfull : ∀ t ∈ tables, 0 < t.size) {radix : Int}
    (hradix : 0 ≤ radix) (width : Nat) :
    ∃ check, ofTables tables radix width = .ok check ∧
      (check.fits = true ↔ ∀ chosen, Choice tables chosen → chosen.sum < radix ^ width) ∧
      (∃ chosen, Choice tables chosen ∧ chosen.sum = check.largestTotal) ∧
      (∀ chosen, Choice tables chosen → chosen.sum ≤ check.largestTotal) ∧
      (check.fits = true → check.warnings = []) ∧
      (check.fits = false → check.warnings =
        [⟨"Largest possible score exceeds radix sum capacity; totals may wrap",
          [("max_total", .int check.largestTotal), ("capacity", .int (radix ^ width)),
            ("sum_width", .int width)]⟩]) := by
  obtain ⟨total, htotal⟩ := exists_totalOfMaxima hfull
  obtain ⟨reached, bound⟩ := greatest_choice htotal
  have checked : ofTables tables radix width = .ok ⟨total, .power radix width, width⟩ := by
    unfold ofTables
    rw [htotal, ok_bind, Capacity.ofPower_ok hradix width, ok_bind]
    rfl
  refine ⟨_, checked, ⟨fun hfits chosen hchosen => ?_, fun hall => ?_⟩, reached, bound,
    fun hfits => ?_, fun hfits => ?_⟩
  · exact lt_of_le_of_lt (bound chosen hchosen) (Capacity.powerExceeds_iff.1 hfits)
  · obtain ⟨chosen, hchosen, rfl⟩ := reached
    exact Capacity.powerExceeds_iff.2 (hall chosen hchosen)
  · unfold warnings
    rw [if_pos hfits]
  · unfold warnings
    rw [if_neg (by rw [hfits]; decide)]
    show [Event.mk _ [_, ("capacity", .int (Capacity.wholePower radix width)), _]] = _
    rw [Capacity.wholePower_eq]

/-- Entries of either sign, whose maxima come to three. -/
def mixedTables : List Tensor := [⟨[2, 2], #[5, -9, 3, 4], rfl⟩, ⟨[1, 1], #[-2], rfl⟩]

/-- A total of three does not fit one digit of radix three, as five and minus two can be chosen. -/
theorem fits_iff_choices_boundary :
    (∀ t ∈ mixedTables, 0 < t.size) ∧ Choice mixedTables [5, -2] ∧
      ∃ check, ofTables mixedTables 3 1 = .ok check ∧ check.fits = false ∧
        check.largestTotal = 3 ∧
        check.warnings = [⟨"Largest possible score exceeds radix sum capacity; totals may wrap",
          [("max_total", .int check.largestTotal), ("capacity", .int (3 ^ 1)),
            ("sum_width", .int (1 : Nat))]⟩] := by
  have full : ∀ t ∈ mixedTables, 0 < t.size := by decide
  have chosen : Choice mixedTables [5, -2] := .cons (by decide) (.cons (by decide) .nil)
  obtain ⟨check, hcheck, hfits, _, _, _, hwarned⟩ :=
    fits_iff_choices full (show (0 : Int) ≤ 3 by decide) 1
  have tight : check.fits = false := by
    rw [Bool.eq_false_iff]
    intro fits
    exact absurd (hfits.1 fits _ chosen) (by decide)
  refine ⟨full, chosen, check, hcheck, tight, ?_, hwarned tight⟩
  have evaluated : (ofTables mixedTables 3 1).toOption.map (·.largestTotal) = some 3 := by
    decide +kernel
  rw [show ofTables mixedTables 3 1 = .ok check from hcheck] at evaluated
  exact Option.some.inj evaluated

end CapacityCheck

end SealedMatch
