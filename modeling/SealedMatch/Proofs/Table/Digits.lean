/-
Module: SealedMatch.Proofs.Table.Digits
Purpose: A table of digits holds the digits of every cell of its table, whatever axes there are.
Trusted boundary: none
Main exports: Tensor.read_digitAxis, Tensor.digitsAt, Tensor.digitsAt_digitAxis,
  digitTable_eq_ok, DigitSystem.digitTable_eq_ok_iff
-/
import SealedMatch.Proofs.Table.Grid

namespace SealedMatch

namespace Tensor

variable {t blocks : Tensor} {shape : List Nat} {index : List Int}

/-! ### Where an entry stands -/

theorem place_lt {axis length i : Nat} {here : Int} (h : place axis length here = .ok i) :
    i < length := by
  unfold place at h
  split at h
  · cases h
    omega
  · split at h
    · cases h
      omega
    · cases h

/-- An index with a position on every axis names an entry. -/
theorem offset_lt {axis i : Nat} (hlength : index.length = shape.length)
    (h : offset axis shape index = .ok i) : i < volume shape := by
  induction shape generalizing axis index i with
  | nil =>
      cases index with
      | nil =>
          cases h
          exact Nat.one_pos
      | cons here index => cases hlength
  | cons n shape ih =>
      cases index with
      | nil => cases hlength
      | cons here index =>
          rw [offset] at h
          obtain ⟨first, hfirst, h⟩ := bind_eq_ok h
          obtain ⟨inner, hinner, h⟩ := bind_eq_ok h
          cases h
          calc first * volume shape + inner
              < first * volume shape + volume shape :=
                Nat.add_lt_add_left (ih (Nat.succ.inj hlength) hinner) _
            _ = (first + 1) * volume shape := (Nat.succ_mul _ _).symm
            _ ≤ n * volume shape := Nat.mul_le_mul_right _ (place_lt hfirst)

/-- On a new last axis, the entries of one place stand next to each other. -/
theorem offset_append {axis i count block : Nat} (hlength : index.length = shape.length)
    (hblock : block < count) (h : offset axis shape index = .ok i) :
    offset axis (shape ++ [count]) (index ++ [(block : Int)]) = .ok (i * count + block) := by
  induction shape generalizing axis index i with
  | nil =>
      cases index with
      | nil =>
          cases h
          simp only [List.nil_append, offset, ok_bind,
            place_eq (Int.natCast_nonneg block) (Int.ofNat_lt.2 hblock), Int.toNat_natCast, volume,
            pure, Except.pure]
          congr 1
          omega
      | cons here index => cases hlength
  | cons n shape ih =>
      cases index with
      | nil => cases hlength
      | cons here index =>
          rw [offset] at h
          obtain ⟨first, hfirst, h⟩ := bind_eq_ok h
          obtain ⟨inner, hinner, h⟩ := bind_eq_ok h
          cases h
          rw [List.cons_append, List.cons_append, offset, hfirst, ok_bind,
            ih (Nat.succ.inj hlength) hinner, ok_bind, volume_append_singleton]
          show Except.ok _ = Except.ok _
          congr 1
          ring

theorem requireIndices_append {block : Int} (h : requireIndices index = .ok ())
    (hblock : isWord block = true) : requireIndices (index ++ [block]) = .ok () := by
  induction index with
  | nil => simp [requireIndices, hblock]
  | cons i index ih =>
      rw [requireIndices] at h
      split at h
      · rename_i hi
        rw [List.cons_append, requireIndices, if_pos hi]
        exact ih h
      · split at h
        · cases h
        · cases h

/-- An entry has been read at a position on every axis. -/
theorem read_eq_ok {v : Int} (h : t.read index = .ok v) :
    ∃ i, requireIndices index = .ok () ∧ index.length = t.shape.length ∧
      offset 0 t.shape index = .ok i ∧ i < t.entries.size ∧ v = t.entries.getD i 0 := by
  unfold read at h
  split at h
  · cases h
  · rename_i i hlocated
    unfold locate at hlocated
    obtain ⟨_, hindices, hlocated⟩ := bind_eq_ok hlocated
    split at hlocated
    · cases hlocated
    · rename_i hmost
      split at h
      · cases h
      · cases h
        have hlength : index.length = t.shape.length := by omega
        refine ⟨i, hindices, hlength, hlocated, ?_, rfl⟩
        rw [t.size_entries]
        exact offset_lt hlength hlocated

/-! ### Digits of a cell -/

/-- The digits of the cell at an index. -/
def digitsAt (blocks : Tensor) (count : Nat) (index : List Int) : Except Failure (List Int) :=
  (List.range count).mapM fun (block : Nat) => blocks.read (index ++ [(block : Int)])

/-- On its new axis, a cell has its digits one by one. -/
theorem read_digitAxis {radix v : Int} {count block : Nat} (hr : 0 ≤ radix) (hblock : block < count)
    (hword : isWord block = true) (h : t.read index = .ok v) :
    (t.digitAxis radix count).read (index ++ [(block : Int)]) =
      .ok (v / radix ^ block % radix) := by
  obtain ⟨i, hindices, hlength, hoffset, hi, hv⟩ := read_eq_ok h
  have shape_eq : (t.digitAxis radix count).shape = t.shape ++ [count] := rfl
  have widened : (index ++ [(block : Int)]).length = (t.shape ++ [count]).length := by
    simp [hlength]
  have located : locate (t.digitAxis radix count).shape (index ++ [(block : Int)]) =
      .ok (i * count + block) := by
    unfold locate
    rw [requireIndices_append hindices hword, ok_bind, shape_eq, if_neg (by omega)]
    exact offset_append hlength hblock hoffset
  unfold read
  rw [located, shape_eq]
  simp only [widened, lt_irrefl, if_false]
  rw [getD_digitAxis t hr hi hblock, hv]

/-- The new axis holds, at every cell of a table, the digits of the cell. -/
theorem digitsAt_digitAxis {radix v : Int} {count : Nat} (hr : 0 ≤ radix) (hcount : count < 2 ^ 63)
    (h : t.read index = .ok v) :
    (t.digitAxis radix count).digitsAt count index = .ok (digits radix count v) := by
  unfold digitsAt
  rw [digits_eq_map hr]
  apply mapM_ok
  intro block hblock
  have inside := List.mem_range.1 hblock
  have word : isWord (block : Int) = true := isWord_iff.2 (by omega)
  exact read_digitAxis hr inside word h

end Tensor

/-! ### Tables of digits -/

theorem newAxis_ok {shape : List Nat} {length : Nat} (hlength : length < 2 ^ 63)
    (haxes : shape.length < mostAxes) (hroom : spread (shape ++ [length]) ≤ mostEntries) :
    newAxis shape length = .ok length := by
  have word : isWord (length : Int) = true := isWord_iff.2 (by omega)
  have words : isWord (8 * (spread (shape ++ [length]) : Nat)) = true := by
    unfold mostEntries at hroom
    exact isWord_iff.2 (by omega)
  unfold newAxis
  rw [if_neg (Nat.not_le.2 haxes), word]
  simp only [Bool.not_true, Bool.false_eq_true, if_false, Int.toNat_natCast]
  rw [if_neg (Int.not_lt.2 (Int.natCast_nonneg length)), words]
  simp only [Bool.not_true, Bool.false_eq_true, if_false]
  rw [if_neg (Nat.not_lt.2 hroom)]

theorem length_lt_of_newAxis {shape : List Nat} {length : Int} {count : Nat}
    (h : newAxis shape length = .ok count) : shape.length < mostAxes := by
  unfold newAxis at h
  split at h
  · cases h
  · rename_i haxes
    exact Nat.lt_of_not_le haxes

theorem spread_cons (n : Nat) (shape : List Nat) :
    spread (n :: shape) = if n = 0 then spread shape else n * spread shape := by
  unfold spread
  by_cases hn : n = 0 <;> simp [hn, volume]

theorem spread_pos (shape : List Nat) : 0 < spread shape := by
  induction shape with
  | nil => decide
  | cons n shape ih =>
      rw [spread_cons]
      split
      · exact ih
      · exact Nat.mul_pos (by omega) ih

/-- No axis is longer than the array spreads. -/
theorem axis_le_spread {shape : List Nat} {n : Nat} (h : n ∈ shape) : n ≤ spread shape := by
  induction shape with
  | nil => cases h
  | cons m shape ih =>
      have rest := spread_pos shape
      rw [spread_cons]
      rcases List.mem_cons.1 h with rfl | h
      · split
        · omega
        · exact Nat.le_mul_of_pos_right n rest
      · split
        · exact ih h
        · exact (ih h).trans (Nat.le_mul_of_pos_left _ (by omega))

/-- A power of two as a shift gives it. -/
theorem wordPower_ok {bits : Nat} (hbits : bits ≤ 64) : wordPower bits = .ok (2 ^ bits) := by
  have shift : requireShift bits = .ok () := by
    unfold requireShift
    rw [if_neg (by omega), if_neg (by unfold greatestShift; omega),
      if_neg (by unfold longestShift; omega)]
  unfold wordPower
  rw [shift, Int.toNat_natCast, Nat.min_eq_left hbits]
  rfl

theorem wordPower_eq_ok {shift : Int} {radix : Nat} (h : wordPower shift = .ok radix) :
    radix = 2 ^ min shift.toNat 64 := by
  unfold wordPower at h
  cases hshift : requireShift shift with
  | ok _ =>
      rw [hshift] at h
      cases h
      rfl
  | error fault =>
      rw [hshift] at h
      cases h

/-- A table is cut into digits of bits that fit a word, if there is a digit at all. -/
theorem digitTable_eq_ok {t blocks : Tensor} {blockLength blockCount : Int}
    (h : digitTable t blockLength blockCount = .ok blocks) :
    ∃ count, newAxis t.shape blockCount = .ok count ∧ (0 < count → blockLength.toNat < 63) ∧
      blocks = t.digitAxis ((2 ^ min blockLength.toNat 64 : Nat) : Int) count := by
  unfold digitTable at h
  obtain ⟨radix, hradix, h⟩ := bind_eq_ok (mapError_eq_ok h)
  obtain ⟨count, haxis, h⟩ := bind_eq_ok h
  rw [wordPower_eq_ok hradix] at h
  split at h
  · cases h
  · rename_i fits
    refine ⟨count, haxis, fun hpos => ?_, (Except.ok.inj h).symm⟩
    by_contra hlong
    have long : 2 ^ 63 ≤ 2 ^ min blockLength.toNat 64 :=
      Nat.pow_le_pow_right (by decide) (by omega)
    have noWord : ¬ isWord ((2 ^ min blockLength.toNat 64 : Nat) : Int) = true := by
      rw [isWord_iff]
      omega
    exact fits ⟨by simpa using noWord, hpos⟩

namespace DigitSystem

variable (d : DigitSystem) {t blocks : Tensor}

theorem isWord_radix : isWord d.radix = true := by
  have few : d.radix ≤ 2 ^ 4 := Nat.pow_le_pow_right (by decide) d.blockLength_le
  exact isWord_iff.2 (by omega)

/-- A table is cut into digits exactly if there can be one more axis and there is memory for it. -/
theorem digitTable_eq_ok_iff :
    digitTable t d.blockLength d.blockCount = .ok blocks ↔
      (t.shape.length < mostAxes ∧ spread (t.shape ++ [d.blockCount]) ≤ mostEntries) ∧
        blocks = t.digitAxis d.radix d.blockCount := by
  have bits := d.blockLength_le
  have few := d.blockCount_le
  constructor
  · intro h
    obtain ⟨count, haxis, -, rfl⟩ := digitTable_eq_ok h
    obtain ⟨-, hcount, hroom⟩ := newAxis_eq_ok haxis
    rw [Int.toNat_natCast] at hcount
    subst hcount
    rw [Int.toNat_natCast, Nat.min_eq_left (by omega)]
    exact ⟨⟨length_lt_of_newAxis haxis, hroom⟩, rfl⟩
  · rintro ⟨⟨haxes, hroom⟩, rfl⟩
    have power : wordPower d.blockLength = .ok d.radix := wordPower_ok (by omega)
    unfold digitTable
    rw [power, ok_bind, newAxis_ok (by omega) haxes hroom, ok_bind, d.isWord_radix]
    rfl

/-- Every cell of a table of digits holds the digits of the entry, negative or not. -/
theorem digitsAt_of_digitTable (h : digitTable t d.blockLength d.blockCount = .ok blocks)
    {index : List Int} {v : Int} (hread : t.read index = .ok v) :
    blocks.digitsAt d.blockCount index = .ok (d.decompose v) := by
  obtain ⟨-, rfl⟩ := d.digitTable_eq_ok_iff.1 h
  have few := d.blockCount_le
  exact Tensor.digitsAt_digitAxis (Int.natCast_nonneg _) (by omega) hread

end DigitSystem

end SealedMatch
