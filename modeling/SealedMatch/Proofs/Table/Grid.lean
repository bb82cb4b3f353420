/-
Module: SealedMatch.Proofs.Table.Grid
Purpose: Score tables are grids, and their digits stand where a new last axis puts them.
Trusted boundary: none
Main exports: Tensor.Grid, Tensor.cell, Tensor.Grid.read_eq, Tensor.getD_digitAxis,
  TableSource.grid_of_toTable, earlyStopCount_eq_ok
-/
import Mathlib.Data.List.Basic
import SealedMatch.Proofs.Outcome
import SealedMatch.Proofs.Radix.Digits
import SealedMatch.Table.Score

namespace SealedMatch

namespace Tensor

variable {t : Tensor} {rows columns : Nat}

/-- A table of rows and columns, neither of which is missing. -/
structure Grid (t : Tensor) (rows columns : Nat) : Prop where
  shape_eq : t.shape = [rows, columns]
  rows_pos : 0 < rows
  columns_pos : 0 < columns

theorem Grid.size_eq (h : t.Grid rows columns) : t.entries.size = rows * columns := by
  rw [t.size_entries, h.shape_eq]
  simp [volume]

/-- Rows stand one behind the other. -/
theorem Grid.place_lt (h : t.Grid rows columns) {row column : Nat} (hrow : row < rows)
    (hcolumn : column < columns) : row * columns + column < t.entries.size := by
  have := Nat.mul_le_mul_right columns (show row + 1 ≤ rows from hrow)
  rw [Nat.succ_mul] at this
  rw [h.size_eq]
  omega

theorem Grid.map (h : t.Grid rows columns) (f : Int → Int) : (t.map f).Grid rows columns :=
  ⟨h.shape_eq, h.rows_pos, h.columns_pos⟩

/-- The entry in a row and a column, zero where there is none. -/
def cell (t : Tensor) (row column : Int) : Int :=
  match t.read [row, column] with
  | .ok v => v
  | .error _ => 0

theorem requireIndices_pair {i j : Int} (hi : isWord i = true) (hj : isWord j = true) :
    requireIndices [i, j] = .ok () := by
  simp [requireIndices, hi, hj]

theorem place_eq {axis length : Nat} {i : Int} (hlow : 0 ≤ i) (hhigh : i < length) :
    place axis length i = .ok i.toNat := by
  unfold place
  rw [if_pos ⟨hlow, hhigh⟩]

/-- Row by row, entries stand one behind the other. -/
theorem Grid.read_eq (h : t.Grid rows columns) {row column : Int} (hrow : 0 ≤ row ∧ row < rows)
    (hcolumn : 0 ≤ column ∧ column < columns)
    (hwords : isWord row = true ∧ isWord column = true) :
    t.read [row, column] = .ok (t.entries.getD (row.toNat * columns + column.toNat) 0) := by
  have located : locate t.shape [row, column] = .ok (row.toNat * columns + column.toNat) := by
    unfold locate
    rw [requireIndices_pair hwords.1 hwords.2, h.shape_eq]
    simp only [List.length_cons, List.length_nil, bind, Except.bind]
    rw [if_neg (by decide)]
    simp [offset, place_eq hrow.1 hrow.2, place_eq hcolumn.1 hcolumn.2, volume, bind, Except.bind,
      pure, Except.pure]
  unfold read
  rw [located, h.shape_eq]
  simp

theorem cell_of_read {row column v : Int} (h : t.read [row, column] = .ok v) :
    t.cell row column = v := by
  unfold cell
  rw [h]

/-! ### Digits on a new axis -/

theorem getElem?_digitLayers {radix : Int} (hr : 0 ≤ radix) {count block : Nat}
    (entries : Array Int) (hblock : block < count) :
    (digitLayers radix count entries)[block]? =
      some (entries.map fun v => v / radix ^ block % radix) := by
  induction count generalizing block entries with
  | zero => omega
  | succ count ih =>
      cases block with
      | zero => simp [digitLayers]
      | succ block =>
          simp only [digitLayers, List.getElem?_cons_succ]
          rw [ih _ (by omega), Array.map_map]
          congr 2
          funext v
          simp only [Function.comp_apply]
          rw [ediv_pow_succ hr]

/-- Lists of one length laid end to end. -/
theorem getElem?_flatMap_range {γ : Type} {f : Nat → List γ} {count : Nat}
    (hf : ∀ i, (f i).length = count) {n i j : Nat} (hi : i < n) (hj : j < count) :
    ((List.range n).flatMap f)[i * count + j]? = (f i)[j]? := by
  induction n with
  | zero => omega
  | succ n ih =>
      have length : ((List.range n).flatMap f).length = n * count := by
        simp [List.length_flatMap, hf]
      rw [List.range_succ, List.flatMap_append, List.flatMap_singleton]
      rcases Nat.lt_or_ge i n with hlt | hge
      · have inside : i * count + j < n * count := by
          have := Nat.mul_le_mul_right count (show i + 1 ≤ n from hlt)
          rw [Nat.succ_mul] at this
          omega
        rw [List.getElem?_append_left (by rw [length]; exact inside)]
        exact ih hlt
      · have last : i = n := by omega
        subst last
        rw [List.getElem?_append_right (by rw [length]; omega), length, Nat.add_sub_cancel_left]

/-- The digits of an entry follow each other in its place. -/
theorem getD_digitAxis (t : Tensor) {radix : Int} (hr : 0 ≤ radix) {count i block : Nat}
    (hi : i < t.entries.size) (hblock : block < count) :
    (t.digitAxis radix count).entries.getD (i * count + block) 0 =
      t.entries.getD i 0 / radix ^ block % radix := by
  have layers := getElem?_digitLayers hr t.entries hblock
  have entry := getElem?_flatMap_range (f := fun i =>
    (digitLayers radix count t.entries).map fun layer => layer.getD i 0) (by simp) hi hblock
  rw [List.getElem?_map, layers] at entry
  simp only [Option.map_some] at entry
  rw [Array.getD_eq_getD_getElem?]
  simp only [digitAxis, interleaveLayers, List.getElem?_toArray]
  rw [entry]
  simp [hi]

end Tensor

/-! ### Acceptance -/

/-- What is accepted as a table has rows and columns. -/
theorem TableSource.grid_of_checkShape {t : Tensor} {feature : Nat}
    (h : checkShape t.shape feature = .ok ()) : ∃ rows columns, t.Grid rows columns := by
  unfold checkShape at h
  split at h
  · rename_i hshape
    obtain ⟨htwo, hvolume⟩ := hshape
    obtain ⟨rows, columns, hrc⟩ := List.length_eq_two.1 htwo
    rw [hrc] at hvolume
    have product : rows * columns ≠ 0 := by simpa [volume] using hvolume
    exact ⟨rows, columns, hrc, Nat.pos_of_ne_zero (left_ne_zero_of_mul product),
      Nat.pos_of_ne_zero (right_ne_zero_of_mul product)⟩
  · cases h

/-- Nested lists are accepted if they are uniform rows of integers. -/
theorem TableSource.toTable_nested {v : Value} {feature : Nat} {t : Tensor}
    (h : (nested v).toTable feature = .ok t) :
    ∃ rs n, rows v = .ok rs ∧ uniform rs = true ∧
      Nested.ofValue (.list (rs.map .list)) = .ok n ∧ checkShape n.shape feature = .ok () ∧
      n.type.isInteger = true ∧
      Tensor.ofEntries? n.shape (n.entries.map cell).toArray = some t := by
  unfold toTable at h
  obtain ⟨rs, hrows, h⟩ := bind_eq_ok h
  simp only [bind, Except.bind] at h
  split at h
  · cases h
  · rename_i huniform
    split at h
    · cases h
    · rename_i n hnested
      split at h
      · cases h
      · rename_i hshape
        split at h
        · cases h
        · rename_i hinteger
          split at h
          · rename_i t' hentries
            cases h
            exact ⟨rs, n, hrows, by simpa using huniform, hnested, hshape, by simpa using hinteger,
              hentries⟩
          · cases h

theorem TableSource.grid_of_toTable {source : TableSource} {feature : Nat} {t : Tensor}
    (h : source.toTable feature = .ok t) : ∃ rows columns, t.Grid rows columns := by
  cases source with
  | array t' =>
      simp only [toTable, bind, Except.bind] at h
      split at h
      · cases h
      · rename_i hshape
        cases h
        exact grid_of_checkShape hshape
  | nested v =>
      obtain ⟨rs, n, _, _, _, hshape, _, hentries⟩ := toTable_nested h
      unfold Tensor.ofEntries? at hentries
      split at hentries
      · cases hentries
        exact grid_of_checkShape hshape
      · cases hentries

/-- Normalizing moves entries, and nothing else. -/
theorem normalize_eq_ok {source : TableSource} {feature : Nat} {t : Tensor} {offset : Int}
    (h : normalize source feature = .ok (t, offset)) :
    ∃ table corner, source.toTable feature = .ok table ∧ table.read [0, -1] = .ok corner ∧
      offset = (corner.natAbs : Int) ∧ t = table.map fun v => wrap64 (v + offset) := by
  unfold normalize at h
  obtain ⟨table, htable, h⟩ := bind_eq_ok h
  obtain ⟨corner, hcorner, h⟩ := bind_eq_ok h
  simp only at h
  split at h
  · cases h
    exact ⟨table, corner, htable, hcorner, rfl, rfl⟩
  · cases h

theorem newAxis_eq_ok {shape : List Nat} {length : Int} {count : Nat}
    (h : newAxis shape length = .ok count) :
    0 ≤ length ∧ count = length.toNat ∧ spread (shape ++ [count]) ≤ mostEntries := by
  unfold newAxis at h
  split at h
  · cases h
  · split at h
    · cases h
    · split at h
      · cases h
      · rename_i hnonneg
        simp only at h
        split at h
        · cases h
        · split at h
          · cases h
          · rename_i hroom
            cases h
            exact ⟨by omega, rfl, by omega⟩

/-- A shape without a missing axis spreads over as many entries as it has. -/
theorem Tensor.Grid.spread_eq {t : Tensor} {rows columns count : Nat} (h : t.Grid rows columns)
    (hcount : 0 < count) : spread (t.shape ++ [count]) = rows * columns * count := by
  have r : rows ≠ 0 := by
    have := h.rows_pos
    omega
  have c : columns ≠ 0 := by
    have := h.columns_pos
    omega
  have n : count ≠ 0 := by omega
  unfold spread
  rw [h.shape_eq]
  simp [r, c, n, volume, Nat.mul_assoc]

theorem earlyStopCount_eq_ok {t : Tensor} {d : DigitSystem} {n : Nat}
    (h : earlyStopCount t d = .ok n) :
    ∃ largest, t.read [0, 0] = .ok largest ∧
      n = leadingDigitCount d.blockLength d.blockCount largest := by
  unfold earlyStopCount at h
  obtain ⟨largest, hread, h⟩ := bind_eq_ok h
  cases h
  exact ⟨largest, hread, rfl⟩

theorem leadingDigitCount_le (blockLength count : Nat) (largest : Int) :
    leadingDigitCount blockLength count largest ≤ count := by
  have prefixLength := (List.takeWhile_prefix (l := List.range count)
    fun i => largest >>> (i * blockLength) != 0).length_le
  rwa [List.length_range] at prefixLength

end SealedMatch
