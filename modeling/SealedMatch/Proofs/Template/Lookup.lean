/-
Module: SealedMatch.Proofs.Template.Lookup
Purpose: What a lookup holds for a probe code: an entry of its table, which is a digit of the score.
Trusted boundary: none
Main exports: DigitLookup.Within, DigitLookup.digitAt, DigitLookup.Within.evaluateOrZero_eq,
  DigitLookup.Within.tabulate_eq, DigitLookup.Bound, DigitLookup.Bound.codeCount_eq,
  DigitLookup.Bound.evaluate_eq, DigitLookup.RadixBounded
-/
import SealedMatch.Proofs.Table.Digits
import SealedMatch.Template.Lookup

namespace SealedMatch

/-! ### Rows -/

theorem spread_row {size : Nat} (h : size ≠ 0) : spread ([] ++ [size]) = size := by
  simp [spread, volume, h]

/-- Room for a row of so many entries. -/
theorem newAxis_row {size : Nat} (hle : size ≤ mostEntries) : newAxis [] size = .ok size := by
  have room : spread ([] ++ [size]) ≤ mostEntries := by
    rcases Nat.eq_zero_or_pos size with rfl | hpos
    · decide
    · rwa [spread_row hpos.ne']
  have word : size < 2 ^ 63 := by
    unfold mostEntries at hle
    omega
  exact newAxis_ok word (by decide) room

/-- There is no room for a row of more entries. -/
theorem newAxis_row_full {size : Nat} (h : mostEntries < size) :
    ∃ fault, newAxis [] size = .error fault := by
  cases hrow : newAxis [] size with
  | error fault => exact ⟨fault, rfl⟩
  | ok count =>
      obtain ⟨-, hcount, hroom⟩ := newAxis_eq_ok hrow
      obtain rfl : count = size := hcount.trans (Int.toNat_natCast size)
      rw [spread_row (Nat.ne_zero_of_lt h)] at hroom
      omega

/-- What lies below a word is a word. -/
theorem isWord_below {i n : Int} (hlow : 0 ≤ i) (hhigh : i ≤ n) (hn : isWord n = true) :
    isWord i = true := by
  obtain ⟨least, greatest⟩ := isWord_iff.1 hn
  exact isWord_iff.2 (by omega)

theorem isWord_mostEntries : isWord mostEntries = true := by decide

/-- A row that is made entry by entry holds what was made. -/
theorem getD_ofFn {size place : Nat} (f : Fin size → Int) (h : place < size) :
    (Array.ofFn f).getD place 0 = f ⟨place, h⟩ := by
  rw [Array.getD_eq_getD_getElem?, Array.getElem?_ofFn, dif_pos h, Option.getD_some]

namespace DigitLookup

variable {t : Tensor} {rows columns count : Nat} {radix : Int} {l : DigitLookup}

/-! ### Lookups within their tables -/

/-- The template code and the digit of a lookup lie within its table, which may hold any integers
and cover any number of codes. Like all positions in arrays, they are words. -/
structure Within (l : DigitLookup) (rows columns count : Nat) : Prop where
  shape_eq : l.table.shape = [rows, columns, count]
  isWord_axis : ∀ n ∈ l.table.shape, isWord n = true
  template_range : 0 ≤ l.template ∧ l.template < rows
  block_range : 0 ≤ l.block ∧ l.block < count

/-- What the table of a lookup holds for a code, and zero if it does not cover the code. -/
def digitAt (l : DigitLookup) (columns count : Nat) (code : Int) : Int :=
  if 0 ≤ code ∧ code < columns then
    l.table.entries.getD ((l.template.toNat * columns + code.toNat) * count + l.block.toNat) 0
  else 0

theorem digitAt_of_covered {code : Int} (hcode : 0 ≤ code ∧ code < columns) :
    l.digitAt columns count code = l.table.entries.getD
      ((l.template.toNat * columns + code.toNat) * count + l.block.toNat) 0 :=
  if_pos hcode

theorem digitAt_of_not_covered {code : Int} (hcode : ¬ (0 ≤ code ∧ code < columns)) :
    l.digitAt columns count code = 0 :=
  if_neg hcode

namespace Within

variable {code : Int}

/-- No axis of a table that there is room for is longer than a word. -/
theorem of_room (hshape : l.table.shape = [rows, columns, count])
    (room : spread l.table.shape ≤ mostEntries) (htemplate : 0 ≤ l.template ∧ l.template < rows)
    (hblock : 0 ≤ l.block ∧ l.block < count) : l.Within rows columns count := by
  refine ⟨hshape, fun n hn => ?_, htemplate, hblock⟩
  have few : n ≤ mostEntries := (axis_le_spread hn).trans room
  exact isWord_below (Int.natCast_nonneg n) (Int.ofNat_le.2 few) isWord_mostEntries

theorem codeCount_eq (h : l.Within rows columns count) : l.codeCount = .ok columns := by
  unfold codeCount Tensor.axisLength
  rw [h.shape_eq]
  rfl

theorem isWord_pair (h : l.Within rows columns count) :
    isWord l.template = true ∧ isWord l.block = true := by
  have axis := h.isWord_axis
  rw [h.shape_eq] at axis
  exact ⟨isWord_below h.template_range.1 h.template_range.2.le (axis rows (by simp)),
    isWord_below h.block_range.1 h.block_range.2.le (axis count (by simp))⟩

theorem isWord_code (h : l.Within rows columns count) (hcode : 0 ≤ code ∧ code < columns) :
    isWord code = true := by
  have axis := h.isWord_axis
  rw [h.shape_eq] at axis
  exact isWord_below hcode.1 hcode.2.le (axis columns (by simp))

/-- The entry at the template code, a code that is covered, and the digit. -/
theorem read_eq (h : l.Within rows columns count) (hcode : 0 ≤ code ∧ code < columns) :
    l.table.read [l.template, code, l.block] = .ok (l.digitAt columns count code) := by
  have located : Tensor.locate l.table.shape [l.template, code, l.block] =
      .ok ((l.template.toNat * columns + code.toNat) * count + l.block.toNat) := by
    have words : Tensor.requireIndices [l.template, code, l.block] = .ok () := by
      simp [Tensor.requireIndices, h.isWord_pair, h.isWord_code hcode]
    unfold Tensor.locate
    rw [words, h.shape_eq, ok_bind]
    simp only [List.length_cons, List.length_nil, lt_irrefl, if_false, Tensor.offset,
      Tensor.place_eq h.template_range.1 h.template_range.2, Tensor.place_eq hcode.1 hcode.2,
      Tensor.place_eq h.block_range.1 h.block_range.2, ok_bind, volume, pure, Except.pure]
    congr 1
    ring
  unfold Tensor.read
  rw [located, h.shape_eq, digitAt_of_covered hcode]
  simp

theorem entry?_eq (h : l.Within rows columns count) :
    l.entry? code =
      .ok (if 0 ≤ code ∧ code < columns then some (l.digitAt columns count code) else none) := by
  unfold entry?
  rw [h.codeCount_eq, ok_bind]
  split
  · rename_i hcode
    rw [h.read_eq hcode]
    rfl
  · rfl

/-- Strictly evaluated at a code that is covered, a lookup gives its digit. -/
theorem evaluate_of_covered (h : l.Within rows columns count) (hcode : 0 ≤ code ∧ code < columns) :
    l.evaluate code = .ok (l.digitAt columns count code) := by
  unfold evaluate
  rw [h.entry?_eq, if_pos hcode]
  rfl

/-- Strictly evaluated at any other code, a lookup names its feature, the code and its codes. -/
theorem evaluate_of_not_covered (h : l.Within rows columns count)
    (hcode : ¬ (0 ≤ code ∧ code < columns)) :
    l.evaluate code = .error (.domain (.probeCode l.feature code columns)) := by
  unfold evaluate
  rw [h.entry?_eq, if_neg hcode, h.codeCount_eq]
  rfl

theorem evaluateOrZero_eq (h : l.Within rows columns count) :
    l.evaluateOrZero code = .ok (l.digitAt columns count code) := by
  unfold evaluateOrZero
  rw [h.entry?_eq, ok_bind]
  split
  · rfl
  · rename_i hcode
    rw [digitAt_of_not_covered hcode]
    rfl

/-- The row of a lookup holds its digit for every code. -/
theorem row_eq (h : l.Within rows columns count) :
    ∃ row, l.row = .ok row ∧ row.shape = [columns] ∧
      ∀ code < columns, row.entries.getD code 0 = l.digitAt columns count code := by
  obtain ⟨templateWord, blockWord⟩ := h.isWord_pair
  unfold row
  rw [Tensor.requireIndices_pair templateWord blockWord, h.shape_eq]
  simp only [bind, Except.bind, Tensor.place_eq h.template_range.1 h.template_range.2,
    Tensor.place_eq h.block_range.1 h.block_range.2]
  refine ⟨_, rfl, rfl, fun code hcode => ?_⟩
  have inRow : code < volume [columns] := by simpa [volume] using hcode
  rw [digitAt_of_covered ⟨Int.natCast_nonneg code, Int.ofNat_lt.2 hcode⟩, getD_ofFn _ inRow]
  simp [volume, Nat.mod_one]

/-- Tabulated, a lookup holds its digit for every code below the size, and zeros behind the codes
that it covers. -/
theorem tabulate_eq (h : l.Within rows columns count) {size : Nat} (hsize : size ≤ mostEntries) :
    l.tabulate size =
      .ok (Array.ofFn fun code : Fin size => l.digitAt columns count (code.val : Int)) := by
  obtain ⟨row, hrow, hshape, hentries⟩ := h.row_eq
  have entries : firstEntries row (min size columns) =
      .ok (row.entries.extract 0 (min size columns)) := by
    unfold firstEntries
    rw [hshape]
    simp [withoutLeadingOnes]
  unfold tabulate
  rw [newAxis_row hsize, hrow]
  simp only [bind, Except.bind, hshape, List.headD_cons, entries, pure, Except.pure,
    Except.mapError]
  congr 2
  funext code
  have length : row.entries.size = columns := by
    rw [row.size_entries, hshape]
    simp [volume]
  rcases Nat.lt_or_ge code.val columns with hcode | hcode
  · have inRow : code.val < row.entries.size := by omega
    rw [← hentries code.val hcode, Array.getD_eq_getD_getElem?, Array.getD_eq_getD_getElem?,
      Array.getElem?_extract_of_lt (by omega), Array.getElem?_eq_getElem inRow]
    simp
  · rw [digitAt_of_not_covered (by omega), Array.getD_eq_getD_getElem?,
      Array.getElem?_eq_none (by rw [Array.size_extract]; omega)]
    rfl

end Within

/-- Where there is no room for a row of the size, tabulating ends as making the row does. -/
theorem tabulate_full {size : Nat} (hsize : mostEntries < size) :
    ∃ fault, newAxis [] size = .error fault ∧ l.tabulate size = .error (.fault fault) := by
  obtain ⟨fault, hfault⟩ := newAxis_row_full hsize
  refine ⟨fault, hfault, ?_⟩
  unfold tabulate
  rw [hfault]
  rfl

/-! ### Lookups of digits -/

/-- A lookup of a digit of a row of a table. -/
structure Bound (l : DigitLookup) (t : Tensor) (rows columns : Nat) (radix : Int) (count : Nat) :
    Prop where
  grid : t.Grid rows columns
  radix_nonneg : 0 ≤ radix
  table_eq : l.table = t.digitAxis radix count
  room : rows * columns * count ≤ mostEntries
  template_range : 0 ≤ l.template ∧ l.template < rows
  block_range : 0 ≤ l.block ∧ l.block < count

theorem Bound.shape_eq (h : l.Bound t rows columns radix count) :
    l.table.shape = [rows, columns, count] := by
  rw [h.table_eq]
  show t.shape ++ [count] = _
  rw [h.grid.shape_eq]
  rfl

/-- Positions in a table are words. -/
theorem isWord_of_lt {i : Int} {n : Nat} (hlow : 0 ≤ i) (hhigh : i < n) (hn : n ≤ mostEntries) :
    isWord i = true :=
  isWord_below hlow (by omega) isWord_mostEntries

/-- No axis is longer than the whole table of digits. -/
theorem axes_le_mostEntries (hgrid : t.Grid rows columns) (hcount : 0 < count)
    (room : rows * columns * count ≤ mostEntries) :
    rows ≤ mostEntries ∧ columns ≤ mostEntries ∧ count ≤ mostEntries := by
  rw [← hgrid.spread_eq hcount, hgrid.shape_eq] at room
  have few : ∀ n ∈ [rows, columns] ++ [count], n ≤ mostEntries := fun n hn =>
    (axis_le_spread hn).trans room
  exact ⟨few rows (by simp), few columns (by simp), few count (by simp)⟩

theorem Bound.within (h : l.Bound t rows columns radix count) : l.Within rows columns count := by
  have countPos : 0 < count := by
    have := h.block_range
    omega
  have room : spread l.table.shape ≤ mostEntries := by
    rw [h.table_eq]
    show spread (t.shape ++ [count]) ≤ mostEntries
    rw [h.grid.spread_eq countPos]
    exact h.room
  exact .of_room h.shape_eq room h.template_range h.block_range

theorem Bound.codeCount_eq (h : l.Bound t rows columns radix count) :
    l.codeCount = .ok columns :=
  h.within.codeCount_eq

/-- The digit that the table holds for a code that is covered is one of the score. -/
theorem Bound.digitAt_eq (h : l.Bound t rows columns radix count) {code : Int}
    (hcode : 0 ≤ code ∧ code < columns) :
    l.digitAt columns count code = t.cell l.template code / radix ^ l.block.toNat % radix := by
  have template := h.template_range
  have block := h.block_range
  have score := Tensor.cell_of_read (h.grid.read_eq template hcode
    ⟨h.within.isWord_pair.1, h.within.isWord_code hcode⟩)
  have inside : l.template.toNat * columns + code.toNat < t.entries.size :=
    h.grid.place_lt (by omega) (by omega)
  rw [digitAt_of_covered hcode, h.table_eq, score]
  exact Tensor.getD_digitAxis t h.radix_nonneg inside (by omega)

/-- Evaluated at a code that is covered, a lookup gives its digit of the score. -/
theorem Bound.evaluate_eq (h : l.Bound t rows columns radix count) {code : Int}
    (hcode : 0 ≤ code ∧ code < columns) :
    l.evaluate code = .ok (t.cell l.template code / radix ^ l.block.toNat % radix) := by
  rw [h.within.evaluate_of_covered hcode, h.digitAt_eq hcode]

/-- Where a lookup gives a digit, it is a digit of the radix. -/
def RadixBounded (l : DigitLookup) (radix : Nat) : Prop :=
  ∀ code digit, l.evaluate code = .ok digit → 0 ≤ digit ∧ digit < radix

theorem Bound.radixBounded {radix : Nat} (h : l.Bound t rows columns radix count)
    (hpos : 0 < radix) : l.RadixBounded radix := by
  intro code digit hdigit
  have positive : (0 : Int) < radix := Int.natCast_pos.2 hpos
  by_cases hcode : 0 ≤ code ∧ code < columns
  · rw [h.evaluate_eq hcode] at hdigit
    cases hdigit
    exact ⟨Int.emod_nonneg _ positive.ne', Int.emod_lt_of_pos _ positive⟩
  · rw [h.within.evaluate_of_not_covered hcode] at hdigit
    cases hdigit

end DigitLookup

end SealedMatch
