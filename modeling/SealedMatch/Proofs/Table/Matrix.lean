/-
Module: SealedMatch.Proofs.Table.Matrix
Purpose: The integers that a table is handed in with, and their shift out of the negative range.
Trusted boundary: none
Main exports: TableSource.matrix, Tensor.Shows, TableSource.shows_words, TableSource.shows_matrix,
  normalize_shows
-/
import SealedMatch.Proofs.Table.Shape

namespace SealedMatch

/-- Exactly the integers that fit a signed word are kept by it. -/
theorem wrap64_eq_self_iff {n : Int} : wrap64 n = n ↔ -2 ^ 63 ≤ n ∧ n < 2 ^ 63 := by
  constructor
  · intro h
    have low := Int.le_bmod (x := n) (show 0 < 2 ^ 64 by decide)
    have high := Int.bmod_lt (x := n) (show 0 < 2 ^ 64 by decide)
    unfold wrap64 at h
    omega
  · rintro ⟨low, high⟩
    exact Int.bmod_eq_of_le (by omega) (by omega)

/-! ### Types that integers and truth values share -/

namespace ElementType

/-- Whether the entries are integers or truth values. -/
def isWhole : ElementType → Bool
  | bool => true
  | t => t.isInteger

theorem isWhole_of_isInteger {t : ElementType} (h : t.isInteger = true) : t.isWhole = true := by
  cases t with
  | bool => rfl
  | _ => exact h

/-- Integers and truth values have no type in common with anything else. -/
theorem isWhole_of_join {t u : ElementType} (h : (t.join u).isWhole = true) :
    t.isWhole = true ∧ u.isWhole = true := by
  cases t <;> cases u <;> simp_all [join, isWhole, isInteger]

theorem isWhole_of_ofValues {vs : List Value} (h : (ofValues vs).isWhole = true) :
    ∀ v ∈ vs, (ofValue v).isWhole = true := by
  have rest : ∀ (ws : List Value) (t : ElementType),
      (ws.foldl (fun t w => t.join (ofValue w)) t).isWhole = true →
      t.isWhole = true ∧ ∀ w ∈ ws, (ofValue w).isWhole = true := by
    intro ws
    induction ws with
    | nil => exact fun t ht => ⟨ht, by simp⟩
    | cons w ws ih =>
        intro t ht
        rw [List.foldl_cons] at ht
        obtain ⟨hjoin, htail⟩ := ih _ ht
        obtain ⟨hfirst, hw⟩ := isWhole_of_join hjoin
        exact ⟨hfirst, List.forall_mem_cons.2 ⟨hw, htail⟩⟩
  cases vs with
  | nil => simp
  | cons v vs => exact List.forall_mem_cons.2 (rest vs _ h)

end ElementType

/-- The integer that an entry counts as, a truth value being zero or one. -/
def Value.integer : Value → Int
  | .bool b => if b then 1 else 0
  | .int n => n
  | _ => 0

/-- As a cell of a table, an integer is read as a word. -/
theorem TableSource.cell_eq (v : Value) : cell v = wrap64 v.integer := by
  cases v with
  | bool b => cases b <;> rfl
  | _ => rfl

/-- Only integers that fit a signed or an unsigned word have a type of integers. -/
theorem Value.integer_bounds {v : Value} (h : (ElementType.ofValue v).isWhole = true) :
    -2 ^ 63 ≤ v.integer ∧ v.integer < 2 ^ 64 := by
  cases v with
  | bool b => cases b <;> decide
  | int n =>
      simp only [ElementType.ofValue] at h
      simp only [integer]
      split at h
      · omega
      · split at h
        · omega
        · cases h
  | _ => cases h

/-! ### Tables of a matrix -/

/-- The entry of a matrix in a row and a column, zero where there is none. -/
def matrixEntry (matrix : List (List Int)) (row column : Int) : Int :=
  (matrix.getD row.toNat []).getD column.toNat 0

/-- The last entry of the first row. -/
def cornerEntry (matrix : List (List Int)) : Int := (matrix.headD []).getLastD 0

/-- The rows of an array, one behind the other. -/
def Tensor.matrix (t : Tensor) : List (List Int) :=
  match t.shape with
  | [rows, columns] =>
    (List.range rows).map fun i => (t.entries.toList.drop (i * columns)).take columns
  | _ => []

/-- The integers that a table is handed in with. -/
def TableSource.matrix : TableSource → List (List Int)
  | .nested v =>
    match rows v with
    | .ok rs => rs.map fun row => row.map Value.integer
    | .error _ => []
  | .array t => t.matrix

namespace Tensor

/-- A table has the rows of a matrix. -/
structure Shows (t : Tensor) (matrix : List (List Int)) (columns : Nat) : Prop where
  grid : t.Grid matrix.length columns
  uniform : ∀ row ∈ matrix, row.length = columns
  entries_eq : t.entries.toList = matrix.flatten

variable {t : Tensor} {matrix : List (List Int)} {columns : Nat}

theorem getElem?_flatten_uniform (huniform : ∀ row ∈ matrix, row.length = columns) {i j : Nat}
    (hi : i < matrix.length) (hj : j < columns) :
    matrix.flatten[i * columns + j]? = matrix[i]?.bind (·[j]?) := by
  induction matrix generalizing i with
  | nil => simp at hi
  | cons row matrix ih =>
      have width := huniform row (by simp)
      cases i with
      | zero =>
          rw [List.flatten_cons, Nat.zero_mul, Nat.zero_add,
            List.getElem?_append_left (by omega)]
          rfl
      | succ i =>
          have place : (i + 1) * columns + j = row.length + (i * columns + j) := by
            rw [width, Nat.add_mul]
            omega
          rw [List.flatten_cons, place, List.getElem?_append_right (by omega),
            Nat.add_sub_cancel_left,
            ih (fun row' hrow' => huniform row' (List.mem_cons_of_mem row hrow'))
              (by simpa using hi)]
          rfl

theorem Shows.getD_eq (h : t.Shows matrix columns) {i j : Nat} (hi : i < matrix.length)
    (hj : j < columns) : t.entries.getD (i * columns + j) 0 = (matrix.getD i []).getD j 0 := by
  have here := getElem?_flatten_uniform h.uniform hi hj
  rw [← h.entries_eq, Array.getElem?_toList] at here
  rw [Array.getD_eq_getD_getElem?, here, List.getD_eq_getElem?_getD, List.getD_eq_getElem?_getD,
    List.getElem?_eq_getElem hi]
  rfl

theorem Shows.read_eq (h : t.Shows matrix columns) {row column : Int}
    (hrow : 0 ≤ row ∧ row < matrix.length) (hcolumn : 0 ≤ column ∧ column < columns)
    (hwords : isWord row = true ∧ isWord column = true) :
    t.read [row, column] = .ok (matrixEntry matrix row column) := by
  rw [h.grid.read_eq hrow hcolumn hwords, h.getD_eq (by omega) (by omega)]
  rfl

/-- The last position of an axis is also called minus one. -/
theorem Shows.read_corner (h : t.Shows matrix columns) :
    t.read [0, -1] = .ok (cornerEntry matrix) := by
  have rowsPos := h.grid.rows_pos
  have columnsPos := h.grid.columns_pos
  have last : place 1 columns (-1) = .ok (columns - 1) := by
    unfold place
    rw [if_neg (by omega), if_pos (by omega)]
    congr 1
    omega
  have located : locate t.shape [0, -1] = .ok (columns - 1) := by
    unfold locate
    rw [requireIndices_pair (by decide) (by decide), h.grid.shape_eq]
    simp only [List.length_cons, List.length_nil, bind, Except.bind]
    rw [if_neg (by decide)]
    simp [offset, place_eq (le_refl 0) (show (0 : Int) < matrix.length by omega), last, volume,
      bind, Except.bind, pure, Except.pure]
  have corner := h.getD_eq rowsPos (show columns - 1 < columns by omega)
  rw [Nat.zero_mul, Nat.zero_add] at corner
  unfold read
  rw [located, h.grid.shape_eq]
  simp only [List.length_cons, List.length_nil, Nat.lt_irrefl, if_false]
  rw [corner]
  cases matrix with
  | nil => simp at rowsPos
  | cons row rest =>
      have width := h.uniform row (by simp)
      rw [← width]
      simp [cornerEntry, List.getLast?_eq_getElem?]

end Tensor

/-- An array shows its own rows. -/
theorem Tensor.Grid.shows {t : Tensor} {rows columns : Nat} (h : t.Grid rows columns) :
    t.Shows t.matrix columns := by
  have total : t.entries.toList.length = rows * columns := by
    rw [Array.length_toList]
    exact h.size_eq
  have chunks : ∀ n, ((List.range n).map fun i =>
      (t.entries.toList.drop (i * columns)).take columns).flatten =
        t.entries.toList.take (n * columns) := by
    intro n
    induction n with
    | zero => simp
    | succ n ih =>
        rw [List.range_succ, List.map_append, List.flatten_append, ih, Nat.succ_mul, List.take_add]
        simp
  have unfolded : t.matrix = (List.range rows).map fun i =>
      (t.entries.toList.drop (i * columns)).take columns := by
    unfold matrix
    rw [h.shape_eq]
  refine ⟨?_, fun row hrow => ?_, ?_⟩
  · rw [unfolded, List.length_map, List.length_range]
    exact h
  · rw [unfolded] at hrow
    obtain ⟨i, hi, rfl⟩ := List.mem_map.1 hrow
    rw [List.mem_range] at hi
    have room : (i + 1) * columns ≤ rows * columns := Nat.mul_le_mul_right columns hi
    rw [Nat.succ_mul] at room
    rw [List.length_take, List.length_drop, total]
    omega
  · rw [unfolded, chunks, List.take_of_length_le (by omega)]

theorem map_length_uniform {α : Type} {rows : List (List α)} {columns : Nat}
    (h : ∀ row ∈ rows, row.length = columns) :
    rows.map List.length = List.replicate rows.length columns :=
  List.eq_replicate_iff.2 ⟨List.length_map .., by simpa using h⟩

/-- A table has the rows of no other matrix than its own. -/
theorem Tensor.Shows.matrix_eq {t : Tensor} {matrix : List (List Int)} {columns : Nat}
    (h : t.Shows matrix columns) : t.matrix = matrix := by
  have own := h.grid.shows
  have count : t.matrix.length = matrix.length := by
    have shapes := own.grid.shape_eq.symm.trans h.grid.shape_eq
    exact List.head_eq_of_cons_eq shapes
  refine List.eq_iff_flatten_eq.2 ⟨own.entries_eq.symm.trans h.entries_eq, ?_⟩
  rw [map_length_uniform own.uniform, map_length_uniform h.uniform, count]

/-- Entries that are changed alike show a matrix that is changed alike. -/
theorem Tensor.Shows.map {t : Tensor} {matrix : List (List Int)} {columns : Nat}
    (h : t.Shows matrix columns) (f : Int → Int) :
    (t.map f).Shows (matrix.map fun row => row.map f) columns := by
  refine ⟨?_, fun row hrow => ?_, ?_⟩
  · rw [List.length_map]
    exact h.grid.map f
  · obtain ⟨row', hrow', rfl⟩ := List.mem_map.1 hrow
    rw [List.length_map]
    exact h.uniform row' hrow'
  · show (t.entries.map f).toList = _
    rw [Array.toList_map, h.entries_eq, List.map_flatten]

theorem cornerEntry_map {f : Int → Int} (hf : f 0 = 0) (matrix : List (List Int)) :
    cornerEntry (matrix.map fun row => row.map f) = f (cornerEntry matrix) := by
  cases matrix with
  | nil => exact hf.symm
  | cons row rest =>
      show (row.map f).getLastD 0 = f (row.getLastD 0)
      rw [List.getLastD_eq_getLast?, List.getLastD_eq_getLast?, List.getLast?_map]
      cases row.getLast? with
      | none => exact hf.symm
      | some n => rfl

/-- Two changes of a matrix agree exactly if they agree on its entries. -/
theorem map_map_eq_iff {matrix : List (List Int)} {f g : Int → Int} :
    ((matrix.map fun row => row.map f) = matrix.map fun row => row.map g) ↔
      ∀ n ∈ matrix.flatten, f n = g n := by
  simp only [List.map_inj_left, List.mem_flatten]
  exact ⟨fun h n ⟨row, hrow, hn⟩ => h row hrow n hn, fun h row hrow n hn => h n ⟨row, hrow, hn⟩⟩

variable {source : TableSource} {feature : Nat} {t : Tensor}

/-- Nested lists are accepted if they are rows of one length, and what stands in them are integers
or truth values, not lists. -/
theorem TableSource.toTable_rows {v : Value} (ht : (nested v).toTable feature = .ok t) :
    ∃ rs columns, rows v = .ok rs ∧ (∀ row ∈ rs, row.length = columns) ∧
      leaves (.list (rs.map .list)) = rs.flatten ∧
      (ElementType.ofValues rs.flatten).isInteger = true ∧ t.Grid rs.length columns ∧
      t.entries.toList = rs.flatten.map cell := by
  obtain ⟨height, width, hgrid⟩ := grid_of_toTable ht
  obtain ⟨rs, n, hrows, huniform, hnested, hshape, hinteger, hentries⟩ := toTable_nested ht
  have haxes : n.shape.length = 2 := by
    unfold checkShape at hshape
    split at hshape
    · rename_i both
      exact both.1
    · cases hshape
  obtain ⟨columns, hlengths, hn, hflat⟩ := Nested.ofValue_rows hnested huniform haxes
  have listed : leaves (.list (rs.map .list)) = n.entries := by
    unfold Nested.ofValue at hnested
    simp only at hnested
    split at hnested
    · cases hnested
      rfl
    · split at hnested <;> cases hnested
  unfold Tensor.ofEntries? at hentries
  split at hentries
  · cases hentries
    have same := hgrid.shape_eq
    simp only [hn, List.cons.injEq, and_true] at same
    refine ⟨rs, columns, hrows, hlengths, listed.trans hflat, hflat ▸ hinteger, ?_, ?_⟩
    · rw [same.1, same.2]
      exact hgrid
    · rw [← hflat]
  · cases hentries

/-- Nested lists that are accepted show the words that their integers are read as. These integers
fit signed or unsigned words. -/
theorem TableSource.shows_words {v : Value} (ht : (nested v).toTable feature = .ok t) :
    (∃ columns, t.Shows ((nested v).matrix.map fun row => row.map wrap64) columns) ∧
      ∀ n ∈ (nested v).matrix.flatten, -2 ^ 63 ≤ n ∧ n < 2 ^ 64 := by
  obtain ⟨rs, columns, hrows, hlengths, -, hinteger, hgrid, hentries⟩ := toTable_rows ht
  have listed : (nested v).matrix = rs.map fun row => row.map Value.integer := by
    simp only [matrix, hrows]
  have words : ((nested v).matrix.map fun row => row.map wrap64) =
      rs.map fun row => row.map cell := by
    rw [listed, List.map_map]
    exact List.map_congr_left fun row _ => by simp [cell_eq, Function.comp_def]
  refine ⟨⟨columns, ?_, fun row hrow => ?_, ?_⟩, fun m hm => ?_⟩
  · rw [words, List.length_map]
    exact hgrid
  · rw [words] at hrow
    obtain ⟨row', hrow', rfl⟩ := List.mem_map.1 hrow
    rw [List.length_map]
    exact hlengths row' hrow'
  · rw [words, hentries, List.map_flatten]
  · rw [listed, ← List.map_flatten] at hm
    obtain ⟨w, hw, rfl⟩ := List.mem_map.1 hm
    have whole := ElementType.isWhole_of_ofValues (ElementType.isWhole_of_isInteger hinteger)
    exact Value.integer_bounds (whole w hw)

/-- What is accepted shows the integers that it was handed in with, as long as they fit signed
words. -/
theorem TableSource.shows_matrix (ht : source.toTable feature = .ok t)
    (hsmall : ∀ v ∈ source.matrix.flatten, v < 2 ^ 63) :
    ∃ columns, t.Shows source.matrix columns := by
  cases source with
  | array t' =>
      obtain ⟨height, width, hgrid⟩ := grid_of_toTable ht
      simp only [toTable, bind, Except.bind] at ht
      split at ht
      · cases ht
      · cases ht
        exact ⟨_, hgrid.shows⟩
  | nested v =>
      obtain ⟨⟨columns, hshows⟩, hbounds⟩ := shows_words ht
      have kept := map_map_eq_iff (f := wrap64) (g := id) |>.2 fun n hn =>
        wrap64_eq_self_iff.2 ⟨(hbounds n hn).1, hsmall n hn⟩
      rw [kept] at hshows
      exact ⟨columns, by simpa using hshows⟩

/-- A matrix with every entry moved up by an offset. -/
def shiftMatrix (matrix : List (List Int)) (offset : Int) : List (List Int) :=
  matrix.map fun row => row.map (· + offset)

/-- As long as nothing wraps around, normalizing moves every entry up by the absolute value of the
corner. -/
theorem normalize_shows {offset : Int} (hn : normalize source feature = .ok (t, offset))
    (hrange : ∀ v ∈ source.matrix.flatten, 0 ≤ v + (cornerEntry source.matrix).natAbs ∧
      v + (cornerEntry source.matrix).natAbs < 2 ^ 63) :
    offset = (cornerEntry source.matrix).natAbs ∧
      ∃ columns, t.Shows (shiftMatrix source.matrix offset) columns := by
  obtain ⟨table, corner, htable, hcorner, hoffset, hmap⟩ := normalize_eq_ok hn
  obtain ⟨columns, hshows⟩ := TableSource.shows_matrix htable fun v hv => by
    have := hrange v hv
    omega
  rw [hshows.read_corner] at hcorner
  cases hcorner
  have exact : (source.matrix.map fun row => row.map fun v => wrap64 (v + offset)) =
      shiftMatrix source.matrix offset :=
    map_map_eq_iff.2 fun v hv => by
      obtain ⟨low, high⟩ := hrange v hv
      exact wrap64_eq_self_iff.2 (by omega)
  refine ⟨hoffset, columns, ?_⟩
  rw [← exact, hmap]
  exact hshows.map _

end SealedMatch
