/-
Module: SealedMatch.Proofs.Table.Normalization
Purpose: Which nested integers are normalized, and which of these without loss.
Trusted boundary: none
Main exports: Value.table, Value.Integers, TableSource.exists_toTable_iff, Normalizable,
  exists_normalize_iff, ShiftedExactly, normalize_exactly
-/
import Mathlib.Data.Set.List
import SealedMatch.Proofs.Table.Matrix

namespace SealedMatch

/-! ### The type of integers -/

/-- Whether integers are all signed words, or all unsigned words that are no signed ones. -/
def OfOneWord (ns : List Int) : Prop :=
  (∀ n ∈ ns, -2 ^ 63 ≤ n ∧ n < 2 ^ 63) ∨ ∀ n ∈ ns, 2 ^ 63 ≤ n ∧ n < 2 ^ 64

namespace ElementType

/-- Where no truth values are, a type of integers is met only by itself. -/
theorem join_eq_iff {s t u : ElementType} (hs : s.isInteger = true) (ht : t ≠ bool)
    (hu : u ≠ bool) : t.join u = s ↔ t = s ∧ u = s := by
  cases s <;> cases t <;> cases u <;> simp_all [join, isInteger]

theorem join_ne_bool {t u : ElementType} (ht : t ≠ bool) : t.join u ≠ bool := by
  cases t <;> cases u <;> simp_all [join]

theorem ofValue_int_ne_bool (n : Int) : ofValue (.int n) ≠ bool := by
  simp only [ofValue]
  split_ifs <;> simp

theorem ofValue_int_eq_int64_iff {n : Int} :
    ofValue (.int n) = int64 ↔ -2 ^ 63 ≤ n ∧ n < 2 ^ 63 := by
  simp only [ofValue]
  split_ifs <;> simp_all

theorem ofValue_int_eq_uint64_iff {n : Int} :
    ofValue (.int n) = uint64 ↔ 2 ^ 63 ≤ n ∧ n < 2 ^ 64 := by
  simp only [ofValue]
  split_ifs <;> simp <;> omega

/-- Integers share a type of integers if each of them has it. -/
theorem ofValues_ints_eq_iff {s : ElementType} (hs : s.isInteger = true) {ns : List Int}
    (hns : ns ≠ []) : ofValues (ns.map .int) = s ↔ ∀ n ∈ ns, ofValue (.int n) = s := by
  have rest : ∀ (ms : List Int) (t : ElementType), t ≠ bool →
      ((ms.map Value.int).foldl (fun t v => t.join (ofValue v)) t = s ↔
        t = s ∧ ∀ m ∈ ms, ofValue (.int m) = s) := by
    intro ms
    induction ms with
    | nil => simp
    | cons m ms ih =>
        intro t ht
        rw [List.map_cons, List.foldl_cons, ih _ (join_ne_bool ht),
          join_eq_iff hs ht (ofValue_int_ne_bool m), List.forall_mem_cons, and_assoc]
  cases ns with
  | nil => exact absurd rfl hns
  | cons n ns =>
      rw [List.forall_mem_cons]
      exact rest ns _ (ofValue_int_ne_bool n)

theorem isInteger_ofValues_ints {ns : List Int} (hns : ns ≠ []) :
    (ofValues (ns.map .int)).isInteger = true ↔ OfOneWord ns := by
  have types : ∀ t : ElementType, t.isInteger = true ↔ t = int64 ∨ t = uint64 := by
    intro t
    cases t <;> simp [isInteger]
  rw [types, ofValues_ints_eq_iff rfl hns, ofValues_ints_eq_iff rfl hns]
  simp only [ofValue_int_eq_int64_iff, ofValue_int_eq_uint64_iff, OfOneWord]

end ElementType

/-! ### Nested integers -/

namespace Value

/-- Rows of integers as nested lists. -/
def table (rows : List (List Int)) : Value := .list (rows.map ints)

/-- Nothing but integers stands in nested lists, however deeply they are nested. -/
def Integers (v : Value) : Prop := ∀ w ∈ leaves v, ∃ n, w = .int n

theorem table_eq_rows (rows : List (List Int)) :
    table rows = .list ((rows.map fun row => row.map .int).map .list) := by
  simp [table, ints, Function.comp_def]

theorem leaves_table (rows : List (List Int)) :
    leaves (table rows) = rows.flatten.map .int := by
  rw [table_eq_rows, leaves, itemLeaves_rows (by simp [single]), List.map_flatten]

theorem integers_table (rows : List (List Int)) : (table rows).Integers := by
  intro w hw
  rw [leaves_table] at hw
  obtain ⟨n, _, rfl⟩ := List.mem_map.1 hw
  exact ⟨n, rfl⟩

theorem Integers.of_mem {items : List Value} {v : Value} (h : (list items).Integers)
    (hv : v ∈ items) : v.Integers := by
  rw [Integers, leaves] at h
  induction items with
  | nil => cases hv
  | cons w items ih =>
      rw [itemLeaves, List.forall_mem_append] at h
      cases hv with
      | head => exact h.1
      | tail _ hv => exact ih h.2 hv

/-- Among nested integers, only lists have members. -/
theorem Integers.eq_list {v : Value} (h : v.Integers) {items : List Value}
    (hitems : v.members = .ok items) : v = .list items := by
  cases v with
  | list items' =>
      cases hitems
      rfl
  | text s => simp [Integers, leaves] at h
  | record fields => simp [Integers, leaves] at h
  | _ => cases hitems

theorem Integers.eq_map_list {items : List Value} {rows : List (List Value)}
    (h : (list items).Integers)
    (hrows : List.Forall₂ (fun v row => v.members = .ok row) items rows) :
    items = rows.map .list := by
  induction hrows with
  | nil => rfl
  | @cons v row items rows hrow _ ih =>
      have rest : (list items).Integers := by
        rw [Integers, leaves, itemLeaves, List.forall_mem_append] at h
        rw [Integers, leaves]
        exact h.2
      rw [List.map_cons, ← ih rest, ← (h.of_mem (by simp)).eq_list hrow]

end Value

/-- Rows of one length, none of which is missing. -/
structure Rectangular (rows : List (List Int)) : Prop where
  rows_ne : rows ≠ []
  columns : ∃ columns, 0 < columns ∧ ∀ row ∈ rows, row.length = columns

theorem Rectangular.flatten_ne_nil {rows : List (List Int)} (h : Rectangular rows) :
    rows.flatten ≠ [] := by
  obtain ⟨hne, columns, hpos, hlengths⟩ := h
  obtain ⟨row, hrow⟩ := List.exists_mem_of_ne_nil rows hne
  rw [List.flatten_ne_nil_iff]
  exact ⟨row, hrow, List.ne_nil_of_length_pos (by rw [hlengths row hrow]; exact hpos)⟩

namespace TableSource

theorem rows_table (rows : List (List Int)) :
    TableSource.rows (.table rows) = .ok (rows.map fun row => row.map .int) := by
  show (rows.map Value.ints).mapM Value.members = _
  induction rows with
  | nil => rfl
  | cons row rows ih =>
      rw [List.map_cons, List.mapM_cons, ih]
      rfl

theorem matrix_table (rows : List (List Int)) : (nested (.table rows)).matrix = rows := by
  simp [matrix, rows_table, Function.comp_def, Value.integer]

variable {feature : Nat} {t : Tensor}

/-- Nested integers are not accepted unless they are rows. -/
theorem exists_table {v : Value} (hv : v.Integers) (ht : (nested v).toTable feature = .ok t) :
    ∃ rows, v = .table rows := by
  obtain ⟨rs, columns, hrows, -, hleaves, -⟩ := toTable_rows ht
  obtain ⟨items, hitems, hmembers⟩ := bind_eq_ok hrows
  have outer := hv.eq_list hitems
  subst outer
  have inner := hv.eq_map_list (mapM_eq_ok hmembers)
  subst inner
  have ints : rs ∈ Set.range (List.map (List.map Value.int)) := by
    rw [Set.range_list_map, Set.range_list_map]
    intro row hrow w hw
    obtain ⟨n, hn⟩ := hv w (by rw [hleaves]; exact List.mem_flatten.2 ⟨row, hrow, hw⟩)
    exact ⟨n, hn.symm⟩
  obtain ⟨rows, rfl⟩ := ints
  exact ⟨rows, (Value.table_eq_rows rows).symm⟩

/-- Rows of integers form an array with two axes. -/
theorem ofValue_table {row : List Int} {rest : List (List Int)} {n : Int}
    (hrest : ∀ row' ∈ rest, row'.length = row.length + 1) :
    Nested.ofValue (.list ((((n :: row) :: rest).map fun row => row.map Value.int).map .list)) =
      .ok ⟨[rest.length + 1, row.length + 1], ((n :: row) :: rest).flatten.map .int⟩ := by
  have leaves := Value.leaves_table ((n :: row) :: rest)
  rw [Value.table_eq_rows] at leaves
  have hlengths : ∀ row' ∈ rest.map fun row => row.map Value.int,
      row'.length = (row.map Value.int).length + 1 := by
    simpa using hrest
  have visited := ShapeScan.visit_rows (show (Value.int n).single = true from rfl) hlengths
  unfold Nested.ofValue
  rw [leaves]
  simp only [List.map_cons] at visited ⊢
  rw [visited]
  simp [Value.single, ShapeScan.shape]

/-- Rows of integers are accepted if they form a table and the integers share a type. -/
theorem exists_toTable_iff {rows : List (List Int)} :
    (∃ t, (nested (.table rows)).toTable feature = .ok t) ↔
      Rectangular rows ∧ OfOneWord rows.flatten := by
  constructor
  · rintro ⟨t, ht⟩
    obtain ⟨rs, columns, hrows, hlengths, -, hinteger, hgrid, -⟩ := toTable_rows ht
    rw [rows_table] at hrows
    cases hrows
    have rectangular : Rectangular rows :=
      ⟨List.ne_nil_of_length_pos (by simpa using hgrid.rows_pos), columns, hgrid.columns_pos,
        by simpa using hlengths⟩
    rw [← List.map_flatten] at hinteger
    exact ⟨rectangular, (ElementType.isInteger_ofValues_ints rectangular.flatten_ne_nil).1 hinteger⟩
  · rintro ⟨rectangular, hwords⟩
    have hinteger := (ElementType.isInteger_ofValues_ints rectangular.flatten_ne_nil).2 hwords
    obtain ⟨hne, columns, hpos, hlengths⟩ := rectangular
    obtain ⟨first, rest, rfl⟩ := List.exists_cons_of_ne_nil hne
    obtain ⟨n, row, rfl⟩ := List.exists_cons_of_length_pos
      (show 0 < first.length by rw [hlengths first (by simp)]; exact hpos)
    have hrest : ∀ row' ∈ rest, row'.length = row.length + 1 := fun row' hrow' =>
      (hlengths row' (List.mem_cons_of_mem _ hrow')).trans (hlengths (n :: row) (by simp)).symm
    have huniform : uniform (((n :: row) :: rest).map fun row => row.map Value.int) = true := by
      simpa [uniform] using hrest
    have hshape : checkShape [rest.length + 1, row.length + 1] feature = .ok () := by
      simp [checkShape, volume, pure, Except.pure]
    have hsize : (((n :: row) :: rest).flatten.map Value.int |>.map cell).toArray.size =
        volume [rest.length + 1, row.length + 1] := by
      rw [List.size_toArray, List.length_map, List.length_map, List.length_flatten,
        map_length_uniform hlengths, List.sum_replicate_nat, ← hlengths (n :: row) (by simp)]
      simp [volume]
    refine ⟨⟨_, _, hsize⟩, ?_⟩
    unfold toTable
    simp only [rows_table, ok_bind, huniform, ofValue_table hrest, hshape, Nested.type, hinteger,
      Tensor.ofEntries?, dif_pos hsize]
    rfl

end TableSource

theorem Value.table_injective : Function.Injective Value.table := fun rows rows' h => by
  rw [← TableSource.matrix_table rows, h, TableSource.matrix_table]

/-! ### Normalization -/

/-- Rows of integers that are accepted, and whose corner has an absolute value among the signed
words. -/
structure Normalizable (rows : List (List Int)) : Prop where
  rectangular : Rectangular rows
  oneWord : OfOneWord rows.flatten
  corner_ne : cornerEntry rows ≠ -2 ^ 63 ∧ cornerEntry rows ≠ 2 ^ 63

theorem Rectangular.corner_mem {rows : List (List Int)} (h : Rectangular rows) :
    cornerEntry rows ∈ rows.flatten := by
  obtain ⟨hne, columns, hpos, hlengths⟩ := h
  obtain ⟨row, rest, rfl⟩ := List.exists_cons_of_ne_nil hne
  have filled : row ≠ [] :=
    List.ne_nil_of_length_pos (by rw [hlengths row (by simp)]; exact hpos)
  have last : cornerEntry (row :: rest) = row.getLast filled := by
    simp [cornerEntry, List.getLast?_eq_some_getLast filled]
  rw [last, List.flatten_cons]
  exact List.mem_append_left _ (List.getLast_mem filled)

/-- Unsigned words past the signed ones are reread as negative. -/
theorem wrap64_of_unsigned {n : Int} (h : 2 ^ 63 ≤ n ∧ n < 2 ^ 64) : wrap64 n = n - 2 ^ 64 := by
  have lower : wrap64 (n - 2 ^ 64) = n - 2 ^ 64 := wrap64_eq_self_iff.2 (by omega)
  rw [← lower]
  exact (Int.sub_bmod_right n (2 ^ 64)).symm

variable {feature : Nat} {rows : List (List Int)}

/-- Only a corner that is the least word, or is reread as that, has no offset. -/
theorem isWord_offset_iff (hrows : Rectangular rows) (hwords : OfOneWord rows.flatten) :
    isWord (wrap64 (cornerEntry rows)).natAbs = true ↔
      cornerEntry rows ≠ -2 ^ 63 ∧ cornerEntry rows ≠ 2 ^ 63 := by
  have among := hrows.corner_mem
  simp only [isWord_iff]
  rcases hwords with signed | unsigned
  · have bounds := signed _ among
    rw [wrap64_eq_self_iff.2 bounds]
    omega
  · have bounds := unsigned _ among
    rw [wrap64_of_unsigned bounds]
    omega

theorem TableSource.read_corner {table : Tensor}
    (h : (nested (.table rows)).toTable feature = .ok table) :
    table.read [0, -1] = .ok (wrap64 (cornerEntry rows)) := by
  obtain ⟨⟨columns, hshows⟩, -⟩ := shows_words h
  rw [matrix_table] at hshows
  rw [hshows.read_corner, cornerEntry_map rfl]

theorem exists_normalize_iff :
    (∃ result, normalize (.nested (.table rows)) feature = .ok result) ↔ Normalizable rows := by
  constructor
  · rintro ⟨⟨t, offset⟩, h⟩
    obtain ⟨table, htable, h⟩ := bind_eq_ok h
    obtain ⟨hrows, hwords⟩ := TableSource.exists_toTable_iff.1 ⟨table, htable⟩
    obtain ⟨corner, hcorner, h⟩ := bind_eq_ok h
    simp only at h
    split at h
    · rename_i hword
      rw [TableSource.read_corner htable] at hcorner
      cases hcorner
      exact ⟨hrows, hwords, (isWord_offset_iff hrows hwords).1 hword⟩
    · cases h
  · rintro ⟨hrows, hwords, hcorner⟩
    obtain ⟨table, htable⟩ := TableSource.exists_toTable_iff.2 ⟨hrows, hwords⟩
    unfold normalize
    rw [htable, ok_bind, TableSource.read_corner htable, ok_bind,
      if_pos ((isWord_offset_iff hrows hwords).2 hcorner)]
    exact ⟨_, rfl⟩

/-- What is returned in words: the offset is that of the corner as it is reread, and all sums wrap
around. -/
theorem normalize_table_eq_ok {t : Tensor} {offset : Int}
    (h : normalize (.nested (.table rows)) feature = .ok (t, offset)) :
    offset = (wrap64 (cornerEntry rows)).natAbs ∧
      t.matrix = rows.map fun row => row.map fun n => wrap64 (n + offset) := by
  obtain ⟨table, corner, htable, hcorner, hoffset, hmap⟩ := normalize_eq_ok h
  obtain ⟨⟨columns, hshows⟩, -⟩ := TableSource.shows_words htable
  rw [TableSource.matrix_table] at hshows
  rw [TableSource.read_corner htable] at hcorner
  cases hcorner
  refine ⟨hoffset, ?_⟩
  rw [hmap, (hshows.map _).matrix_eq, List.map_map]
  refine List.map_congr_left fun row _ => ?_
  rw [Function.comp_apply, List.map_map]
  exact List.map_congr_left fun n _ => Int.bmod_add_bmod ..

/-- A table is moved up without loss: the offset is the absolute value of the corner, and what
stands in the table is every entry plus the offset. -/
structure ShiftedExactly (rows : List (List Int)) (t : Tensor) (offset : Int) : Prop where
  offset_eq : offset = (cornerEntry rows).natAbs
  matrix_eq : t.matrix = shiftMatrix rows offset

/-- No entry leaves the signed words when it is moved up by the absolute value of the corner. -/
def FitsShifted (rows : List (List Int)) : Prop :=
  ∀ n ∈ rows.flatten, n + (cornerEntry rows).natAbs < 2 ^ 63

/-- Normalizing is exact unless an entry leaves the signed words, be it before or after it has been
moved up. -/
theorem shiftedExactly_iff {t : Tensor} {offset : Int} (hrows : Normalizable rows)
    (h : normalize (.nested (.table rows)) feature = .ok (t, offset)) :
    ShiftedExactly rows t offset ↔ FitsShifted rows := by
  obtain ⟨hoffset, hmatrix⟩ := normalize_table_eq_ok h
  have among := hrows.rectangular.corner_mem
  have moved : t.matrix = shiftMatrix rows offset ↔
      ∀ n ∈ rows.flatten, -2 ^ 63 ≤ n + offset ∧ n + offset < 2 ^ 63 := by
    rw [hmatrix, shiftMatrix, map_map_eq_iff]
    simp only [wrap64_eq_self_iff]
  have exact : ShiftedExactly rows t offset ↔ offset = (cornerEntry rows).natAbs ∧
      ∀ n ∈ rows.flatten, -2 ^ 63 ≤ n + offset ∧ n + offset < 2 ^ 63 := by
    rw [← moved]
    exact ⟨fun h => ⟨h.offset_eq, h.matrix_eq⟩, fun h => ⟨h.1, h.2⟩⟩
  rw [exact]
  rcases hrows.oneWord with signed | unsigned
  · rw [wrap64_eq_self_iff.2 (signed _ among)] at hoffset
    subst hoffset
    refine ⟨fun h n hn => (h.2 n hn).2, fun h => ⟨rfl, fun n hn => ⟨?_, h n hn⟩⟩⟩
    have := (signed n hn).1
    omega
  · -- The corner is reread as another number, and its own sum is past the signed words.
    have corner := unsigned _ among
    have ne := hrows.corner_ne.2
    rw [wrap64_of_unsigned corner] at hoffset
    constructor
    · rintro ⟨hsame, -⟩
      omega
    · intro h
      have := h _ among
      omega

/-- What is returned for rows that are accepted, in words. -/
theorem Normalizable.normalize_eq (hrows : Normalizable rows) (feature : Nat) {offset : Int}
    (hoffset : (wrap64 (cornerEntry rows)).natAbs = offset) :
    ∃ t, normalize (.nested (.table rows)) feature = .ok (t, offset) ∧
      t.matrix = (rows.map fun row => row.map fun n => wrap64 (n + offset)) ∧
      (ShiftedExactly rows t offset ↔ FitsShifted rows) := by
  obtain ⟨⟨t, offset'⟩, h⟩ := exists_normalize_iff.2 hrows
  obtain ⟨hoffset', hmatrix⟩ := normalize_table_eq_ok h
  have same : offset' = offset := hoffset'.trans hoffset
  subst same
  exact ⟨t, h, hmatrix, shiftedExactly_iff hrows h⟩

/-- Nonnegative words whose corner is zero are normalized to themselves. -/
theorem Rectangular.normalize_self (hrows : Rectangular rows) (hcorner : cornerEntry rows = 0)
    (hrange : ∀ n ∈ rows.flatten, 0 ≤ n ∧ n < 2 ^ 63) (feature : Nat) :
    ∃ t columns, normalize (.nested (.table rows)) feature = .ok (t, 0) ∧
      t.Shows rows columns := by
  have words : OfOneWord rows.flatten := .inl fun n hn => by
    have := hrange n hn
    omega
  obtain ⟨⟨t, offset⟩, h⟩ := exists_normalize_iff.2
    ⟨hrows, words, by rw [hcorner]; decide⟩
  have shown := normalize_shows h
  rw [TableSource.matrix_table, hcorner] at shown
  obtain ⟨rfl, columns, hshows⟩ := shown fun n hn => by simpa using hrange n hn
  refine ⟨t, columns, h, ?_⟩
  simpa [shiftMatrix] using hshows

/-- Moved up without loss, a table is nonnegative if no entry was below the negated corner. -/
theorem ShiftedExactly.nonneg_iff {t : Tensor} {offset : Int} (h : ShiftedExactly rows t offset) :
    (∀ n ∈ t.matrix.flatten, 0 ≤ n) ↔
      ∀ n ∈ rows.flatten, -((cornerEntry rows).natAbs : Int) ≤ n := by
  rw [h.matrix_eq, h.offset_eq, shiftMatrix, ← List.map_flatten]
  simp only [List.forall_mem_map]
  exact forall₂_congr fun n _ => by omega

/-- Nested integers are normalized if they are rows of one length, all of them signed words or all
of them unsigned words past these, and the corner has an offset. The result is the one in words. It
is the exact one precisely if no entry leaves the signed words, and then it is nonnegative precisely
if no entry is below the negated corner. -/
theorem normalize_exactly {v : Value} (hv : v.Integers) (feature : Nat) :
    ((∃ result, normalize (.nested v) feature = .ok result) ↔
      ∃ rows, v = .table rows ∧ Normalizable rows) ∧
    ∀ t offset, normalize (.nested v) feature = .ok (t, offset) →
      ∃ rows, v = .table rows ∧
        offset = (wrap64 (cornerEntry rows)).natAbs ∧
        t.matrix = (rows.map fun row => row.map fun n => wrap64 (n + offset)) ∧
        (ShiftedExactly rows t offset ↔ FitsShifted rows) ∧
        (FitsShifted rows → ((∀ n ∈ t.matrix.flatten, 0 ≤ n) ↔
          ∀ n ∈ rows.flatten, -((cornerEntry rows).natAbs : Int) ≤ n)) := by
  have rows_of_ok : ∀ {result}, normalize (.nested v) feature = .ok result →
      ∃ rows, v = .table rows := fun h => by
    obtain ⟨table, htable, -⟩ := bind_eq_ok h
    exact TableSource.exists_table hv htable
  constructor
  · constructor
    · rintro ⟨result, h⟩
      obtain ⟨rows, rfl⟩ := rows_of_ok h
      exact ⟨rows, rfl, exists_normalize_iff.1 ⟨result, h⟩⟩
    · rintro ⟨rows, rfl, hrows⟩
      exact exists_normalize_iff.2 hrows
  · intro t offset h
    obtain ⟨rows, rfl⟩ := rows_of_ok h
    obtain ⟨hoffset, hmatrix⟩ := normalize_table_eq_ok h
    have exact := shiftedExactly_iff (exists_normalize_iff.1 ⟨_, h⟩) h
    exact ⟨rows, rfl, hoffset, hmatrix, exact, fun fits => (exact.2 fits).nonneg_iff⟩

/-- The corner is the least score, and the greatest one comes to the greatest signed word. -/
theorem normalize_exactly_edge :
    (Value.table [[2 ^ 63 - 5, -4], [-4, 3]]).Integers ∧
      ∃ t, normalize (.nested (.table [[2 ^ 63 - 5, -4], [-4, 3]])) 0 = .ok (t, 4) ∧
        t.matrix = [[2 ^ 63 - 1, 0], [0, 7]] ∧
        ShiftedExactly [[2 ^ 63 - 5, -4], [-4, 3]] t 4 ∧ ∀ n ∈ t.matrix.flatten, 0 ≤ n := by
  have integers := Value.integers_table [[2 ^ 63 - 5, -4], [-4, 3]]
  obtain ⟨accepted, results⟩ := normalize_exactly integers 0
  obtain ⟨⟨t, offset⟩, h⟩ := accepted.2
    ⟨_, rfl, ⟨by decide, 2, by decide, by decide⟩, .inl (by decide), by decide⟩
  obtain ⟨rows, hrows, hoffset, hmatrix, hexact, hnonneg⟩ := results t offset h
  obtain rfl := Value.table_injective hrows
  have fits : FitsShifted [[2 ^ 63 - 5, -4], [-4, 3]] := by
    unfold FitsShifted
    decide
  have four : offset = 4 := hoffset.trans (by decide)
  subst four
  exact ⟨integers, t, h, hmatrix.trans (by decide), hexact.2 fits,
    (hnonneg fits).2 (by decide)⟩

/-- A sum past the signed words wraps around, and so does an unsigned word past them: the greatest
signed word, moved up by one, becomes the least one, and the greatest unsigned word is moved up by
one instead of by itself. -/
theorem normalize_wraps :
    (∃ t, normalize (.nested (.table [[2 ^ 63 - 1, -1]])) 0 = .ok (t, 1) ∧
      t.matrix = [[-2 ^ 63, 0]] ∧ ¬ShiftedExactly [[2 ^ 63 - 1, -1]] t 1) ∧
    ∃ t, normalize (.nested (.table [[2 ^ 64 - 1]])) 0 = .ok (t, 1) ∧
      t.matrix = [[0]] ∧ ¬ShiftedExactly [[2 ^ 64 - 1]] t 1 := by
  have signed : Normalizable [[2 ^ 63 - 1, -1]] :=
    ⟨⟨by decide, 2, by decide, by decide⟩, .inl (by decide), by decide⟩
  have unsigned : Normalizable [[2 ^ 64 - 1]] :=
    ⟨⟨by decide, 1, by decide, by decide⟩, .inr (by decide), by decide⟩
  obtain ⟨t, ht, hmatrix, hexact⟩ := signed.normalize_eq 0 (show _ = 1 by decide)
  obtain ⟨u, hu, hmatrix', hexact'⟩ := unsigned.normalize_eq 0 (show _ = 1 by decide)
  refine ⟨⟨t, ht, hmatrix.trans (by decide), ?_⟩, u, hu, hmatrix'.trans (by decide), ?_⟩
  · rw [hexact, FitsShifted]
    decide
  · rw [hexact', FitsShifted]
    decide

end SealedMatch
