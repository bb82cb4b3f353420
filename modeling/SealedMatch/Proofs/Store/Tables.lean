/-
Module: SealedMatch.Proofs.Store.Tables
Purpose: Score tables that are read hold the integers that their files denote, and all other files
  are refused.
Trusted boundary: none
Main exports: dataRows, readGrid_cases, Tabulates, Tabulates.read_eq, TableFlaw,
  readTables_tabulates_or_refuses
-/
import SealedMatch.Proofs.Decimal.Denotation
import SealedMatch.Proofs.Store.Files
import SealedMatch.Proofs.Table.Matrix

namespace SealedMatch

/-! ### Rows and fields -/

/-- The rows of a text, field by field: its data lines, cut at the commas. -/
def dataRows (text : List Char) : List (List (List Char)) :=
  (dataLines text).map fun line => line.splitOn ','

theorem map_fieldsOf (text : List Char) : (dataLines text).map fieldsOf = dataRows text := rfl

theorem ne_nil_of_mem_dataRows {text : List Char} {fields : List (List Char)}
    (h : fields ∈ dataRows text) : fields ≠ [] := by
  obtain ⟨line, -, rfl⟩ := List.mem_map.mp h
  exact List.splitOn_ne_nil _ _

section Reading

variable {α : Type} (number : NumberKind α)

/-- A field is read as a number. -/
def NumberKind.Reads (field : List Char) (a : α) : Prop := number.read? field = some a

/-- Fields are read one for one, or one of them is no number. -/
theorem readFields_cases (row column : Nat) (fields : List (List Char)) :
    (∃ as, readFields number row column fields = .ok as ∧
        List.Forall₂ number.Reads fields as) ∨
      ∃ fault, readFields number row column fields = .error fault ∧
        ∃ field ∈ fields, number.read? field = none := by
  induction fields generalizing column with
  | nil => exact .inl ⟨[], rfl, .nil⟩
  | cons field rest ih =>
      simp only [readFields]
      cases read : number.read? field with
      | none => exact .inr ⟨_, rfl, field, List.mem_cons_self, read⟩
      | some a =>
          rcases ih (column + 1) with ⟨as, others, each⟩ | ⟨fault, others, bad, member, none⟩
          · exact .inl ⟨a :: as, by rw [others]; rfl, .cons read each⟩
          · exact .inr ⟨fault, by rw [others]; rfl, bad, List.mem_cons_of_mem _ member, none⟩

/-- Rows of one length are read one for one. Otherwise a row has another length, or a field is no
number. -/
theorem readRows_cases (columns row : Nat) (lines : List (List (List Char))) :
    (∃ rows, readRows number columns row lines = .ok rows ∧
        (∀ fields ∈ lines, fields.length = columns) ∧
          List.Forall₂ (List.Forall₂ number.Reads) lines rows) ∨
      ∃ fault, readRows number columns row lines = .error fault ∧
        ∃ fields ∈ lines, fields.length ≠ columns ∨
          ∃ field ∈ fields, number.read? field = none := by
  induction lines generalizing row with
  | nil => exact .inl ⟨[], rfl, by simp, .nil⟩
  | cons fields rest ih =>
      simp only [readRows]
      split
      · next short => exact .inr ⟨_, rfl, fields, List.mem_cons_self, .inl short⟩
      · next whole =>
          rcases readFields_cases number row 1 fields with ⟨here, read, each⟩ | ⟨fault, read, bad⟩
          · rcases ih (row + 1) with ⟨there, others, lengths, rows⟩ | ⟨fault, others, bad⟩
            · refine .inl ⟨here :: there, by rw [read, others]; rfl, ?_, .cons each rows⟩
              exact List.forall_mem_cons.mpr ⟨not_not.mp whole, lengths⟩
            · obtain ⟨fields', member, bad⟩ := bad
              refine .inr ⟨fault, by rw [read, others]; rfl, fields', ?_, bad⟩
              exact List.mem_cons_of_mem _ member
          · exact .inr ⟨fault, by rw [read]; rfl, fields, List.mem_cons_self, .inr bad⟩

/-- A text is read as a grid, row for row and field for field. Otherwise two of its rows differ in
length, or a field is no number. -/
theorem readGrid_cases (text : List Char) :
    (∃ grid, readGrid number text = .ok grid ∧
        (∀ fields ∈ dataRows text, fields.length = grid.columns) ∧
          List.Forall₂ (List.Forall₂ number.Reads) (dataRows text) grid.rows) ∨
      ∃ fault, readGrid number text = .error fault ∧
        ((∃ fields ∈ dataRows text, ∃ others ∈ dataRows text, fields.length ≠ others.length) ∨
          ∃ fields ∈ dataRows text, ∃ field ∈ fields, number.read? field = none) := by
  rw [readGrid, map_fieldsOf]
  cases dataRows text with
  | nil => exact .inl ⟨⟨1, []⟩, rfl, by simp, .nil⟩
  | cons first rest =>
      rcases readRows_cases number first.length 0 (first :: rest) with
        ⟨rows, read, lengths, each⟩ | ⟨fault, read, fields, member, bad⟩
      · exact .inl ⟨⟨first.length, rows⟩, by simp only [read]; rfl, lengths, each⟩
      · refine .inr ⟨fault, by simp only [read]; rfl, ?_⟩
        exact bad.imp (fun length => ⟨fields, member, first, List.mem_cons_self, length⟩)
          fun none => ⟨fields, member, none⟩

end Reading

/-! ### Tables -/

/-- A field denotes an integer that fits a word. -/
def DenotesWord (field : List Char) (v : Int) : Prop := Decimal.Denotes field v ∧ isWord v = true

theorem NumberKind.reads_word {field : List Char} {v : Int} :
    NumberKind.word.Reads field v ↔ DenotesWord field v := by
  rw [Reads, word, Option.filter_eq_some_iff, Decimal.strict_integer?_iff, DenotesWord]

/-- What is read as no word denotes no integer, or one that does not fit. -/
theorem NumberKind.word_read?_eq_none {field : List Char} :
    NumberKind.word.read? field = none ↔ ∀ v, ¬ DenotesWord field v := by
  rw [Option.eq_none_iff_forall_ne_some]
  exact forall_congr' fun v => not_congr reads_word

/-- An array tabulates a text. It has as many rows as the text and as many columns as each row has
fields, and every field denotes the integer that stands in its row and its column. -/
structure Tabulates (text : List Char) (table : Tensor) : Prop where
  shape : ∃ columns, table.shape = [(dataRows text).length, columns] ∧
    (∀ fields ∈ dataRows text, fields.length = columns) ∧ (dataRows text = [] → columns = 1)
  cell : ∀ {i j : Nat} {fields : List (List Char)} {field : List Char},
    (dataRows text)[i]? = some fields → fields[j]? = some field →
      ∃ row v, table.matrix[i]? = some row ∧ row[j]? = some v ∧ DenotesWord field v

/-- The bytes of a file are no table of integers: they are no text, two rows differ in length, or a
field does not denote an integer that fits a word. -/
inductive TableFlaw (content : ByteArray) : Prop where
  | undecodable {defect : Text.Undecodable} (bad : Text.decodeUtf8 content = .error defect)
  | ragged {text : List Char} (decoded : Text.decodeUtf8 content = .ok text)
      {fields others : List (List Char)} (here : fields ∈ dataRows text)
      (there : others ∈ dataRows text) (lengths : fields.length ≠ others.length)
  | noInteger {text : List Char} (decoded : Text.decodeUtf8 content = .ok text)
      {fields : List (List Char)} {field : List Char} (row : fields ∈ dataRows text)
      (member : field ∈ fields) (none : ∀ v, ¬ DenotesWord field v)

theorem Tabulates.not_flaw {text : List Char} {table : Tensor} {content : ByteArray}
    (h : Tabulates text table) (decoded : Text.decodeUtf8 content = .ok text) :
    ¬ TableFlaw content := by
  intro flaw
  cases flaw with
  | undecodable bad => cases bad.symm.trans decoded
  | ragged decoded' here there lengths =>
      cases decoded'.symm.trans decoded
      obtain ⟨columns, -, uniform, -⟩ := h.shape
      exact lengths ((uniform _ here).trans (uniform _ there).symm)
  | noInteger decoded' row member none =>
      cases decoded'.symm.trans decoded
      obtain ⟨i, place⟩ := List.mem_iff_getElem?.mp row
      obtain ⟨j, place'⟩ := List.mem_iff_getElem?.mp member
      obtain ⟨-, v, -, -, denotes⟩ := h.cell place place'
      exact none v denotes

/-- The rows of a grid are the rows of its array. -/
theorem NumberGrid.toTensor_matrix {grid : NumberGrid Int} (path : Path)
    (uniform : ∀ row ∈ grid.rows, row.length = grid.columns)
    (positive : grid.rows ≠ [] → 0 < grid.columns) :
    ∃ table, grid.toTensor path = .ok table ∧
      table.shape = [grid.rows.length, grid.columns] ∧ table.matrix = grid.rows := by
  have size : grid.rows.flatten.toArray.size = volume [grid.rows.length, grid.columns] := by
    rw [List.size_toArray, List.length_flatten, map_length_uniform uniform,
      List.sum_replicate_nat]
    simp [volume]
  refine ⟨⟨_, _, size⟩, by rw [toTensor, Tensor.ofEntries?, dif_pos size], rfl, ?_⟩
  by_cases empty : grid.rows = []
  · simp [Tensor.matrix, empty]
  · exact Tensor.Shows.matrix_eq
      ⟨⟨rfl, List.length_pos_iff.mpr empty, positive empty⟩, uniform, rfl⟩

theorem tabulates_of_reads {text : List Char} {table : Tensor} {columns : Nat}
    (shape : table.shape = [(dataRows text).length, columns])
    (uniform : ∀ fields ∈ dataRows text, fields.length = columns)
    (empty : dataRows text = [] → columns = 1)
    (reads : List.Forall₂ (List.Forall₂ NumberKind.word.Reads) (dataRows text) table.matrix) :
    Tabulates text table := by
  refine ⟨⟨columns, shape, uniform, empty⟩, fun row column => ?_⟩
  obtain ⟨values, row', each⟩ := exists_of_forall₂ reads row
  obtain ⟨v, column', read⟩ := exists_of_forall₂ each column
  exact ⟨values, v, row', column', NumberKind.reads_word.mp read⟩

/-- As far as positions are words, the cells of an array are read there. -/
theorem Tabulates.read_eq {text : List Char} {table : Tensor} (h : Tabulates text table)
    {i j : Nat} {fields : List (List Char)} {field : List Char}
    (row : (dataRows text)[i]? = some fields) (column : fields[j]? = some field)
    (words : isWord i = true ∧ isWord j = true) :
    ∃ v, table.read [(i : Int), (j : Int)] = .ok v ∧ DenotesWord field v := by
  obtain ⟨columns, shape, uniform, -⟩ := h.shape
  obtain ⟨values, v, row', column', denotes⟩ := h.cell row column
  have member := List.mem_of_getElem? row
  obtain ⟨inside, -⟩ := List.getElem?_eq_some_iff.mp row
  obtain ⟨inside', -⟩ := List.getElem?_eq_some_iff.mp column
  have grid : table.Grid (dataRows text).length columns := by
    refine ⟨shape, by omega, ?_⟩
    rw [← uniform fields member]
    omega
  have shows := grid.shows
  have count : table.matrix.length = (dataRows text).length :=
    List.head_eq_of_cons_eq (shows.grid.shape_eq.symm.trans shape)
  refine ⟨v, ?_, denotes⟩
  rw [shows.read_eq (by omega) (by rw [← uniform fields member]; omega) words, matrixEntry]
  simp [List.getD_eq_getElem?_getD, row', column']

/-- The array of a grid tabulates the text that it is read from. -/
theorem exists_toTensor_tabulates {text : List Char} {grid : NumberGrid Int} (path : Path)
    (read : readGrid .word text = .ok grid)
    (uniform : ∀ fields ∈ dataRows text, fields.length = grid.columns)
    (each : List.Forall₂ (List.Forall₂ NumberKind.word.Reads) (dataRows text) grid.rows) :
    ∃ table, grid.toTensor path = .ok table ∧ Tabulates text table := by
  obtain ⟨lengths, empty⟩ := readGrid_shape read
  have count := each.length_eq
  have positive : grid.rows ≠ [] → 0 < grid.columns := by
    intro some
    obtain ⟨fields, member⟩ : ∃ fields, fields ∈ dataRows text := by
      refine List.exists_mem_of_length_pos ?_
      rw [count]
      exact List.length_pos_iff.mpr some
    rw [← uniform fields member]
    exact List.length_pos_iff.mpr (ne_nil_of_mem_dataRows member)
  obtain ⟨table, array, shape, rows⟩ := NumberGrid.toTensor_matrix path lengths positive
  refine ⟨table, array, tabulates_of_reads ?_ uniform ?_ (rows ▸ each)⟩
  · rw [shape, count]
  · intro none
    exact empty (List.forall₂_nil_left_iff.mp (none ▸ each))

/-! ### Reading -/

variable {files : FileTree} {start : String}

/-- The file of a score table is read as it stands. -/
theorem scoreTablePath_plain (start : String) (feature : Nat) :
    PackedFormat.ofName? (scoreTablePath start feature).name = none := by
  obtain ⟨others, piece, parts⟩ := Path.parts_ofText
    (String.toList_append (s := start ++ toString feature) (t := tableExtension))
    (by decide) (by decide)
  rw [Path.name, scoreTablePath, parts, List.getLastD_concat]
  exact PackedFormat.ofName?_table piece

/-- What the refusal of a score table says: it names the file. -/
def tableRefusal (start : String) (feature : Nat) (detail : String) : InputFault :=
  .unreadableTable ClassifierFile.scoreTable.name detail (scoreTablePath start feature).text

/-- A file with a flaw is refused, and any other one is tabulated. -/
theorem readTable_cases {feature : Nat} {content : ByteArray}
    (found : files.read? (scoreTablePath start feature) = .ok (some content)) :
    (¬ TableFlaw content ∧ ∃ text table, Text.decodeUtf8 content = .ok text ∧
        readTable files start feature = .ok table ∧ Tabulates text table) ∨
      TableFlaw content ∧ ∃ detail,
        readTable files start feature = .error (.input (tableRefusal start feature detail)) := by
  rw [readTable, readGridFile_of_content (scoreTablePath_plain start feature) found]
  cases decoded : Text.decodeUtf8 content with
  | error defect => exact .inr ⟨.undecodable decoded, _, rfl⟩
  | ok text =>
      rcases readGrid_cases .word text with ⟨grid, read, uniform, each⟩ | ⟨fault, read, bad⟩
      · obtain ⟨table, array, tabulates⟩ :=
          exists_toTensor_tabulates (scoreTablePath start feature) read uniform each
        refine .inl ⟨tabulates.not_flaw decoded, text, table, rfl, ?_, tabulates⟩
        simp only [read, ok_bind, array]
      · refine .inr ⟨?_, fault.message, by simp only [read]; rfl⟩
        rcases bad with
          ⟨fields, here, others, there, lengths⟩ | ⟨fields, row, field, member, none⟩
        · exact .ragged decoded here there lengths
        · exact .noInteger decoded row member (NumberKind.word_read?_eq_none.mp none)

/-- Tables are read one after the other, up to the first one that is refused. -/
theorem readTablesFrom_cases (files : FileTree) (start : String) (feature count : Nat) :
    (∃ tables, readTablesFrom files start feature count = .ok tables ∧ tables.length = count ∧
        ∀ (i : Nat) (h : i < tables.length), readTable files start (feature + i) = .ok tables[i]) ∨
      ∃ i < count, ∃ f, readTablesFrom files start feature count = .error f ∧
        readTable files start (feature + i) = .error f ∧
          ∀ j < i, ∃ table, readTable files start (feature + j) = .ok table := by
  induction count generalizing feature with
  | zero => exact .inl ⟨[], rfl, rfl, nofun⟩
  | succ count ih =>
      rw [readTablesFrom]
      cases here : readTable files start feature with
      | error f => exact .inr ⟨0, Nat.succ_pos count, f, rfl, here, nofun⟩
      | ok table =>
          rcases ih (feature + 1) with
            ⟨tables, there, rfl, each⟩ | ⟨i, inside, f, there, bad, sound⟩
          · refine .inl ⟨table :: tables, by rw [there]; rfl, rfl, fun i h => ?_⟩
            cases i with
            | zero => exact here
            | succ i =>
                rw [show feature + (i + 1) = feature + 1 + i by omega]
                exact each i (Nat.lt_of_succ_lt_succ h)
          · refine .inr ⟨i + 1, Nat.succ_lt_succ inside, f, by rw [there]; rfl, ?_, fun j hj => ?_⟩
            · rw [show feature + (i + 1) = feature + 1 + i by omega]
              exact bad
            · cases j with
              | zero => exact ⟨table, here⟩
              | succ j =>
                  rw [show feature + (j + 1) = feature + 1 + j by omega]
                  exact sound j (Nat.lt_of_succ_lt_succ hj)

/-- Score tables are read just when every file is a text of rows of equal length whose fields denote
integers that fit words, and then each cell holds the integer that its field denotes. The first file
with a flaw is refused as a malformed input, and nothing is read. -/
theorem readTables_tabulates_or_refuses {count : Nat} {content : Nat → ByteArray}
    (found : ∀ i < count, files.read? (scoreTablePath start i) = .ok (some (content i))) :
    ((∀ i < count, ¬ TableFlaw (content i)) ∧
        ∃ tables, readTables files start count = .ok tables ∧ tables.length = count ∧
          ∀ (i : Nat) (h : i < tables.length), ∃ text,
            Text.decodeUtf8 (content i) = .ok text ∧ Tabulates text tables[i]) ∨
      ∃ i < count, TableFlaw (content i) ∧ (∀ j < i, ¬ TableFlaw (content j)) ∧
        ∃ detail, readTables files start count = .error (.input (tableRefusal start i detail)) ∧
          (tableRefusal start i detail).report.kind = .malformedInput := by
  -- a table that is read has no flaw, and one that is not has one
  have sound : ∀ {i table}, i < count → readTable files start i = .ok table →
      ¬ TableFlaw (content i) ∧ ∃ text, Text.decodeUtf8 (content i) = .ok text ∧
        Tabulates text table := by
    intro i table inside read
    rcases readTable_cases (found i inside) with
      ⟨clean, text, table', decoded, read', tabulates⟩ | ⟨-, detail, read'⟩
    · cases read.symm.trans read'
      exact ⟨clean, text, decoded, tabulates⟩
    · cases read.symm.trans read'
  rcases readTablesFrom_cases files start 0 count with
    ⟨tables, all, rfl, each⟩ | ⟨i, inside, f, all, bad, before⟩
  · simp only [Nat.zero_add] at each
    refine .inl ⟨fun i inside => (sound inside (each i inside)).1, tables, all, rfl, ?_⟩
    exact fun i inside => (sound inside (each i inside)).2
  · rw [Nat.zero_add] at bad
    simp only [Nat.zero_add] at before
    rcases readTable_cases (found i inside) with
      ⟨-, _, _, -, read, -⟩ | ⟨flaw, detail, read⟩
    · cases bad.symm.trans read
    · cases bad.symm.trans read
      refine .inr ⟨i, inside, flaw, fun j earlier => ?_, detail, all, rfl⟩
      obtain ⟨table, read⟩ := before j earlier
      exact (sound (earlier.trans inside) read).1

/-- A table of integers, and one with a fraction in it. -/
def sampleTableContent (feature : Nat) : ByteArray :=
  if feature = 0 then "1,-2\n+3, 04\n".toUTF8 else "1,1.7\n".toUTF8

def sampleTableFiles : FileTree where
  workingDirectory := []
  entries :=
    [(["T0.csv"], .file (sampleTableContent 0) false),
      (["T1.csv"], .file (sampleTableContent 1) false)]

theorem sampleTableFiles_found : ∀ i < 2,
    sampleTableFiles.read? (scoreTablePath "T" i) = .ok (some (sampleTableContent i)) := by
  intro i inside
  match i, inside with
  | 0, _ =>
      have path : scoreTablePath "T" 0 = ⟨"", ["T0.csv"]⟩ := by decide +kernel
      rw [path, FileTree.read?, FileTree.locate_eq _ (by decide +kernel) (by decide +kernel)]
      rfl
  | 1, _ =>
      have path : scoreTablePath "T" 1 = ⟨"", ["T1.csv"]⟩ := by decide +kernel
      rw [path, FileTree.read?, FileTree.locate_eq _ (by decide +kernel) (by decide +kernel)]
      rfl

/-- The table with the fraction is refused, the one before it is not. -/
theorem readTables_tabulates_or_refuses_sample :
    (∀ i < 2, sampleTableFiles.read? (scoreTablePath "T" i) = .ok (some (sampleTableContent i))) ∧
      ∃ detail,
        readTables sampleTableFiles "T" 2 = .error (.input (tableRefusal "T" 1 detail)) := by
  have clean : ¬ TableFlaw (sampleTableContent 0) := by
    have decoded : Text.decodeUtf8 (sampleTableContent 0) = .ok "1,-2\n+3, 04\n".toList := by
      decide +kernel
    have integers : (readGrid .word "1,-2\n+3, 04\n".toList).isOk = true := by decide +kernel
    rcases readGrid_cases .word "1,-2\n+3, 04\n".toList with
      ⟨grid, read, uniform, each⟩ | ⟨fault, read, -⟩
    · obtain ⟨table, -, tabulates⟩ := exists_toTensor_tabulates (.ofText "") read uniform each
      exact tabulates.not_flaw decoded
    · rw [read] at integers
      cases integers
  have fraction : TableFlaw (sampleTableContent 1) := by
    have decoded : Text.decodeUtf8 (sampleTableContent 1) = .ok "1,1.7\n".toList := by
      decide +kernel
    have row : ["1".toList, "1.7".toList] ∈ dataRows "1,1.7\n".toList := by decide +kernel
    have member : "1.7".toList ∈ ["1".toList, "1.7".toList] := by decide
    exact .noInteger decoded row member (NumberKind.word_read?_eq_none.mp (by decide))
  refine ⟨sampleTableFiles_found, ?_⟩
  rcases readTables_tabulates_or_refuses sampleTableFiles_found with
    ⟨sound, -⟩ | ⟨i, inside, flaw, -, detail, refused, -⟩
  · exact absurd fraction (sound 1 (by decide))
  · obtain rfl | rfl : i = 0 ∨ i = 1 := by omega
    · exact absurd flaw clean
    · exact ⟨detail, refused⟩

end SealedMatch
