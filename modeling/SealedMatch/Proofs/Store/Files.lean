/-
Module: SealedMatch.Proofs.Store.Files
Purpose: How reading a classifier file ends, for every content that the file may have.
Trusted boundary: none
Main exports: PackedFormat.ofName?_table, Failure.IsMalformed, InputOnly, readBins_fault_iff,
  HoldsGrid, readMeasurements_of_grid, readMeasurements_fault_iff
-/
import Mathlib.Data.List.TakeDrop
import SealedMatch.Proofs.Outcome
import SealedMatch.Store.Bins
import SealedMatch.Store.Classifier

namespace SealedMatch

/-! ### Names of tables

Files are unpacked by the ends of their names. A path is written out and read again before a
dataset is read, and neither changes how it ends.
-/

namespace Text

/-- What holds no separator is added to the last piece. -/
theorem splitOn_append {separator : Char} (cs : List Char) {ending : List Char}
    (h : separator ∉ ending) :
    ∃ pieces piece, (cs ++ ending).splitOn separator = pieces ++ [piece ++ ending] := by
  induction cs with
  | nil => exact ⟨[], [], List.splitOn_eq_singleton h⟩
  | cons c cs ih =>
      obtain ⟨pieces, piece, rest⟩ := ih
      rw [List.cons_append, List.splitOn_cons_eq_if_modifyHead, rest]
      split
      · exact ⟨[] :: pieces, piece, rfl⟩
      · cases pieces with
        | nil => exact ⟨[], c :: piece, rfl⟩
        | cons first others => exact ⟨(c :: first) :: others, piece, rfl⟩

end Text

namespace Path

/-- The path in a text has a last part that ends as the text does. -/
theorem parts_ofText {s : String} {front ending : List Char} (h : s.toList = front ++ ending)
    (plain : '/' ∉ ending) (long : 2 ≤ ending.length) :
    ∃ others piece, (ofText s).parts = others ++ [String.ofList (piece ++ ending)] := by
  obtain ⟨pieces, piece, split⟩ := Text.splitOn_append front plain
  refine ⟨(pieces.map String.ofList).filter fun part => part != "" && part != ".", piece, ?_⟩
  -- neither an empty part nor a single dot is as long as the ending
  have kept : String.ofList (piece ++ ending) ≠ "" ∧ String.ofList (piece ++ ending) ≠ "." := by
    have wide : 2 ≤ (String.ofList (piece ++ ending)).length := by
      rw [String.length_ofList, List.length_append]
      omega
    constructor <;> intro same <;> rw [same] at wide <;> exact absurd wide (by decide)
  simp only [ofText, h, split, List.map_append, List.map_cons, List.map_nil, List.filter_append]
  congr 1
  simp only [List.filter_cons, bne_iff_ne, ne_eq, kept, not_false_eq_true,
    Bool.and_eq_true, and_self, if_true, List.filter_nil]

/-- A path with a last part is written as a text that ends as that part does. -/
theorem text_of_parts {p : Path} {others : List String} {last : String}
    (h : p.parts = others ++ [last]) : ∃ front, p.text.toList = front ++ last.toList := by
  cases others with
  | nil => exact ⟨p.root.toList, by simp [text, h]⟩
  | cons other others =>
      have spelled : p.text = p.root ++ ("/".intercalate (other :: others) ++ "/" ++ last) := by
        rw [text, h, String.intercalate_append_of_ne_nil (by simp) (by simp)]
        simp
      exact ⟨_, by rw [spelled, ← String.append_assoc, String.toList_append]⟩

/-- Below a path there is a last part that ends as the text of the name does. -/
theorem parts_child (p : Path) {s : String} {front ending : List Char}
    (h : s.toList = front ++ ending) (plain : '/' ∉ ending) (long : 2 ≤ ending.length) :
    ∃ others piece, (p.child s).parts = others ++ [String.ofList (piece ++ ending)] := by
  obtain ⟨others, piece, parts⟩ := parts_ofText h plain long
  rw [child, join]
  split
  · exact ⟨others, piece, parts⟩
  · exact ⟨p.parts ++ others, piece, by rw [parts, List.append_assoc]⟩

end Path

/-- A name that ends as tables do is the name of no packed file. -/
theorem PackedFormat.ofName?_table (front : List Char) :
    ofName? (String.ofList (front ++ tableExtension.toList)) = none := by
  have ending : endingOf (String.ofList (front ++ tableExtension.toList)) = "" ∨
      endingOf (String.ofList (front ++ tableExtension.toList)) = ".csv" := by
    simp only [endingOf, String.toList_ofList, List.dropWhile_append]
    split
    -- nothing but dots in front of the ending: they are dropped, the dot of the ending with them
    · exact .inl (by decide)
    · right
      rw [if_neg]
      · simp [tableExtension]
      · simp [tableExtension]
  rw [ofName?]
  rcases ending with ending | ending <;> rw [ending] <;> rfl

/-! ### Ends of a reading -/

/-- The failure is told as a malformed input. -/
def Failure.IsMalformed (f : Failure) : Prop :=
  ∃ report, f.report? = some report ∧ .malformedInput ∈ report.kind.ancestry

theorem InputFault.report_kind (cause : InputFault) :
    cause.report.kind = .malformedInput ∨ cause.report.kind = .tableNotFound := by
  cases cause with
  | missingFile => exact .inr rfl
  | _ => exact .inl rfl

theorem Failure.isMalformed_input (cause : InputFault) : (Failure.input cause).IsMalformed := by
  refine ⟨cause.report, rfl, ?_⟩
  rcases cause.report_kind with kind | kind <;> simp [kind, FailureKind.ancestry]

/-- Malformed inputs and faults outside the coded families are all that ends it. -/
def InputOnly {α : Type} (x : Except Failure α) : Prop :=
  FailsOnly (fun f => f.IsMalformed ∨ ∃ fault, f = .fault fault) x

namespace InputOnly

variable {α β : Type}

theorem ok (a : α) : InputOnly (.ok a) := FailsOnly.ok a

theorem input (cause : InputFault) : InputOnly (.error (.input cause) : Except Failure α) := by
  rintro f ⟨⟩
  exact .inl (Failure.isMalformed_input cause)

theorem fault (fault : Fault) : InputOnly (.error (.fault fault) : Except Failure α) := by
  rintro f ⟨⟩
  exact .inr ⟨fault, rfl⟩

theorem bind {x : Except Failure α} {f : α → Except Failure β} (hx : InputOnly x)
    (hf : ∀ a, x = .ok a → InputOnly (f a)) : InputOnly (x >>= f) :=
  FailsOnly.bind hx hf

theorem mapM {f : α → Except Failure β} (h : ∀ a, InputOnly (f a)) (xs : List α) :
    InputOnly (xs.mapM f) :=
  FailsOnly.mapM h xs

end InputOnly

variable {files : FileTree} {path : Path}

/-! ### The content of a file -/

/-- A path that an operating system takes is walked part by part. -/
theorem FileTree.locate_eq (t : FileTree) (zero : Char.ofNat 0 ∉ path.text.toList)
    (short : path.text.utf8ByteSize ≤ longestPath) :
    t.locate path =
      path.parts.foldlM (t.enter path) (if path.isAbsolute then [] else t.workingDirectory) := by
  rw [locate, String.contains_char_eq, decide_eq_false zero, if_neg Bool.false_ne_true,
    if_neg (by omega)]

/-- Only names that are too long keep a file from being looked for. -/
theorem FileTree.read?_fault {fault : Fault} (h : files.read? path = .error fault) :
    ∃ named, fault = .nameTooLong named := by
  rw [FileTree.read?] at h
  split at h
  · next named _ =>
      cases h
      exact ⟨named, rfl⟩
  · cases h
  · split at h <;> cases h

section Content

variable {kind : ClassifierFile}

theorem contentOf_ok_iff {content : ByteArray} :
    contentOf files path kind = .ok content ↔ files.read? path = .ok (some content) := by
  rw [contentOf]
  split <;> simp_all

theorem contentOf_fault_iff {fault : Fault} :
    contentOf files path kind = .error (.fault fault) ↔ files.read? path = .error fault := by
  rw [contentOf]
  split <;> simp_all

theorem contentOf_inputOnly : InputOnly (contentOf files path kind) := by
  rw [contentOf]
  split
  · exact .ok _
  · exact .input _
  · exact .fault _

end Content

/-! ### Bins -/

theorem readTokens_error {tokens : List (List Char)} {f : Failure}
    (h : readTokens path tokens = .error f) : ∃ cause, f = .input cause := by
  induction tokens with
  | nil => cases h
  | cons token rest ih =>
      simp only [readTokens] at h
      split at h
      · exact ih h
      · split at h
        · cases h
          exact ⟨_, rfl⟩
        · rcases bind_eq_error_iff.mp h with h | ⟨xs, -, h⟩
          · exact ih h
          · cases h

theorem readBins_inputOnly : InputOnly (readBins files path) := by
  refine contentOf_inputOnly.bind fun content _ => ?_
  split
  · exact .fault _
  · intro f hf
    obtain ⟨cause, rfl⟩ := readTokens_error hf
    exact .inl (Failure.isMalformed_input cause)

/-- Bins whose bytes are no text are refused by the decoder itself. -/
theorem readBins_fault_iff {fault : Fault} :
    readBins files path = .error (.fault fault) ↔
      files.read? path = .error fault ∨
        ∃ content defect, files.read? path = .ok (some content) ∧
          Text.decodeUtf8 content = .error defect ∧ fault = .undecodable defect := by
  rw [readBins, bind_eq_error_iff, contentOf_fault_iff]
  refine or_congr_right ⟨?_, ?_⟩
  · rintro ⟨content, found, h⟩
    split at h
    · next defect bad =>
        cases h
        exact ⟨content, defect, contentOf_ok_iff.mp found, bad, rfl⟩
    · obtain ⟨cause, h⟩ := readTokens_error h
      cases h
  · rintro ⟨content, defect, found, bad, rfl⟩
    exact ⟨content, contentOf_ok_iff.mpr found, by rw [bad]; rfl⟩

/-! ### Grids -/

section Grid

variable {α : Type} {number : NumberKind α} {kind : ClassifierFile} {grid : NumberGrid α}

theorem readFields_length {row column : Nat} {fields : List (List Char)} {as : List α}
    (h : readFields number row column fields = .ok as) : as.length = fields.length := by
  induction fields generalizing column as with
  | nil =>
      cases h
      rfl
  | cons field rest ih =>
      simp only [readFields] at h
      split at h
      · cases h
      · obtain ⟨others, hothers, h⟩ := bind_eq_ok h
        cases h
        simp [ih hothers]

theorem readRows_length {columns row : Nat} {lines : List (List (List Char))}
    {rows : List (List α)} (h : readRows number columns row lines = .ok rows) :
    rows.length = lines.length ∧ ∀ as ∈ rows, as.length = columns := by
  induction lines generalizing row rows with
  | nil =>
      cases h
      simp
  | cons fields rest ih =>
      simp only [readRows] at h
      split at h
      · cases h
      · next same =>
          obtain ⟨here, hhere, h⟩ := bind_eq_ok h
          obtain ⟨there, hthere, h⟩ := bind_eq_ok h
          cases h
          obtain ⟨count, lengths⟩ := ih hthere
          have first : here.length = columns := (readFields_length hhere).trans (not_not.mp same)
          exact ⟨by simp [count], by simpa [first] using lengths⟩

/-- A grid is rectangular, and only one without rows has fewer columns than it shows. -/
theorem readGrid_shape {text : List Char} (h : readGrid number text = .ok grid) :
    (∀ row ∈ grid.rows, row.length = grid.columns) ∧ (grid.rows = [] → grid.columns = 1) := by
  rw [readGrid] at h
  split at h
  · cases h
    simp
  · obtain ⟨rows, hrows, h⟩ := bind_eq_ok h
    cases h
    obtain ⟨count, lengths⟩ := readRows_length hrows
    refine ⟨lengths, fun none => ?_⟩
    rw [show rows = [] from none] at count
    cases count

/-- The file is a text that holds a grid of numbers. -/
def HoldsGrid (number : NumberKind α) (files : FileTree) (path : Path) (grid : NumberGrid α) :
    Prop :=
  ∃ content text, files.read? path = .ok (some content) ∧ Text.decodeUtf8 content = .ok text ∧
    readGrid number text = .ok grid

theorem HoldsGrid.shape (h : HoldsGrid number files path grid) :
    (∀ row ∈ grid.rows, row.length = grid.columns) ∧ (grid.rows = [] → grid.columns = 1) := by
  obtain ⟨content, text, -, -, read⟩ := h
  exact readGrid_shape read

theorem readGridFile_inputOnly : InputOnly (readGridFile number files path kind) := by
  refine contentOf_inputOnly.bind fun content _ => .bind ?_ fun bytes _ => ?_
  · cases unpacked path.name content with
    | ok bytes => exact .ok bytes
    | error defect => exact .fault _
  · split
    · exact .input _
    · split
      · exact .input _
      · exact .ok _

section Unpacked

variable (plain : PackedFormat.ofName? path.name = none)

include plain

theorem readGridFile_of_content {content : ByteArray}
    (found : files.read? path = .ok (some content)) :
    readGridFile number files path kind =
      match Text.decodeUtf8 content with
      | .error defect =>
        .error (.input (.unreadableTable kind.name (pieceDefect defect).message path.text))
      | .ok text =>
        match readGrid number text with
        | .error fault => .error (.input (.unreadableTable kind.name fault.message path.text))
        | .ok grid => .ok grid := by
  rw [readGridFile, contentOf_ok_iff.mpr found, ok_bind, unpacked, plain]
  rfl

theorem readGridFile_ok_iff :
    readGridFile number files path kind = .ok grid ↔ HoldsGrid number files path grid := by
  constructor
  · intro h
    obtain ⟨content, found, -⟩ := bind_eq_ok h
    have found := contentOf_ok_iff.mp found
    rw [readGridFile_of_content plain found] at h
    split at h
    · cases h
    · next text decoded =>
        split at h
        · cases h
        · next read =>
            cases h
            exact ⟨content, text, found, decoded, read⟩
  · rintro ⟨content, text, found, decoded, read⟩
    rw [readGridFile_of_content plain found, decoded]
    simp only [read]

theorem readGridFile_fault_iff {fault : Fault} :
    readGridFile number files path kind = .error (.fault fault) ↔
      files.read? path = .error fault := by
  constructor
  · intro h
    rcases bind_eq_error_iff.mp h with h' | ⟨content, found, -⟩
    · exact contentOf_fault_iff.mp h'
    · rw [readGridFile_of_content plain (contentOf_ok_iff.mp found)] at h
      split at h
      · cases h
      · split at h <;> cases h
  · intro unreached
    exact bind_eq_error_iff.mpr (.inl (contentOf_fault_iff.mpr unreached))

end Unpacked

end Grid

/-! ### Samples -/

/-- What comes of a label that stands for no integer. -/
def labelFault? (label : Float) : Option Fault :=
  match Decimal.truncated label with
  | .ok _ => none
  | .error .nan => some .nanToInteger
  | .error .infinity => some .infinityToInteger

/-- What comes of the first row whose label stands for no integer. -/
def firstLabelFault? (rows : List (List Float)) : Option Fault :=
  rows.findSome? fun row => row.head?.bind labelFault?

theorem firstLabelFault?_cons (label : Float) (features : List Float) (rows : List (List Float)) :
    firstLabelFault? ((label :: features) :: rows) =
      (labelFault? label).or (firstLabelFault? rows) := by
  cases h : labelFault? label <;> simp [firstLabelFault?, h]

theorem Measurement.ofRow_cons (label : Float) (features : List Float) :
    (∃ fault, labelFault? label = some fault ∧
        Measurement.ofRow (label :: features) = .error (.fault fault)) ∨
      labelFault? label = none ∧
        ∃ id, Measurement.ofRow (label :: features) = .ok ⟨id, features⟩ := by
  rcases h : Decimal.truncated label with (_ | _) | id
  · exact .inl ⟨.nanToInteger, by simp [labelFault?, h], by simp [Measurement.ofRow, h]⟩
  · exact .inl ⟨.infinityToInteger, by simp [labelFault?, h], by simp [Measurement.ofRow, h]⟩
  · exact .inr ⟨by simp [labelFault?, h], id, by simp [Measurement.ofRow, h]⟩

/-- The rows are samples unless a label stands for no integer; the first such label decides. -/
theorem mapM_ofRow {columns : Nat} {rows : List (List Float)} (labelled : 0 < columns)
    (h : ∀ row ∈ rows, row.length = columns) :
    (∃ fault, firstLabelFault? rows = some fault ∧
        rows.mapM Measurement.ofRow = .error (.fault fault)) ∨
      firstLabelFault? rows = none ∧
        ∃ dataset, rows.mapM Measurement.ofRow = .ok dataset ∧ dataset.length = rows.length ∧
          ∀ sample ∈ dataset, sample.features.length + 1 = columns := by
  induction rows with
  | nil => exact .inr ⟨rfl, [], rfl, rfl, by simp⟩
  | cons row rows ih =>
      obtain ⟨width, rest⟩ := List.forall_mem_cons.mp h
      obtain ⟨label, values, rfl⟩ := List.exists_cons_of_length_pos (width ▸ labelled)
      rw [List.mapM_cons, firstLabelFault?_cons]
      rcases Measurement.ofRow_cons label values with ⟨fault, bad, here⟩ | ⟨finite, id, here⟩
      · exact .inl ⟨fault, by simp [bad], by rw [here]; rfl⟩
      · rcases ih rest with ⟨fault, bad, there⟩ | ⟨finite', dataset, there, count, lengths⟩
        · exact .inl ⟨fault, by simp [finite, bad], by rw [here, there]; rfl⟩
        · refine .inr ⟨by simp [finite, finite'], ⟨id, values⟩ :: dataset, ?_, ?_, ?_⟩
          · rw [here, there]
            rfl
          · simp [count]
          · exact List.forall_mem_cons.mpr ⟨width, lengths⟩

theorem Measurement.ofRow_inputOnly (row : List Float) : InputOnly (Measurement.ofRow row) := by
  rw [Measurement.ofRow.eq_def]
  split
  · exact .fault _
  · split
    · exact .ok _
    · exact .fault _
    · exact .fault _

theorem readMeasurements_inputOnly {path : String} : InputOnly (readMeasurements files path) := by
  refine readGridFile_inputOnly.bind fun grid _ => ?_
  split
  · exact .input _
  · exact .mapM Measurement.ofRow_inputOnly _

section Dataset

variable {path : String} {grid : NumberGrid Float}
  (plain : PackedFormat.ofName? (Path.ofText path).name = none)

include plain

/-- A grid with features is a dataset unless a label stands for no integer. -/
theorem readMeasurements_of_grid (holds : HoldsGrid .real files (Path.ofText path) grid)
    (wide : 2 ≤ grid.columns) :
    (∃ fault, firstLabelFault? grid.rows = some fault ∧
        readMeasurements files path = .error (.fault fault)) ∨
      firstLabelFault? grid.rows = none ∧
        ∃ dataset, readMeasurements files path = .ok dataset ∧ dataset ≠ [] ∧
          ∀ sample ∈ dataset, sample.features.length + 1 = grid.columns := by
  have read : readMeasurements files path = grid.rows.mapM Measurement.ofRow := by
    rw [readMeasurements, (readGridFile_ok_iff plain).mpr holds, ok_bind, if_neg (by omega)]
  rw [read]
  refine (mapM_ofRow (by omega) holds.shape.1).imp_right ?_
  rintro ⟨finite, dataset, samples, count, lengths⟩
  refine ⟨finite, dataset, samples, ?_, lengths⟩
  rintro rfl
  have single := holds.shape.2 (List.length_eq_zero_iff.mp count.symm)
  omega

/-- A grid without features is refused as a malformed input. -/
theorem holdsGrid_of_read
    (read : readGridFile .real files (Path.ofText path) .dataset = .ok grid)
    (uncoded : ∀ cause, readMeasurements files path ≠ .error (.input cause)) :
    HoldsGrid .real files (Path.ofText path) grid ∧ 2 ≤ grid.columns := by
  refine ⟨(readGridFile_ok_iff plain).mp read, ?_⟩
  by_contra narrow
  refine uncoded (.noFeatureColumn path) ?_
  rw [readMeasurements, read, ok_bind, if_pos (by omega)]
  rfl

/-- A dataset is refused by its labels, or not reached at all. -/
theorem readMeasurements_fault_iff {fault : Fault} :
    readMeasurements files path = .error (.fault fault) ↔
      files.read? (Path.ofText path) = .error fault ∨
        ∃ grid, HoldsGrid .real files (Path.ofText path) grid ∧ 2 ≤ grid.columns ∧
          firstLabelFault? grid.rows = some fault := by
  constructor
  · intro h
    rcases bind_eq_error_iff.mp h with unreached | ⟨grid, read, -⟩
    · exact .inl ((readGridFile_fault_iff plain).mp unreached)
    · obtain ⟨holds, wide⟩ := holdsGrid_of_read plain read (by simp [h])
      rcases readMeasurements_of_grid plain holds wide with ⟨_, bad, there⟩ | ⟨-, _, there, -⟩
      · cases there.symm.trans h
        exact .inr ⟨grid, holds, wide, bad⟩
      · cases there.symm.trans h
  · rintro (unreached | ⟨grid, holds, wide, bad⟩)
    · exact bind_eq_error_iff.mpr (.inl ((readGridFile_fault_iff plain).mpr unreached))
    · rcases readMeasurements_of_grid plain holds wide with ⟨_, bad', there⟩ | ⟨finite, -⟩
      · cases bad'.symm.trans bad
        exact there
      · cases finite.symm.trans bad

theorem readMeasurements_ok {dataset : List Measurement}
    (h : readMeasurements files path = .ok dataset) :
    ∃ grid, HoldsGrid .real files (Path.ofText path) grid ∧ 2 ≤ grid.columns ∧
      firstLabelFault? grid.rows = none ∧ dataset ≠ [] ∧
        ∀ sample ∈ dataset, sample.features.length + 1 = grid.columns := by
  obtain ⟨grid, read, -⟩ := bind_eq_ok h
  obtain ⟨holds, wide⟩ := holdsGrid_of_read plain read (by simp [h])
  rcases readMeasurements_of_grid plain holds wide with ⟨_, -, there⟩ | ⟨finite, _, there, most⟩
  · cases there.symm.trans h
  · cases there.symm.trans h
    exact ⟨grid, holds, wide, finite, most⟩

end Dataset

/-- A dataset with samples has one on every line from the first on. -/
theorem measurementAt_ok {dataset : List Measurement} (h : dataset ≠ []) {line : Int}
    (first : 1 ≤ line) (path : String) :
    ∃ sample ∈ dataset, measurementAt dataset line path = .ok sample := by
  have positive : (0 : Int) < dataset.length := by
    exact_mod_cast List.length_pos_iff.mpr h
  have inside : ((line - 1) % dataset.length).toNat < dataset.length := by
    have := Int.emod_nonneg (line - 1) (Int.ne_of_gt positive)
    have := Int.emod_lt_of_pos (line - 1) positive
    omega
  refine ⟨_, List.getElem_mem inside, ?_⟩
  rw [measurementAt, if_neg (by omega), if_neg (by simpa using h), List.getElem?_eq_getElem inside]

theorem measurementAt_before {dataset : List Measurement} {line : Int} (before : line < 1)
    (path : String) :
    measurementAt dataset line path = .error (.input (.sampleBeforeFirst line path)) := by
  rw [measurementAt, if_pos before]

theorem measurementAt_ne_fault {dataset : List Measurement} (h : dataset ≠ []) (line : Int)
    (path : String) (fault : Fault) : measurementAt dataset line path ≠ .error (.fault fault) := by
  by_cases first : 1 ≤ line
  · obtain ⟨sample, -, found⟩ := measurementAt_ok h first path
    simp [found]
  · simp [measurementAt_before (show line < 1 by omega)]

theorem measurementAt_inputOnly (dataset : List Measurement) (line : Int) (path : String) :
    InputOnly (measurementAt dataset line path) := by
  rw [measurementAt]
  split
  · exact .input _
  · split
    · exact .fault _
    · split
      · exact .ok _
      · exact .fault _

theorem length_of_quantizeAll {vector boundaries : List Float} {codes : List UInt8}
    (h : quantizeAll vector boundaries = .ok codes) : codes.length = vector.length := by
  rw [quantizeAll] at h
  split at h <;> cases h
  simp

theorem quantizeAll_error {vector boundaries : List Float} {f : Failure}
    (h : quantizeAll vector boundaries = .error f) : ∃ cause, f = .input cause := by
  rw [quantizeAll] at h
  split at h <;> cases h
  exact ⟨_, rfl⟩

end SealedMatch
