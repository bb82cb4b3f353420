/-
Module: SealedMatch.Store.Classifier
Purpose: The files of a trained classifier: bins, score tables and samples.
Trusted boundary: none
Main exports: ClassifierFile, readBins, readTables, Measurement, readMeasurements, measurementAt
-/
import SealedMatch.Packed.Format
import SealedMatch.Store.FileTree
import SealedMatch.Store.NumberGrid

namespace SealedMatch

/-- The kinds of classifier files. -/
inductive ClassifierFile where
  | bins
  | scoreTable
  | dataset
deriving DecidableEq

def ClassifierFile.name : ClassifierFile → String
  | bins => "qbins"
  | scoreTable => "score_table"
  | dataset => "dataset"

/-- The ending of all classifier files. -/
def tableExtension : String := ".csv"

/-- The content of a file, which must exist. -/
def contentOf (files : FileTree) (path : Path) (kind : ClassifierFile) :
    Except Failure ByteArray :=
  match files.read? path with
  | .ok (some content) => .ok content
  | .ok none => .error (.input (.missingFile path.text kind.name))
  | .error fault => .error (.fault fault)

/-- Read a list of tokens as reals; blank ones are skipped. -/
def readTokens (path : Path) : List (List Char) → Except Failure (List Float)
  | [] => .ok []
  | token :: rest =>
    let token := Text.trim token
    if token.isEmpty then readTokens path rest
    else
      match Decimal.liberal.real? token with
      | none => .error (.input (.unreadableBin (String.ofList token) path.text))
      | some x => do
        let xs ← readTokens path rest
        pure (x :: xs)

/-- Read the boundaries of the quantization bins, separated by commas. -/
def readBins (files : FileTree) (path : Path) : Except Failure (List Float) := do
  let content ← contentOf files path .bins
  match Text.decodeUtf8 content with
  | .error defect => throw (.fault (.undecodable defect))
  | .ok text => readTokens path ((Text.unifyLineEnds text).splitOn ',')

/-- Grids are read piece by piece. An unfinished character at the end of a file is a piece of its
own, and its place is counted from there. -/
def pieceDefect (u : Text.Undecodable) : Text.Undecodable :=
  if u.defect = .unexpectedEnd then { u with position := 0 } else u

/-- Read a grid of numbers from a file, which may be packed. -/
def readGridFile {α : Type} (number : NumberKind α) (files : FileTree) (path : Path)
    (kind : ClassifierFile) : Except Failure (NumberGrid α) := do
  let bytes ← contentOf files path kind
  let content ← (unpacked path.name bytes).mapError fun defect => .fault (.packed defect)
  let refuse (detail : String) : Failure :=
    .input (.unreadableTable kind.name detail path.text)
  match Text.decodeUtf8 content with
  | .error defect => throw (refuse (pieceDefect defect).message)
  | .ok text =>
    match readGrid number text with
    | .error fault => throw (refuse fault.message)
    | .ok grid => pure grid

/-- The array of a grid. -/
def NumberGrid.toTensor (grid : NumberGrid Int) (path : Path) : Except Failure Tensor :=
  match Tensor.ofEntries? [grid.rows.length, grid.columns] grid.rows.flatten.toArray with
  | some t => .ok t
  | none => .error (.input (.unreadableTable ClassifierFile.scoreTable.name "" path.text))

/-- The file of the score table of a feature, the begin of its name given. -/
def scoreTablePath (start : String) (feature : Nat) : Path :=
  .ofText (start ++ toString feature ++ tableExtension)

/-- Read the score table of a feature. -/
def readTable (files : FileTree) (start : String) (feature : Nat) : Except Failure Tensor := do
  let path := scoreTablePath start feature
  let grid ← readGridFile .word files path .scoreTable
  grid.toTensor path

/-- Read the score tables of the features from one on; their names begin with `start`. The first
table that cannot be read ends it. -/
def readTablesFrom (files : FileTree) (start : String) (feature : Nat) :
    Nat → Except Failure (List Tensor)
  | 0 => .ok []
  | count + 1 => do
    let table ← readTable files start feature
    let tables ← readTablesFrom files start (feature + 1) count
    pure (table :: tables)

/-- Read the score tables of `count` features, whose names begin with `start`. -/
def readTables (files : FileTree) (start : String) (count : Nat) :
    Except Failure (List Tensor) :=
  readTablesFrom files start 0 count

/-- A labelled measurement of all features. -/
structure Measurement where
  id : Int
  features : List Float

/-- The sample of a row: its label first, the fraction of the label dropped. -/
def Measurement.ofRow : List Float → Except Failure Measurement
  | [] => .error (.fault .listIndexOutOfRange)
  | label :: features =>
    match Decimal.truncated label with
    | .ok id => .ok ⟨id, features⟩
    | .error .nan => .error (.fault .nanToInteger)
    | .error .infinity => .error (.fault .infinityToInteger)

/-- Read a dataset: one sample a row, with one feature at least. -/
def readMeasurements (files : FileTree) (path : String) : Except Failure (List Measurement) := do
  let grid ← readGridFile .real files (Path.ofText path) .dataset
  if grid.columns < 2 then throw (.input (.noFeatureColumn path))
  grid.rows.mapM Measurement.ofRow

/-- The sample on a line, counted from one. Behind the last line the dataset begins again. -/
def measurementAt (dataset : List Measurement) (line : Int) (path : String) :
    Except Failure Measurement :=
  if line < 1 then .error (.input (.sampleBeforeFirst line path))
  else if dataset.isEmpty then .error (.fault .moduloByZero)
  else
    match dataset[((line - 1) % dataset.length).toNat]? with
    | some sample => .ok sample
    | none => .error (.fault .listIndexOutOfRange)

end SealedMatch
