/-
Module: SealedMatch.Store.NumberGrid
Purpose: Rows of numbers in comma-separated text.
Trusted boundary: none
Main exports: dataLines, GridFault, NumberKind, readGrid
-/
import SealedMatch.Decimal.Numeral
import SealedMatch.Table.Tensor
import SealedMatch.Text.Lines

namespace SealedMatch

/-- The lines that hold data: everything from a hash on is a comment, and lines without any
character left are skipped. A line of blanks is data. -/
def dataLines (text : List Char) : List (List Char) :=
  (((Text.unifyLineEnds text).splitOn '\n').map fun line => line.takeWhile (· != '#')).filter
    fun line => !line.isEmpty

/-- The fields of a line. -/
def fieldsOf (line : List Char) : List (List Char) := line.splitOn ','

/-- Why a text is no grid of numbers. -/
inductive GridFault where
  /-- A field that is no number of the kind asked for: rows count from zero, columns from one. -/
  | unreadable (field : List Char) (kind : String) (row column : Nat)
  /-- A row that is not as long as the first one: rows count from one. -/
  | ragged (first found row : Nat)
deriving DecidableEq

namespace GridFault

/-- How much of a field a message shows at most. -/
def shownField : Nat := 100

/-- The wording of a fault. -/
def message : GridFault → String
  | unreadable field kind row column =>
    "could not convert string " ++
      String.ofList ((Text.quoted (String.ofList field)).toList.take shownField) ++ " to " ++
      kind ++ " at row " ++ toString row ++ ", column " ++ toString column ++ "."
  | ragged first found row =>
    "the number of columns changed from " ++ toString first ++ " to " ++ toString found ++
      " at row " ++ toString row ++
      "; use \x60usecols\x60 to select a subset and avoid this error"

end GridFault

/-- A kind of numbers, with its name in messages. -/
structure NumberKind (α : Type) where
  name : String
  read? : List Char → Option α

namespace NumberKind

/-- Whole numbers in ASCII digits that fit a signed 64-bit word. -/
def word : NumberKind Int where
  name := "int64"
  read? cs := (Decimal.strict.integer? cs).filter isWord

/-- Reals in ASCII digits, infinities and not-a-number. -/
def real : NumberKind Float where
  name := "float64"
  read? cs := Decimal.strict.real? cs

end NumberKind

/-- The numbers of a row, column by column. -/
def readFields {α : Type} (kind : NumberKind α) (row column : Nat) :
    List (List Char) → Except GridFault (List α)
  | [] => .ok []
  | field :: rest =>
    match kind.read? field with
    | none => .error (.unreadable field kind.name row column)
    | some a => do
      let as ← readFields kind row (column + 1) rest
      pure (a :: as)

/-- The numbers of rows of `columns` fields each, row by row. The length of a row is checked before
its fields. -/
def readRows {α : Type} (kind : NumberKind α) (columns row : Nat) :
    List (List (List Char)) → Except GridFault (List (List α))
  | [] => .ok []
  | fields :: rest =>
    if fields.length ≠ columns then .error (.ragged columns fields.length (row + 1))
    else do
      let here ← readFields kind row 1 fields
      let there ← readRows kind columns (row + 1) rest
      pure (here :: there)

/-- A grid of numbers. -/
structure NumberGrid (α : Type) where
  columns : Nat
  rows : List (List α)

/-- Read a grid. A text without data is a grid of one column and no row. -/
def readGrid {α : Type} (kind : NumberKind α) (text : List Char) :
    Except GridFault (NumberGrid α) :=
  match (dataLines text).map fieldsOf with
  | [] => .ok ⟨1, []⟩
  | first :: rest => do
    let rows ← readRows kind first.length 0 (first :: rest)
    pure ⟨first.length, rows⟩

end SealedMatch
