/-
Module: SealedMatch.Value.Csv
Purpose: Records as the lines of a spreadsheet file.
Trusted boundary: none
Main exports: csvDocument
-/
import SealedMatch.Value.Json

namespace SealedMatch

/-- What a cell shows: structured values as JSON, nothing for null, and the plain spelling of all
else. -/
def cellText : Value → String
  | .null => ""
  | .list items => (Value.list items).compact
  | .record fields => (Value.record fields).compact
  | v => v.display

/-- Whether a cell needs quotes. -/
def needsQuotes (cell : List Char) : Bool :=
  cell.any fun c => c == ',' || c == '"' || c == '\r' || c == '\n'

/-- A cell between quotes, each quote inside written twice. -/
def quotedCell (cell : List Char) : List Char :=
  '"' :: cell.flatMap (fun c => if c = '"' then ['"', '"'] else [c]) ++ ['"']

/-- A cell as it is written. -/
def csvCell (cell : List Char) : List Char :=
  if needsQuotes cell then quotedCell cell else cell

/-- One line. A line of a single empty cell carries quotes, since it would be blank otherwise. -/
def csvLine (cells : List String) : List Char :=
  let body :=
    match cells.map String.toList with
    | [[]] => ['"', '"']
    | [] => []
    | cell :: rest => csvCell cell ++ rest.flatMap fun c => ',' :: csvCell c
  body ++ ['\r', '\n']

/-- The names of all fields, each once, in the order of their characters. -/
def columnNames (rows : List Record) : List String :=
  ((rows.flatMap fun row => row.map Prod.fst).eraseDups).mergeSort fun a b =>
    !(b.toList.map Char.toNat).lex (a.toList.map Char.toNat) fun m n => decide (m < n)

/-- A heading and one line for every record; a field that a record lacks is an empty cell. -/
def csvDocument (rows : List Record) : String :=
  let names := columnNames rows
  let line (row : Record) := csvLine (names.map fun name => cellText ((row.lookup name).getD .null))
  String.ofList (csvLine names ++ rows.flatMap line)

end SealedMatch
