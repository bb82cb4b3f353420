/-
Module: SealedMatch.Table.Score
Purpose: Score tables: acceptance, normalization, digits and digit counts.
Trusted boundary: none
Main exports: TableSource, TableSource.toTable, normalize, normalizeAll, digitTable, earlyStopCount
-/
import SealedMatch.Radix.Digits
import SealedMatch.Table.Extent
import SealedMatch.Table.Nested

namespace SealedMatch

/-- A score table as it is handed in: nested lists of any content, or an array of words. -/
inductive TableSource where
  | nested (v : Value)
  | array (t : Tensor)

namespace TableSource

/-- Nested lists as rows: each member of the table yields the cells of one row. -/
def rows (v : Value) : Except Failure (List (List Value)) := do
  let members ← v.members
  members.mapM Value.members

/-- Whether there is a first row, it has a cell, and all rows are as long. -/
def uniform : List (List Value) → Bool
  | [] => false
  | row :: rest => !row.isEmpty && rest.all (·.length == row.length)

/-- An integer or a truth value as a signed word, unsigned words being reread as signed ones. -/
def cell : Value → Int
  | .bool b => if b then 1 else 0
  | .int n => wrap64 n
  | _ => 0

/-- A table has two axes and at least one entry. -/
def checkShape (shape : List Nat) (feature : Nat) : Except Failure Unit :=
  if shape.length = 2 ∧ volume shape ≠ 0 then pure ()
  else .error (.input (.tableNotFlat shape feature))

/-- Accept a table of integers with uniform rows. -/
def toTable (source : TableSource) (feature : Nat) : Except Failure Tensor :=
  match source with
  | .array t => do
    checkShape t.shape feature
    pure t
  | .nested v => do
    let rows ← rows v
    if !uniform rows then .error (.input (.raggedTable feature))
    let nested ← Nested.ofValue (.list (rows.map .list))
    checkShape nested.shape feature
    if !nested.type.isInteger then .error (.input (.entriesNotIntegers nested.type feature))
    match Tensor.ofEntries? nested.shape (nested.entries.map cell).toArray with
    | some t => pure t
    | none => .error (.input (.raggedTable feature))

end TableSource

/-- Shift a signed table so that its last cell of the first row becomes zero. The offset is the
absolute value of that cell, which by convention holds the least score; a table that breaks the
convention keeps negative entries. -/
def normalize (source : TableSource) (feature : Nat) : Except Failure (Tensor × Int) := do
  let t ← source.toTable feature
  let corner ← t.read [0, -1]
  let offset : Int := corner.natAbs
  if isWord offset then pure (t.map fun v => wrap64 (v + offset), offset)
  else .error (.fault .integerTooLarge)

/-- Normalize tables from a feature on: the shifted tables in order and the sum of the offsets. -/
def normalizeFrom (feature : Nat) : List TableSource → Except Failure (List Tensor × Int)
  | [] => pure ([], 0)
  | source :: rest => do
    let (table, offset) ← normalize source feature
    let (tables, total) ← normalizeFrom (feature + 1) rest
    pure (table :: tables, offset + total)

/-- Normalize the tables of all features. -/
def normalizeAll (sources : List TableSource) : Except Failure (List Tensor × Int) :=
  normalizeFrom 0 sources

/-- Split every entry of a table into `blockCount` digits of `blockLength` bits, on a new last
axis. -/
def digitTable (t : Tensor) (blockLength blockCount : Int) : Except Failure Tensor :=
  Except.mapError Failure.fault do
    let radix ← wordPower blockLength
    let count ← newAxis t.shape blockCount
    if !isWord radix ∧ 0 < count then throw .integerTooLarge
    pure (t.digitAxis radix count)

/-- How many digits are taken until the number, shifted right by them, is zero; at most `count`. -/
def leadingDigitCount (blockLength count : Nat) (largest : Int) : Nat :=
  ((List.range count).takeWhile fun i => largest >>> (i * blockLength) != 0).length

/-- How many digits the entries of a table need, if the first cell holds the largest one. -/
def earlyStopCount (t : Tensor) (d : DigitSystem) : Except Failure Nat := do
  let largest ← t.read [0, 0]
  pure (leadingDigitCount d.blockLength d.blockCount largest)

end SealedMatch
