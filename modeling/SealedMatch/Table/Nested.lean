/-
Module: SealedMatch.Table.Nested
Purpose: Nested lists read as arrays.
Trusted boundary: none
Main exports: Value.members, ShapeScan, Nested, Nested.ofValue, Tensor.ofValue
-/
import SealedMatch.Table.Extent

namespace SealedMatch

namespace Value

/-- What a value yields one by one: the items of a list, the characters of a text, the names of a
record. -/
def members : Value → Except Failure (List Value)
  | list items => .ok items
  | text s => .ok (s.toList.map fun c => .text (String.singleton c))
  | record fields => .ok (fields.map fun field => .text field.1)
  | v => .error (.fault (.notIterable v.typeName))

end Value

/-- What is known of the shape of nested lists while they are read, depth first. -/
structure ShapeScan where
  /-- How many axes there are at most. -/
  limit : Nat
  /-- The length met first at each depth. -/
  lengths : List Nat
  /-- Whether a branch has been read to its end, so that all lengths are known. -/
  settled : Bool
  /-- Whether two branches differ. -/
  ragged : Bool

namespace ShapeScan

/-- Nothing read yet. -/
def start : ShapeScan := ⟨mostAxes, [], false, false⟩

/-- Meet a single entry: all other entries must stand at its depth. -/
def entry (s : ShapeScan) (depth : Nat) : ShapeScan :=
  if s.limit < depth then { s with ragged := true, settled := true }
  else if s.limit ≠ depth then
    { s with limit := depth, ragged := s.ragged || s.settled, settled := true }
  else { s with settled := true }

/-- Meet a list of `n` items: `none` if it cannot be part of the array, and the reading goes on
behind it. -/
def enter (s : ShapeScan) (depth n : Nat) : ShapeScan × Bool :=
  if s.limit < depth + 1 then ({ s with ragged := true }, false)
  else if !s.settled then ({ s with lengths := s.lengths.take depth ++ [n] }, true)
  else if s.lengths[depth]? = some n then (s, true)
  else ({ s with ragged := true, limit := depth }, false)

mutual

/-- Read a value at a depth. -/
def visit (s : ShapeScan) (depth : Nat) : Value → ShapeScan
  | .list items =>
    let (s, inside) := s.enter depth items.length
    if !inside then s
    else if items.isEmpty then { s with settled := true, limit := depth + 1 }
    else visitItems s (depth + 1) items
  | _ => s.entry depth

/-- Read the items of a list from left to right. -/
def visitItems (s : ShapeScan) (depth : Nat) : List Value → ShapeScan
  | [] => s
  | v :: rest => visitItems (visit s depth v) depth rest

end

/-- The shape found. -/
def shape (s : ShapeScan) : List Nat := s.lengths.take s.limit

end ShapeScan

mutual

/-- The single entries of nested lists, in reading order. -/
def leaves : Value → List Value
  | .list items => itemLeaves items
  | v => [v]

/-- The single entries of the items of a list. -/
def itemLeaves : List Value → List Value
  | [] => []
  | v :: rest => leaves v ++ itemLeaves rest

end

/-- Nested lists that form an array. -/
structure Nested where
  shape : List Nat
  entries : List Value

/-- Read nested lists, which must be neither ragged nor nested more deeply than arrays have axes. -/
def Nested.ofValue (v : Value) : Except Failure Nested :=
  let s := ShapeScan.start.visit 0 v
  if !s.ragged then .ok ⟨s.shape, leaves v⟩
  else if s.limit = mostAxes then .error (.fault (.nestedTooDeeply mostAxes))
  else .error (.fault (.inhomogeneous s.shape))

/-- The type that the entries share. -/
def Nested.type (n : Nested) : ElementType := ElementType.ofValues n.entries

/-- An entry as a signed word: a real loses its fraction, a text is read as an integer, and an
integer must fit. -/
def wordOf : Value → Except Failure Int
  | .bool b => .ok (if b then 1 else 0)
  | .int n => if isWord n then .ok n else .error (.fault .integerTooLarge)
  | .float x =>
    match Decimal.truncated x with
    | .ok n => if isWord n then .ok n else .error (.fault .integerTooLarge)
    | .error .nan => .error (.fault .nanToInteger)
    | .error .infinity => .error (.fault .infinityToInteger)
  | .text s => do
    let n ← Failure.readInteger s
    if isWord n then pure n else throw (.fault .integerTooLarge)
  | v => .error (.fault (.notANumber v.typeName))

/-- Nested lists as an array of words. -/
def Tensor.ofValue (v : Value) : Except Failure Tensor := do
  let nested ← Nested.ofValue v
  let words ← nested.entries.mapM wordOf
  match Tensor.ofEntries? nested.shape words.toArray with
  | some t => pure t
  | none => .error (.fault (.inhomogeneous nested.shape))

end SealedMatch
