/-
Module: SealedMatch.Table.Tensor
Purpose: Arrays of 64-bit integers with any number of axes.
Trusted boundary: none
Main exports: Tensor, Tensor.read, Tensor.map, Tensor.digitAxis, wrap64
-/
import SealedMatch.Failure.Cause

namespace SealedMatch

/-- The signed 64-bit word congruent to an integer. -/
def wrap64 (n : Int) : Int := n.bmod (2 ^ 64)

/-- Whether an integer is a signed 64-bit word. -/
def isWord (n : Int) : Bool := -2 ^ 63 ≤ n && n < 2 ^ 63

theorem isWord_iff {n : Int} : isWord n = true ↔ -2 ^ 63 ≤ n ∧ n < 2 ^ 63 := by
  simp [isWord]

/-- How many entries a shape holds. -/
def volume : List Nat → Nat
  | [] => 1
  | n :: shape => n * volume shape

theorem volume_append_singleton (shape : List Nat) (n : Nat) :
    volume (shape ++ [n]) = volume shape * n := by
  induction shape with
  | nil => simp [volume]
  | cons m shape ih => simp [volume, ih, Nat.mul_assoc]

/-- The entries of an array, the last axis running fastest. -/
structure Tensor where
  shape : List Nat
  entries : Array Int
  size_entries : entries.size = volume shape

namespace Tensor

/-- An array of the given shape, if there are as many entries as the shape holds. -/
def ofEntries? (shape : List Nat) (entries : Array Int) : Option Tensor :=
  if h : entries.size = volume shape then some ⟨shape, entries, h⟩ else none

/-- How many entries an array has. -/
def size (t : Tensor) : Nat := t.entries.size

/-- Apply a function to every entry. -/
def map (f : Int → Int) (t : Tensor) : Tensor :=
  ⟨t.shape, t.entries.map f, by simp [t.size_entries]⟩

@[simp] theorem shape_map (f : Int → Int) (t : Tensor) : (t.map f).shape = t.shape := rfl

/-- The length of one axis. -/
def axisLength (t : Tensor) (axis : Nat) : Except Failure Nat :=
  match t.shape[axis]? with
  | some n => .ok n
  | none => .error (.fault .axisOutOfRange)

/-- Refuse positions that are no signed machine words. -/
def requireIndices : List Int → Except Fault Unit
  | [] => .ok ()
  | i :: rest =>
    if isWord i then requireIndices rest
    else if 0 ≤ i ∧ i < 2 ^ 64 then .error .integerTooLarge
    else .error .notAnIndex

/-- The place of an index on an axis: from the front if nonnegative, from the end if negative. -/
def place (axis length : Nat) (index : Int) : Except Fault Nat :=
  if 0 ≤ index ∧ index < length then .ok index.toNat
  else if index < 0 ∧ 0 ≤ index + length then .ok (index + length).toNat
  else .error (.indexOutOfBounds index axis length)

/-- The offset of an entry, the axes read from the left. -/
def offset (axis : Nat) : List Nat → List Int → Except Fault Nat
  | n :: shape, i :: index => do
    let here ← place axis n i
    let inner ← offset (axis + 1) shape index
    pure (here * volume shape + inner)
  | _, _ => pure 0

/-- The offset of an entry at an index, which may leave out the last axes. All positions are
accepted as such before the first one is looked for. -/
def locate (shape : List Nat) (index : List Int) : Except Fault Nat := do
  requireIndices index
  if shape.length < index.length then throw (.tooManyIndices shape.length index.length)
  offset 0 shape index

/-- The entry at an index, which must name a position on every axis. -/
def read (t : Tensor) (index : List Int) : Except Failure Int :=
  match locate t.shape index with
  | .error f => .error (.fault f)
  | .ok i =>
    if index.length < t.shape.length then .error (.fault .notAScalar)
    else .ok (t.entries.getD i 0)

/-- The largest entry. -/
def maximum (t : Tensor) : Except Failure Int :=
  match t.entries.toList with
  | [] => .error (.fault .emptyMaximum)
  | v :: rest => .ok (rest.foldl max v)

/-- The digit layers of a row of entries: layer by layer, the remainders are taken off and the
quotients go on to the next layer. -/
def digitLayers (radix : Int) : Nat → Array Int → List (Array Int)
  | 0, _ => []
  | count + 1, remaining =>
    remaining.map (· % radix) :: digitLayers radix count (remaining.map (· / radix))

@[simp] theorem length_digitLayers (radix : Int) (count : Nat) (remaining : Array Int) :
    (digitLayers radix count remaining).length = count := by
  induction count generalizing remaining with
  | zero => rfl
  | succ count ih => simp [digitLayers, ih]

/-- Interleave layers: the first entries of all layers, then the second ones, and so on. -/
def interleaveLayers (layers : List (Array Int)) (size : Nat) : Array Int :=
  (List.range size).flatMap (fun i => layers.map fun layer => layer.getD i 0) |>.toArray

theorem size_interleaveLayers (layers : List (Array Int)) (size : Nat) :
    (interleaveLayers layers size).size = size * layers.length := by
  rw [interleaveLayers, List.size_toArray, List.length_flatMap]
  simp only [List.length_map, List.map_const', List.sum_replicate_nat, List.length_range]

/-- Split every entry into `count` digits along a new last axis. -/
def digitAxis (t : Tensor) (radix : Int) (count : Nat) : Tensor :=
  ⟨t.shape ++ [count], interleaveLayers (digitLayers radix count t.entries) t.entries.size, by
    simp [size_interleaveLayers, volume_append_singleton, t.size_entries]⟩

end Tensor

end SealedMatch
