/-
Module: SealedMatch.Engine.Given
Purpose: Ciphertexts and batches put together from their parts.
Trusted boundary: none
Main exports: Operand.ofParts, Operand.ofTables
-/
import SealedMatch.Engine.Ciphertext
import SealedMatch.Engine.Program
import SealedMatch.Table.Tensor

namespace SealedMatch.Operand

/-- What a single entry of a mask is called. -/
def entryType : String := "numpy.int64"

/-- A ciphertext of a mask and a body. The mask must have one axis. -/
def ofParts (mask : Tensor) (body : Int) (key : KeyLabel) (trivial : Bool) :
    Operand LweBlock LweBatch :=
  match mask.shape with
  | [_] => .single ⟨.ofGiven mask.entries, body, key, trivial⟩
  | [] => .misshapen .unsized none
  | _ => .misshapen .notAScalar none

/-- A table cut into rows. -/
def rowsOf (entries : Array Int) (rows size : Nat) : List WordRow :=
  (List.range rows).map fun row => .ofGiven (entries.extract (row * size) ((row + 1) * size))

/-- A batch of masks, one a row, and of bodies, whose number may differ. Where the masks have a
single axis they are one mask for all bodies, which is no row and cannot be shown. -/
def ofTables (masks bodies : Tensor) (key : KeyLabel) (place : Place) :
    Operand LweBlock LweBatch :=
  match bodies.shape, masks.shape with
  | [], _ => .misshapen .axisOutOfRange none
  | [_], [rows, size] =>
    .batch ⟨size, rowsOf masks.entries rows size, bodies.entries.toList, key, place⟩
  | [_], [0] => .batch ⟨0, [], bodies.entries.toList, key, place⟩
  | [_], [size] =>
    .misshapen (.noLength entryType)
      (some ⟨size, [.ofGiven masks.entries], bodies.entries.toList, key, place⟩)
  | [_], [] => .misshapen .unsized none
  | _, _ => .misshapen .notAScalar none

end SealedMatch.Operand
