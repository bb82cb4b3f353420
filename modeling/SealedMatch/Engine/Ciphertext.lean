/-
Module: SealedMatch.Engine.Ciphertext
Purpose: Ciphertexts of learning with errors, and their exact arithmetic.
Trusted boundary: none
Main exports: ciphertextModulus, WordRow, LweBlock, LweBatch, SecretKeys, maskProduct, spacing,
  phase, decodePhase, sealBody, stretch, addCiphertexts
-/
import SealedMatch.Decimal.Binary64
import SealedMatch.Engine.KeyLabel
import SealedMatch.Engine.Place
import SealedMatch.Failure.Fault

namespace SealedMatch

/-- Masks and bodies are taken modulo this number. -/
def ciphertextModulus : Nat := 2 ^ 32

/-- A row of integers that only count modulo the ciphertext modulus, such as a mask or a secret. -/
structure WordRow where
  residues : Array Nat
  /-- The integers as they were given, if the row was put together elsewhere. -/
  given? : Option (Array Int)

namespace WordRow

/-- How many integers a row holds. -/
def size (r : WordRow) : Nat := r.residues.size

def ofResidues (residues : Array Nat) : WordRow := ⟨residues, none⟩

/-- A row of given integers. -/
def ofGiven (xs : Array Int) : WordRow :=
  ⟨xs.map fun x => (x % (ciphertextModulus : Int)).toNat, some xs⟩

/-- The integers of a row, as they were given. -/
def integers (r : WordRow) : Array Int := r.given?.getD (r.residues.map Int.ofNat)

@[simp] theorem size_ofGiven (xs : Array Int) : (ofGiven xs).size = xs.size := by
  simp [size, ofGiven]

@[simp] theorem integers_ofGiven (xs : Array Int) : (ofGiven xs).integers = xs := rfl

end WordRow

/-- A ciphertext: a mask, and a body that hides the message behind the product of mask and key.
A trivial ciphertext has a mask of zeros and no noise; it holds a public constant. -/
structure LweBlock where
  mask : WordRow
  body : Int
  key : KeyLabel
  trivial : Bool

/-- Ciphertexts under one key, side by side in the memory of one place. Every body has a mask of its
own, unless the batch was put together elsewhere. -/
structure LweBatch where
  /-- How long the masks are, even if there are none. -/
  maskSize : Nat
  masks : List WordRow
  bodies : List Int
  key : KeyLabel
  place : Place

namespace LweBatch

/-- How many ciphertexts a batch holds. -/
def length (b : LweBatch) : Nat := b.bodies.length

/-- A batch of masks with their bodies. -/
def ofRows (maskSize : Nat) (rows : List (WordRow × Int)) (key : KeyLabel) (place : Place) :
    LweBatch :=
  ⟨maskSize, rows.map Prod.fst, rows.map Prod.snd, key, place⟩

@[simp] theorem length_ofRows (maskSize : Nat) (rows : List (WordRow × Int)) (key : KeyLabel)
    (place : Place) : (ofRows maskSize rows key place).length = rows.length := by
  simp [length, ofRows]

end LweBatch

/-- The secrets: bits, unless they were chosen elsewhere. -/
structure SecretKeys where
  large : WordRow
  small : WordRow

/-- The secret of a label, if the label names one of the keys. -/
def SecretKeys.find? (keys : SecretKeys) : KeyLabel → Option WordRow
  | .large => some keys.large
  | .small => some keys.small
  | .other _ => none

/-- The product of a mask and a secret of the same length. -/
def maskProduct (mask secret : WordRow) : Nat :=
  (Array.zipWith (· * ·) mask.residues secret.residues).foldl (· + ·) 0

/-- The distance between two messages of a space of `totalModulus` messages. One bit stays free
above the messages, so that sums do not wrap around. -/
def spacing (totalModulus : Nat) : Nat := ciphertextModulus / (2 * totalModulus)

/-- What is left of a body when the product of mask and secret is taken off. -/
def phase (body : Int) (product : Nat) : Nat := ((body - product) % ciphertextModulus).toNat

/-- The message nearest to a phase, a half going to the even message. -/
def decodePhase (totalModulus phase : Nat) : Nat :=
  Decimal.roundHalfEven phase (spacing totalModulus) % totalModulus

/-- The body of an encryption of a message. -/
def sealBody (totalModulus : Nat) (mask secret : WordRow) (message noise : Int) : Int :=
  (maskProduct mask secret + message * spacing totalModulus + noise) % ciphertextModulus

/-- Stretch two lists to one length: a list of a single item goes with every item of the other. -/
def stretch {α β : Type} (xs : List α) (ys : List β) : Except Fault (List (α × β)) :=
  match xs, ys with
  | [x], ys => .ok (ys.map fun y => (x, y))
  | xs, [y] => .ok (xs.map fun x => (x, y))
  | xs, ys =>
    if xs.length = ys.length then .ok (xs.zip ys)
    else .error (.notStretched xs.length ys.length)

/-- Lists of one length are paired item by item. -/
theorem stretch_of_length_eq {α β : Type} {xs : List α} {ys : List β}
    (h : xs.length = ys.length) : stretch xs ys = .ok (xs.zip ys) := by
  unfold stretch
  split
  · match ys, h with
    | [y], _ => rfl
  · match xs, h with
    | [x], _ => rfl
  · simp [h]

/-- Add two ciphertexts under one key entry by entry. -/
def addCiphertexts (a b : LweBlock) : Except Fault LweBlock := do
  let sum (x y : Nat) : Nat := (x + y) % ciphertextModulus
  let xs := a.mask.residues
  let ys := b.mask.residues
  let residues ←
    if xs.size = ys.size then .ok (Array.zipWith sum xs ys)
    else (stretch xs.toList ys.toList).map fun pairs =>
      (pairs.map fun (x, y) => sum x y).toArray
  let body := (a.body + b.body) % ciphertextModulus
  pure ⟨.ofResidues residues, body, a.key, a.trivial && b.trivial⟩

end SealedMatch
