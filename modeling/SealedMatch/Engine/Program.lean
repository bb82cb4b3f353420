/-
Module: SealedMatch.Engine.Program
Purpose: Sequences of engine operations on named operands.
Trusted boundary: none
Main exports: Operand, Instruction, Instruction.perform, Registers, runProgram
-/
import SealedMatch.Engine.Interface

namespace SealedMatch

/-- What engine operations take and yield. -/
inductive Operand (C B : Type) where
  | single (c : C)
  | many (cs : List C)
  | batch (b : B)
  | radix (x : RadixInteger C)
  /-- An operand of the wrong shape, which cannot be shown. Some can be computed with all the same,
  as batches. -/
  | misshapen (fault : Fault) (batch? : Option B)

/-- What operands of a kind are called. -/
def Operand.kindName {C B : Type} : Operand C B → String
  | single _ => "LweCiphertext"
  | many _ => "list"
  | batch _ | misshapen .. => "CiphertextBatch"
  | radix _ => "RadixCiphertext"

/-- Operands by name. -/
abbrev Registers (C B : Type) := List (String × Operand C B)

/-- One operation, with the names of its operands. -/
inductive Instruction (C B : Type) where
  /-- Bring in an operand from elsewhere. -/
  | load (o : Operand C B)
  | encrypt (value : Int)
  | encryptAll (values : List Int)
  /-- Encrypt the digits of a number one by one, least significant first. -/
  | encryptDigits (value : Int) (width : Nat)
  /-- Make an encrypted integer of single ciphertexts. -/
  | assemble (blocks : List String)
  /-- Take an item of a list or a block of an integer, counted from the end if negative. -/
  | select (source : String) (index : Int)
  | keyswitch (source : String)
  | keyswitchAll (source : String)
  | download (source : String)
  | upload (sources : List String)
  | bootstrap (source : String) (lookup : DigitLookup)
  | evaluateTable (source : String) (lookup : DigitLookup)
  | bootstrapAll (source : String) (lookups : List DigitLookup)
  | publicZero (width : Int)
  | widen (source : String) (width : Int)
  | add (left right : String)
  | atLeast (source : String) (scalar : Int)
  | decrypt (source : String)
  | decryptInteger (source : String)
  | decryptTruth (source : String)

/-- What an operation yields: an operand, or a decrypted value. -/
inductive Product (C B : Type) where
  | operand (o : Operand C B)
  | integer (n : Int)
  | truth (b : Bool)

namespace Registers

variable {C B : Type} (rs : Registers C B)

/-- Nothing usable stands under a name. -/
def missing (name : String) : Failure := .fault (.missingName name)

/-- The operand of a name. -/
def find (name : String) : Except Failure (Operand C B) :=
  match rs.lookup name with
  | some o => .ok o
  | none => .error (missing name)

/-- The single ciphertext of a name. An operand of another kind lacks a part. -/
def single (part name : String) : Except Failure C := do
  match ← rs.find name with
  | .single c => pure c
  | .misshapen fault _ => throw (.fault fault)
  | .batch b => throw (.fault (.noAttribute (Operand.batch (C := C) b).kindName "mask"))
  | o => throw (.fault (.noAttribute o.kindName part))

/-- The batch of a name. A single ciphertext has no length, and other operands have no key. -/
def batch (name : String) : Except Failure B := do
  match ← rs.find name with
  | .batch b => pure b
  | .misshapen _ (some b) => pure b
  | .misshapen fault none => throw (.fault fault)
  | .single c => throw (.fault (.noLength (Operand.single (B := B) c).kindName))
  | o => throw (.fault (.noAttribute o.kindName "key"))

/-- The batch of a name, if its ciphertexts can be told apart. -/
def wholeBatch (name : String) : Except Failure B := do
  match ← rs.find name with
  | .misshapen fault _ => throw (.fault fault)
  | .radix x => throw (.fault (.noLength (Operand.radix (B := B) x).kindName))
  | .many cs => throw (.fault (.noAttribute (Operand.many (B := B) cs).kindName "masks"))
  | _ => rs.batch name

/-- The encrypted integer of a name. An operand of another kind lacks a part. -/
def radix (part name : String) : Except Failure (RadixInteger C) := do
  match ← rs.find name with
  | .radix x => pure x
  | o => throw (.fault (.noAttribute o.kindName part))

def singles (names : List String) : Except Failure (List C) := names.mapM (rs.single "key")

/-- An item of a list, counted from the end if negative. -/
def item (cs : List C) (index : Int) (fault : Fault) : Except Failure C :=
  let place := if index < 0 then index + cs.length else index
  match place, cs[place.toNat]? with
  | .ofNat _, some c => .ok c
  | _, _ => .error (.fault fault)

/-- An item of a list or a block of an integer. -/
def select (name : String) (index : Int) : Except Failure C := do
  match ← rs.find name with
  | .many cs => item cs index .listIndexOutOfRange
  | .radix x => item x.blocks index .axisOutOfRange
  | _ => throw (missing name)

end Registers

namespace Instruction

variable {σ C B : Type}

/-- Encrypt messages one by one. -/
def encryptEach (engine : CipherEngine σ C B) : List Int → Process σ Failure (List C)
  | [] => .done []
  | message :: rest => do
    let c ← engine.encrypt message
    let cs ← encryptEach engine rest
    pure (c :: cs)

/-- Perform an operation on registers. Operands are looked up before the engine is called. -/
def perform (engine : CipherEngine σ C B) (rs : Registers C B) :
    Instruction C B → Process σ Failure (Product C B)
  | load o => .done (.operand o)
  | encrypt value => do
    let c ← engine.encrypt value
    pure (.operand (.single c))
  | encryptAll values => do
    let b ← engine.encryptAll values
    pure (.operand (.batch b))
  | encryptDigits value width => do
    let cs ← encryptEach engine (digits engine.messageModulus width value)
    pure (.operand (.radix ⟨cs⟩))
  | assemble blocks => do
    let cs ← .ofExcept (rs.singles blocks)
    pure (.operand (.radix ⟨cs⟩))
  | select source index => do
    let c ← .ofExcept (rs.select source index)
    pure (.operand (.single c))
  | keyswitch source => do
    let c ← engine.keyswitch (← .ofExcept (rs.single "key" source))
    pure (.operand (.single c))
  | keyswitchAll source => do
    let b ← engine.keyswitchAll (← .ofExcept (rs.batch source))
    pure (.operand (.batch b))
  | download source => do
    let cs ← engine.download (← .ofExcept (rs.wholeBatch source))
    pure (.operand (.many cs))
  | upload sources => do
    let b ← engine.upload (← .ofExcept (rs.singles sources))
    pure (.operand (.batch b))
  | bootstrap source lookup => do
    let c ← engine.bootstrap (← .ofExcept (rs.single "key" source)) lookup
    pure (.operand (.single c))
  | evaluateTable source lookup => do
    let c ← engine.evaluateTable (← .ofExcept (rs.single "key" source)) lookup
    pure (.operand (.single c))
  | bootstrapAll source lookups => do
    let b ← engine.bootstrapAll (← .ofExcept (rs.batch source)) lookups
    pure (.operand (.batch b))
  | publicZero width => do
    let x ← engine.publicZero width
    pure (.operand (.radix x))
  | widen source width => do
    let x ← engine.widen (← .ofExcept (rs.radix "width" source)) width
    pure (.operand (.radix x))
  | add left right => do
    let x ← .ofExcept (rs.radix "width" left)
    let y ← .ofExcept (rs.radix "width" right)
    let z ← engine.add x y
    pure (.operand (.radix z))
  | atLeast source scalar => do
    let c ← engine.atLeast (← .ofExcept (rs.radix "width" source)) scalar
    pure (.operand (.single c))
  | decrypt source => do
    let n ← engine.decrypt (← .ofExcept (rs.single "mask" source))
    pure (.integer n)
  | decryptInteger source => do
    let n ← engine.decryptInteger (← .ofExcept (rs.radix "blocks" source))
    pure (.integer n)
  | decryptTruth source => do
    let b ← engine.decryptTruth (← .ofExcept (rs.single "mask" source))
    pure (.truth b)

/-- Put the product of an operation into a register, if it is an operand. -/
def store (rs : Registers C B) (target? : Option String) (p : Product C B) : Registers C B :=
  match target?, p with
  | some name, .operand o => assign rs name o
  | _, _ => rs

/-- Perform an operation and store its operand. A failed operation leaves the registers as they
were. -/
def performInto (engine : CipherEngine σ C B) (rs : Registers C B) (target? : Option String)
    (i : Instruction C B) : Process σ Failure (Except Failure (Product C B) × Registers C B) := do
  match ← (i.perform engine rs).attempt with
  | .ok p => pure (.ok p, store rs target? p)
  | .error f => pure (.error f, rs)

end Instruction

/-- Perform operations in order and collect what they yield, failures included. -/
def runProgram {σ C B : Type} (engine : CipherEngine σ C B) (rs : Registers C B) :
    List (Option String × Instruction C B) →
      Process σ Failure (List (Except Failure (Product C B)))
  | [] => .done []
  | (target?, i) :: rest => do
    let (result, rs) ← i.performInto engine rs target?
    let results ← runProgram engine rs rest
    pure (result :: results)

end SealedMatch
