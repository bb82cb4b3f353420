/-
Module: SealedMatch.Engine.Interface
Purpose: What the matching protocol asks of an evaluation engine.
Trusted boundary: none
Main exports: RadixInteger, CipherEngine
-/
import SealedMatch.Process.Basic
import SealedMatch.Template.Lookup

namespace SealedMatch

/-- An encrypted integer: one ciphertext for every digit, least significant first. -/
structure RadixInteger (C : Type) where
  blocks : List C

/-- How many digits an encrypted integer has. -/
def RadixInteger.width {C : Type} (x : RadixInteger C) : Nat := x.blocks.length

/-- An engine that computes on ciphertexts `C` and on batches `B` of them, beside others that share
the state `σ`. Single ciphertexts live on the host and batches on the accelerator; the protocol
never looks inside either. -/
structure CipherEngine (σ C B : Type) where
  /-- The number of messages of one block, which is the radix. -/
  messageModulus : Nat
  /-- Messages times carries: the number of codes one table evaluation can index. -/
  totalModulus : Nat
  encrypt : Int → Process σ Failure C
  encryptAll : List Int → Process σ Failure B
  /-- From the input key to the bootstrapping key. -/
  keyswitch : C → Process σ Failure C
  keyswitchAll : B → Process σ Failure B
  /-- Evaluate a lookup on a key-switched ciphertext. -/
  bootstrap : C → DigitLookup → Process σ Failure C
  /-- Evaluate the lookup of each position of a key-switched batch. -/
  bootstrapAll : B → List DigitLookup → Process σ Failure B
  /-- Key switch, then bootstrap. -/
  evaluateTable : C → DigitLookup → Process σ Failure C
  upload : List C → Process σ Failure B
  download : B → Process σ Failure (List C)
  /-- Zero in a number of digits, public. -/
  publicZero : Int → Process σ Failure (RadixInteger C)
  /-- Add public zero digits at the most significant end. -/
  widen : RadixInteger C → Int → Process σ Failure (RadixInteger C)
  /-- Add two integers of one width, the last carry dropped. -/
  add : RadixInteger C → RadixInteger C → Process σ Failure (RadixInteger C)
  /-- Whether an encrypted integer is at least a public one. -/
  atLeast : RadixInteger C → Int → Process σ Failure C
  decrypt : C → Process σ Failure Int
  decryptInteger : RadixInteger C → Process σ Failure Int
  decryptTruth : C → Process σ Failure Bool

end SealedMatch
