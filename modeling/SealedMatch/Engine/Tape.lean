/-
Module: SealedMatch.Engine.Tape
Purpose: Where masks and noises come from.
Trusted boundary: none
Main exports: Tape, Tape.ofSeed
-/
import SealedMatch.Decimal.Binary64
import SealedMatch.Engine.KeyLabel

namespace SealedMatch

/-- All randomness an engine will ever use, by position. A draw takes the words from the current
position on and moves the position past them, so nothing is used twice. -/
structure Tape where
  /-- Uniform words, for secret bits and masks. -/
  word : Nat → UInt32
  /-- Noise of a ciphertext under a key, in units of the ciphertext modulus. -/
  noise : KeyLabel → Nat → Int

namespace Tape

/-- The increment of the mixing generator: an odd number near the golden section of its range. -/
def increment : UInt64 := 0x9E3779B97F4A7C15

/-- Spread a counter over all bits of a word. -/
def mix (z : UInt64) : UInt64 :=
  let z := (z ^^^ (z >>> 30)) * 0xBF58476D1CE4E5B9
  let z := (z ^^^ (z >>> 27)) * 0x94D049BB133111EB
  z ^^^ (z >>> 31)

/-- The word at a position: the upper half of the mixed counter. -/
def wordAt (seed : UInt64) (position : Nat) : UInt32 :=
  (mix (seed + UInt64.ofNat (position + 1) * increment) >>> 32).toUInt32

/-- The integer nearest to a real, or the least 64-bit word where there is none. -/
def wholeNoise (x : Float) : Int :=
  match Decimal.nearestInteger x with
  | .ok n => if -2 ^ 63 ≤ n ∧ n < 2 ^ 63 then n else -2 ^ 63
  | .error _ => -2 ^ 63

/-- Noise of a given scale from a word, which is read as a fraction between −2 and 2. -/
def scaledNoise (scale : Float) (u : UInt32) : Int :=
  wholeNoise (scale * ((u.toNat.toFloat - 2147483648.0) / 1073741824.0))

/-- The tape of a seed, for engines whose noise has the given scale under each key. -/
def ofSeed (seed : UInt64) (scale : KeyLabel → Float) : Tape :=
  ⟨wordAt seed, fun key position => scaledNoise (scale key) (wordAt seed position)⟩

end Tape

end SealedMatch
