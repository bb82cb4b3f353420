/-
Module: SealedMatch.Engine.KeyLabel
Purpose: Names of the secret keys.
Trusted boundary: none
Main exports: KeyLabel
-/

namespace SealedMatch

/-- The key a ciphertext stands under. Inputs, table outputs and sums stand under the large key;
key switching moves a ciphertext to the small one. A label of any other name belongs to no key of
an engine. -/
inductive KeyLabel where
  | large
  | small
  | other (name : String)
deriving DecidableEq, Repr

namespace KeyLabel

def name : KeyLabel → String
  | large => "large"
  | small => "small"
  | other name => name

def ofName (s : String) : KeyLabel :=
  if s = "large" then large else if s = "small" then small else other s

end KeyLabel

end SealedMatch
