/-
Module: SealedMatch.Power
Purpose: Powers of numbers mean the same with and without algebra.
Trusted boundary: none
Main exports: the priority of powers with natural exponents
-/

namespace SealedMatch

/- A theory of monoids brings powers of its own. Those of numbers stay what programs compute. -/
attribute [instance (20000), default_instance 20000] instPowNat

end SealedMatch
