/-
Module: SealedMatch.Event
Purpose: Warnings that operations leave behind.
Trusted boundary: none
Main exports: Event
-/
import SealedMatch.Value.Basic

namespace SealedMatch

/-- A warning with the facts that caused it. -/
structure Event where
  message : String
  fields : Record

end SealedMatch
