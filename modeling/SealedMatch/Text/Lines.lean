/-
Module: SealedMatch.Text.Lines
Purpose: Lines of a text, whatever way its line ends are written.
Trusted boundary: none
Main exports: unifyLineEnds
-/

namespace SealedMatch.Text

/-- Write every line end, be it a carriage return, a line feed or both in that order, as one line
feed. -/
def unifyLineEnds : List Char → List Char
  | [] => []
  | '\r' :: '\n' :: rest => '\n' :: unifyLineEnds rest
  | '\r' :: rest => '\n' :: unifyLineEnds rest
  | c :: rest => c :: unifyLineEnds rest

end SealedMatch.Text
