/-
Module: SealedMatch.Decimal.Places
Purpose: Doubles with a fixed number of decimal places.
Trusted boundary: none
Main exports: fixedPlaces
-/
import SealedMatch.Decimal.Shortest

namespace SealedMatch.Decimal

/-- The text of `n / 10 ^ places`. -/
def pointed (places n : Nat) : String :=
  let whole := toString (n / 10 ^ places)
  let tail := toString (n % 10 ^ places)
  if places = 0 then whole else whole ++ "." ++ zeros (places - tail.length) ++ tail

/-- A double rounded to `places` decimals, a half going to the even digit. -/
def fixedPlaces (places : Nat) (x : Float) : String :=
  match parts x with
  | .nan => "nan"
  | .infinite negative => if negative then "-inf" else "inf"
  | .finite negative size =>
    let (numerator, denominator) := size.ratio
    (if negative then "-" else "") ++
      pointed places (roundHalfEven (numerator * 10 ^ places) denominator)

end SealedMatch.Decimal
