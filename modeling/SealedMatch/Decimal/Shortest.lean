/-
Module: SealedMatch.Decimal.Shortest
Purpose: The fewest decimal digits that read back as the same double.
Trusted boundary: none
Main exports: Digits, shortest, FloatFormat, FloatFormat.render
-/
import SealedMatch.Decimal.Binary64

namespace SealedMatch.Decimal

/-- A decimal `coefficient * 10 ^ exponent`. -/
structure Digits where
  coefficient : Nat
  exponent : Int
deriving DecidableEq

/-- The reals that round to a double, in quarters of its unit: from `low` to `high`, the ends
included when the mantissa is even. -/
structure RoundingInterval where
  low : Nat
  value : Nat
  high : Nat
  closed : Bool
  /-- The quarter unit is `2 ^ exponent`. -/
  exponent : Int

/-- Below a power of two the neighbours lie twice as close. -/
def RoundingInterval.ofMagnitude (m : Magnitude) : RoundingInterval :=
  let below := if m.mantissa = 2 ^ 52 ∧ -1074 < m.exponent then 1 else 2
  ⟨4 * m.mantissa - below, 4 * m.mantissa, 4 * m.mantissa + 2, m.mantissa % 2 = 0, m.exponent - 2⟩

/-- Scale `quarters * 2 ^ two` to units of `10 ^ ten`, as a fraction. -/
def scale (quarters : Nat) (two ten : Int) : Nat × Nat :=
  (quarters * 2 ^ two.toNat * 10 ^ (-ten).toNat, 2 ^ (-two).toNat * 10 ^ ten.toNat)

/-- Whether `candidate * 10 ^ ten` lies in the interval. -/
def RoundingInterval.holds (i : RoundingInterval) (ten : Int) (candidate : Nat) : Bool :=
  let (low, unit) := scale i.low i.exponent ten
  let high := (scale i.high i.exponent ten).1
  let at_ := candidate * unit
  if i.closed then low ≤ at_ && at_ ≤ high else low < at_ && at_ < high

/-- The point of the grid `10 ^ ten` that lies in the interval, the nearer of two, and of two
equally near the even one. -/
def RoundingInterval.onGrid (i : RoundingInterval) (ten : Int) : Option Nat :=
  let (value, unit) := scale i.value i.exponent ten
  let below := value / unit
  match i.holds ten below, i.holds ten (below + 1) with
  | true, true => some (roundHalfEven value unit)
  | true, false => some below
  | false, true => some (below + 1)
  | false, false => none

/-- The exponent `e` with `10 ^ e ≤ value < 10 ^ (e + 1)`. -/
def RoundingInterval.decimalOrder (i : RoundingInterval) : Int :=
  let bits : Int := (i.value.log2 : Int) + i.exponent
  let guess := (bits * 30103).fdiv 100000
  let reaches (e : Int) : Bool :=
    let (value, unit) := scale i.value i.exponent e
    unit ≤ value
  if reaches (guess + 1) then guess + 1
  else if reaches guess then guess
  else guess - 1

/-- Try the grids for `count` more digits, from the coarse one on. -/
def RoundingInterval.search (i : RoundingInterval) (ten : Int) : Nat → Option Digits
  | 0 => none
  | count + 1 =>
    match i.onGrid ten with
    | some coefficient => some ⟨coefficient, ten⟩
    | none => i.search (ten - 1) count

/-- Move trailing zeros of the coefficient into the exponent, `fuel` of them at most. -/
def Digits.reduce (d : Digits) : Nat → Digits
  | 0 => d
  | fuel + 1 =>
    if d.coefficient ≠ 0 ∧ d.coefficient % 10 = 0 then
      Digits.reduce ⟨d.coefficient / 10, d.exponent + 1⟩ fuel
    else d

/-- The shortest decimal that reads back as the positive double `m`; seventeen digits always
suffice. -/
def shortest (m : Magnitude) : Digits :=
  let i := RoundingInterval.ofMagnitude m
  ((i.search i.decimalOrder 17).getD ⟨0, 0⟩).reduce 18

/-- The choices of a notation for doubles. -/
structure FloatFormat where
  nan : String
  infinity : String
  /-- Exponents from which on the notation is scientific. -/
  scientificFrom : Int
  /-- Exponents below which the notation is scientific. -/
  scientificBelow : Int

/-- `count` zeros. -/
def zeros (count : Nat) : String := String.ofList (List.replicate count '0')

/-- The digits with the point after `whole` of them, zeros filling any gap. -/
def positional (digits : String) (whole : Int) : String :=
  let count := digits.length
  if whole ≤ 0 then "0." ++ zeros (-whole).toNat ++ digits
  else if (count : Int) ≤ whole then digits ++ zeros (whole.toNat - count) ++ ".0"
  else
    String.ofList (digits.toList.take whole.toNat) ++ "." ++
      String.ofList (digits.toList.drop whole.toNat)

/-- One digit, a point if more follow, and an exponent of two digits or more with its sign. -/
def scientific (digits : String) (exponent : Int) : String :=
  let tail := digits.toList.drop 1
  let power := toString exponent.natAbs
  String.ofList (digits.toList.take 1) ++
    (if tail.isEmpty then "" else "." ++ String.ofList tail) ++ "e" ++
    (if exponent < 0 then "-" else "+") ++ (if power.length < 2 then "0" else "") ++ power

/-- The text of a double. -/
def FloatFormat.render (format : FloatFormat) (x : Float) : String :=
  match parts x with
  | .nan => format.nan
  | .infinite negative => (if negative then "-" else "") ++ format.infinity
  | .finite negative size =>
    (if negative then "-" else "") ++
      if size.mantissa = 0 then "0.0"
      else
        let d := shortest size
        let digits := toString d.coefficient
        let exponent := (digits.length : Int) - 1 + d.exponent
        if format.scientificBelow ≤ exponent ∧ exponent < format.scientificFrom then
          positional digits (exponent + 1)
        else scientific digits exponent

end SealedMatch.Decimal
