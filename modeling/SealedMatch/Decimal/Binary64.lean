/-
Module: SealedMatch.Decimal.Binary64
Purpose: Doubles as signed integers times powers of two, and back.
Trusted boundary: none
Main exports: Magnitude, Parts, parts, nearestDouble, truncated, nearestInteger
-/
import SealedMatch.Power

namespace SealedMatch.Decimal

/-- A nonnegative number `mantissa * 2 ^ exponent`. -/
structure Magnitude where
  mantissa : Nat
  exponent : Int
deriving DecidableEq

/-- A double, read exactly. -/
inductive Parts where
  | nan
  | infinite (negative : Bool)
  | finite (negative : Bool) (size : Magnitude)
deriving DecidableEq

/-- Read the sign, exponent and fraction fields. -/
def parts (x : Float) : Parts :=
  let bits := x.toBits
  let negative := bits >>> 63 == 1
  let exponent := ((bits >>> 52) &&& 0x7FF).toNat
  let fraction := (bits &&& 0xFFFFFFFFFFFFF).toNat
  if exponent = 0x7FF then
    if fraction = 0 then .infinite negative else .nan
  else if exponent = 0 then .finite negative ⟨fraction, -1074⟩
  else .finite negative ⟨2 ^ 52 + fraction, (exponent : Int) - 1075⟩

/-- The magnitude as a fraction, numerator first. -/
def Magnitude.ratio (m : Magnitude) : Nat × Nat :=
  if 0 ≤ m.exponent then (m.mantissa * 2 ^ m.exponent.toNat, 1)
  else (m.mantissa, 2 ^ (-m.exponent).toNat)

/-- The quotient rounded to the nearest integer, a half to the even neighbour. -/
def roundHalfEven (numerator denominator : Nat) : Nat :=
  let q := numerator / denominator
  let r := numerator % denominator
  if 2 * r < denominator then q
  else if denominator < 2 * r then q + 1
  else q + q % 2

/-- The exponent `e` with `2 ^ e ≤ numerator / denominator < 2 ^ (e + 1)`, for a positive
quotient. -/
def binaryOrder (numerator denominator : Nat) : Int :=
  let guess : Int := (numerator.log2 : Int) - denominator.log2
  let reached :=
    if 0 ≤ guess then denominator * 2 ^ guess.toNat ≤ numerator
    else denominator ≤ numerator * 2 ^ (-guess).toNat
  if reached then guess else guess - 1

/-- The bits of the double nearest to a quotient, a half going to the even mantissa. Quotients past
the largest double give infinity. -/
def nearestBits (numerator denominator : Nat) : UInt64 :=
  if numerator = 0 then 0
  else
    let unit := max (binaryOrder numerator denominator - 52) (-1074)
    let mantissa :=
      if 0 ≤ unit then roundHalfEven numerator (denominator * 2 ^ unit.toNat)
      else roundHalfEven (numerator * 2 ^ (-unit).toNat) denominator
    let (mantissa, unit) := if mantissa = 2 ^ 53 then (2 ^ 52, unit + 1) else (mantissa, unit)
    if mantissa < 2 ^ 52 then UInt64.ofNat mantissa
    else if 971 < unit then 0x7FF0000000000000
    else UInt64.ofNat ((unit + 1075).toNat * 2 ^ 52 + (mantissa - 2 ^ 52))

/-- The double nearest to a signed quotient. -/
def nearestDouble (negative : Bool) (numerator denominator : Nat) : Float :=
  let bits := nearestBits numerator denominator
  Float.ofBits (if negative then bits ||| 0x8000000000000000 else bits)

/-- The double nearest to an integer, unless the integer is past the largest double. -/
def ofInt? (n : Int) : Option Float :=
  let x := nearestDouble (n < 0) n.natAbs 1
  if x.isInf then none else some x

/-- Not-a-number, in its usual bits. -/
def notANumber : Float := Float.ofBits 0x7FF8000000000000

/-- Infinity of either sign. -/
def infinity (negative : Bool) : Float :=
  Float.ofBits (if negative then 0xFFF0000000000000 else 0x7FF0000000000000)

/-- Attach a sign to a natural number. -/
def signed (negative : Bool) (n : Nat) : Int :=
  if negative then -(n : Int) else n

/-- Why a double stands for no integer. -/
inductive NotFinite where
  | nan
  | infinity
deriving DecidableEq

/-- The integer part of a double. -/
def truncated (x : Float) : Except NotFinite Int :=
  match parts x with
  | .nan => .error .nan
  | .infinite _ => .error .infinity
  | .finite negative size => .ok (signed negative (size.ratio.1 / size.ratio.2))

/-- An integer as doubles hold it, unless it is past the largest double. -/
def roundedInt? (n : Int) : Option Int :=
  (ofInt? n).bind fun x => (truncated x).toOption

/-- The integer nearest to a double, a half going to the even neighbour. -/
def nearestInteger (x : Float) : Except NotFinite Int :=
  match parts x with
  | .nan => .error .nan
  | .infinite _ => .error .infinity
  | .finite negative size => .ok (signed negative (roundHalfEven size.ratio.1 size.ratio.2))

end SealedMatch.Decimal
