/-
Module: SealedMatch.Decimal.Numeral
Purpose: Reading integers and reals from text.
Trusted boundary: none
Main exports: NumeralStyle, NumeralDefect, readInteger, integer?, real?
-/
import SealedMatch.Decimal.Binary64
import SealedMatch.Text.Blank
import SealedMatch.Text.DecimalDigit

namespace SealedMatch.Decimal

/-- What a numeral may contain beyond ASCII digits, and what may stand around it. -/
structure NumeralStyle where
  /-- The value of a digit character. -/
  digit? : Char → Option Nat
  /-- Whether one underscore may stand between two digits. -/
  grouped : Bool
  /-- Whether a character may stand around the numeral. -/
  isBlank : Char → Bool
  /-- How many digits an integer may have, if there is a limit. -/
  digitLimit? : Option Nat

/-- Numerals as people write them: digits of every script, grouped by underscores if they like, and
integers of no more than a few thousand digits. -/
def liberal : NumeralStyle := ⟨Text.digitValue?, true, Text.isSpacing, some 4300⟩

/-- Numerals as tables hold them: ASCII digits only. -/
def strict : NumeralStyle := ⟨Text.asciiDigitValue?, false, Text.isBlank, none⟩

/-- Why a text is not taken for an integer. -/
inductive NumeralDefect where
  /-- It is not written as one. -/
  | malformed
  /-- It has more digits than the style allows. -/
  | tooManyDigits (limit count : Nat)
deriving DecidableEq

/-- Read digits: their count, their value, and the rest of the text. -/
def NumeralStyle.digits (style : NumeralStyle) (count value : Nat) :
    List Char → Nat × Nat × List Char
  | [] => (count, value, [])
  | c :: rest =>
    match style.digit? c with
    | some d => style.digits (count + 1) (value * 10 + d) rest
    | none =>
      match c, rest with
      | '_', d :: rest' =>
        match style.grouped && count != 0, style.digit? d with
        | true, some n => style.digits (count + 1) (value * 10 + n) rest'
        | _, _ => (count, value, c :: rest)
      | _, _ => (count, value, c :: rest)

/-- Split off a sign; true means negative. -/
def sign : List Char → Bool × List Char
  | '-' :: rest => (true, rest)
  | '+' :: rest => (false, rest)
  | cs => (false, cs)

/-- Whether digits break off at an underscore that no digit follows. -/
def NumeralStyle.breaksOff (style : NumeralStyle) (rest : List Char) : Bool :=
  style.grouped && rest.head? == some '_'

/-- An integer: a sign and at least one digit, blanks around them allowed. The number of digits is
checked once they are read, before what follows them. -/
def NumeralStyle.readInteger (style : NumeralStyle) (cs : List Char) : Except NumeralDefect Int :=
  let (negative, cs) := sign (Text.trimOf style.isBlank cs)
  let (count, value, rest) := style.digits 0 0 cs
  if count = 0 || style.breaksOff rest then .error .malformed
  else
    match style.digitLimit?.filter (· < count) with
    | some limit => .error (.tooManyDigits limit count)
    | none => if rest.isEmpty then .ok (signed negative value) else .error .malformed

/-- An integer, if a text is taken for one. -/
def NumeralStyle.integer? (style : NumeralStyle) (cs : List Char) : Option Int :=
  (style.readInteger cs).toOption

/-- The words that stand for a real without digits. -/
def realWord? (negative : Bool) (cs : List Char) : Option Float :=
  match String.ofList (cs.map Char.toLower) with
  | "nan" => some notANumber
  | "inf" | "infinity" => some (infinity negative)
  | _ => none

/-- The double nearest to `coefficient * 10 ^ exponent`. Exponents so far out that the answer is
infinity or zero are settled without computing the power. -/
def ofDecimal (negative : Bool) (coefficient : Nat) (exponent : Int) : Float :=
  let order := (Nat.log2 coefficient : Int) / 4 + exponent
  if coefficient = 0 then nearestDouble negative 0 1
  else if 400 < order then infinity negative
  else if 0 ≤ exponent then nearestDouble negative (coefficient * 10 ^ exponent.toNat) 1
  else if (Nat.log2 coefficient : Int) + exponent < -1200 then nearestDouble negative 0 1
  else nearestDouble negative coefficient (10 ^ (-exponent).toNat)

/-- The exponent part of a numeral: absent, or a letter, a sign and at least one digit. -/
def NumeralStyle.exponent? (style : NumeralStyle) : List Char → Option Int
  | [] => some 0
  | c :: rest =>
    if c = 'e' ∨ c = 'E' then
      let (negative, rest) := sign rest
      match style.digits 0 0 rest with
      | (0, _, _) => none
      | (_, value, []) => some (signed negative value)
      | _ => none
    else none

/-- A real: a sign, then a word or digits with at most one point and an optional exponent. -/
def NumeralStyle.real? (style : NumeralStyle) (cs : List Char) : Option Float :=
  let (negative, cs) := sign (Text.trimOf style.isBlank cs)
  match realWord? negative cs with
  | some x => some x
  | none =>
    let (wholeCount, whole, rest) := style.digits 0 0 cs
    match rest with
    | '.' :: rest =>
      let (tailCount, tail, rest) := style.digits 0 0 rest
      if wholeCount + tailCount = 0 then none
      else
        (style.exponent? rest).map fun e =>
          ofDecimal negative (whole * 10 ^ tailCount + tail) (e - tailCount)
    | rest =>
      if wholeCount = 0 then none
      else (style.exponent? rest).map fun e => ofDecimal negative whole e

end SealedMatch.Decimal
