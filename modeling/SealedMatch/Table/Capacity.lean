/-
Module: SealedMatch.Table.Capacity
Purpose: Whether the largest total fits the digits of a sum.
Trusted boundary: none
Main exports: CapacityCheck, CapacityCheck.ofTables
-/
import SealedMatch.Event
import SealedMatch.Table.Score

namespace SealedMatch

/-- A power of the radix. With a negative exponent it is a real. -/
inductive Capacity where
  | power (radix : Int) (width : Nat)
  | fraction (x : Float)

namespace Capacity

/-- An exponent beyond which every power of a half and of smaller reals rounds to zero. -/
def vanishingWidth : Nat := 1100

/-- A whole power. The powers of minus one, zero and one only depend on whether the exponent is
zero, odd or even. -/
def wholePower (base : Int) (exponent : Nat) : Int :=
  if base.natAbs ≤ 1 ∧ 2 < exponent then base ^ (exponent % 2 + 2) else base ^ exponent

/-- The radix to the power of a width. For a negative width both are taken as reals, which they must
fit. The powers of a negative radix lie on either side of all totals, so they must not have too many
factors to be written out. -/
def ofPower (radix width : Int) : Except Failure Capacity :=
  if 0 ≤ width then
    if radix < -1 ∧ mostFactors ≤ width.toNat then .error (.fault .noRoom)
    else .ok (.power radix width.toNat)
  else
    match Decimal.roundedInt? radix, Decimal.roundedInt? width with
    | some radix, some width =>
      if radix = 0 then .error (.fault .zeroToNegativePower)
      else
        let power := radix.natAbs ^ min width.natAbs vanishingWidth
        .ok (.fraction (Decimal.nearestDouble (radix < 0 ∧ width.natAbs % 2 = 1) 1 power))
    | _, _ => .error (.fault .integerTooLargeForReal)

/-- Whether a total lies below a whole power. A power with more factors than the total has binary
digits is not written out. -/
def powerExceeds (radix : Int) (width : Nat) (total : Int) : Bool :=
  (1 < radix && total.natAbs.log2 < width) || total < wholePower radix width

/-- Whether a total lies below the capacity. -/
def exceeds (c : Capacity) (total : Int) : Bool :=
  match c with
  | power radix width => powerExceeds radix width total
  | fraction x =>
    match Decimal.ofInt? total with
    | some t => t < x
    | none => total < 0

def toValue : Capacity → Value
  | power radix width => .int (wholePower radix width)
  | fraction x => .float x

end Capacity

/-- The largest total of a choice of one entry from every table, set against the capacity of the
sum. -/
structure CapacityCheck where
  largestTotal : Int
  capacity : Capacity
  sumWidth : Int

namespace CapacityCheck

/-- No choice of entries can wrap around. -/
def fits (c : CapacityCheck) : Bool := c.capacity.exceeds c.largestTotal

/-- A warning exactly if the sum may wrap around. -/
def warnings (c : CapacityCheck) : List Event :=
  if c.fits then []
  else
    [⟨"Largest possible score exceeds radix sum capacity; totals may wrap",
      [("max_total", .int c.largestTotal), ("capacity", c.capacity.toValue),
        ("sum_width", .int c.sumWidth)]⟩]

end CapacityCheck

/-- The sum of the largest entries of all tables. -/
def totalOfMaxima (tables : List Tensor) : Except Failure Int :=
  tables.foldlM (fun total t => do pure (total + (← t.maximum))) 0

/-- Compare the largest total with `radix ^ sumWidth`. -/
def CapacityCheck.ofTables (tables : List Tensor) (radix sumWidth : Int) :
    Except Failure CapacityCheck := do
  let total ← totalOfMaxima tables
  let capacity ← Capacity.ofPower radix sumWidth
  pure ⟨total, capacity, sumWidth⟩

end SealedMatch
