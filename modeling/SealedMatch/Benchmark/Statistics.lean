/-
Module: SealedMatch.Benchmark.Statistics
Purpose: Mean, spread, extremes and median of running times.
Trusted boundary: none
Main exports: TimeStatistics, TimeStatistics.ofTimes?
-/
import SealedMatch.Decimal.Binary64

namespace SealedMatch

/-- A summary of running times in milliseconds. -/
structure TimeStatistics where
  mean : Float
  /-- The square root of the mean squared distance from the mean. -/
  deviation : Float
  minimum : Float
  maximum : Float
  median : Float

namespace TimeStatistics

/-- The sum on top of eight running sums, to which times are dealt in turn as long as there are eight
of them; the times left over are added one by one to the sum of the eight. -/
def totalOnto (s₀ s₁ s₂ s₃ s₄ s₅ s₆ s₇ : Float) : List Float → Float
  | x₀ :: x₁ :: x₂ :: x₃ :: x₄ :: x₅ :: x₆ :: x₇ :: rest =>
    totalOnto (s₀ + x₀) (s₁ + x₁) (s₂ + x₂) (s₃ + x₃) (s₄ + x₄) (s₅ + x₅) (s₆ + x₆) (s₇ + x₇) rest
  | rest =>
    rest.foldl (· + ·) (((s₀ + s₁) + (s₂ + s₃)) + ((s₄ + s₅) + (s₆ + s₇)))

/-- How many times are added up without a cut. -/
def longestRun : Nat := 128

/-- The sum. Rounding depends on the order: fewer than eight times are added one by one, a run of
more with eight running sums, and what is longer than a run is cut near its middle, at a multiple of
eight. -/
def total (xs : List Float) : Float :=
  if longestRun < xs.length then
    let half := xs.length / 2
    let cut := half - half % 8
    total (xs.take cut) + total (xs.drop cut)
  else
    match xs with
    | x₀ :: x₁ :: x₂ :: x₃ :: x₄ :: x₅ :: x₆ :: x₇ :: rest =>
      totalOnto x₀ x₁ x₂ x₃ x₄ x₅ x₆ x₇ rest
    | few => few.foldl (· + ·) 0.0
termination_by xs.length
decreasing_by
  all_goals simp only [List.length_take, List.length_drop, longestRun] at *; omega

/-- The sum divided by the count. -/
def average (xs : List Float) : Float := total xs / xs.length.toFloat

/-- The smaller of two times; not-a-number if one of them is. -/
def least (x y : Float) : Float := if x.isNaN || x ≤ y then x else y

/-- The larger of two times; not-a-number if one of them is. -/
def greatest (x y : Float) : Float := if x.isNaN || y ≤ x then x else y

/-- The mean of the middle one or two of the sorted times; not-a-number if one time is. -/
def medianOf (xs : List Float) : Float :=
  if xs.any Float.isNaN then Decimal.notANumber
  else
    let sorted := xs.mergeSort fun x y => x ≤ y
    let count := 2 - sorted.length % 2
    average ((sorted.drop ((sorted.length - count) / 2)).take count)

/-- The summary of times, if there is one at least. -/
def ofTimes? : List Float → Option TimeStatistics
  | [] => none
  | x :: rest =>
    let xs := x :: rest
    let mean := average xs
    let squares := xs.map fun t => (t - mean) * (t - mean)
    some ⟨mean, (average squares).sqrt, rest.foldl least x, rest.foldl greatest x, medianOf xs⟩

theorem ofTimes?_eq_none_iff (xs : List Float) : ofTimes? xs = none ↔ xs = [] := by
  cases xs <;> simp [ofTimes?]

end TimeStatistics

end SealedMatch
