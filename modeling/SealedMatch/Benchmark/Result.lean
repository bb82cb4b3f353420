/-
Module: SealedMatch.Benchmark.Result
Purpose: What a benchmark tells of one strategy.
Trusted boundary: none
Main exports: StrategyResult, StrategyResult.toRecord, summaryOf
-/
import SealedMatch.Benchmark.Statistics
import SealedMatch.Failure.Cause

namespace SealedMatch

/-- Running times, decisions and engine work of one strategy. -/
structure StrategyResult where
  strategy : String
  datasetName : String
  times : TimeStatistics
  /-- The peak of the memory in use. -/
  memoryUsage : Float
  /-- How many runs succeeded. -/
  runs : Int
  /-- For every pair, whether it was accepted, or nothing if its run failed. -/
  outcomes : List (Option Bool)
  /-- How many runs failed. -/
  failures : Int
  /-- Engine operations of all runs. -/
  operationCounts : List (String × Int)

namespace StrategyResult

/-- Outcomes as a list value. -/
def outcomesValue (outcomes : List (Option Bool)) : Value :=
  .list (outcomes.map fun o => Value.ofOption (o.map .bool))

/-- The result as a record. -/
def toRecord (r : StrategyResult) : Record :=
  [("strategy", .text r.strategy), ("dataset_name", .text r.datasetName),
    ("avg_time_ms", .float r.times.mean), ("std_time_ms", .float r.times.deviation),
    ("min_time_ms", .float r.times.minimum), ("max_time_ms", .float r.times.maximum),
    ("median_time_ms", .float r.times.median), ("memory_usage_mb", .float r.memoryUsage),
    ("runs", .int r.runs), ("outcomes", outcomesValue r.outcomes), ("failures", .int r.failures),
    ("operation_counts", .record (r.operationCounts.map fun (name, n) => (name, .int n)))]

end StrategyResult

/-- A line of a benchmark's summary. -/
structure SummaryEntry where
  strategy : String
  averageRuntime : Float
  outcomes : List (Option Bool)
  /-- The shortest and the longest time in whole milliseconds. -/
  timeRange : Int × Int
  failures : Int

namespace SummaryEntry

/-- A time in whole milliseconds, a half going to the even neighbour. -/
def wholeTime (x : Float) : Except Failure Int :=
  match Decimal.nearestInteger x with
  | .ok n => .ok n
  | .error .nan => .error (.fault .nanToInteger)
  | .error .infinity => .error (.fault .infinityToInteger)

/-- The line of a named result. -/
def ofResult (name : String) (r : StrategyResult) : Except Failure SummaryEntry := do
  let least ← wholeTime r.times.minimum
  let greatest ← wholeTime r.times.maximum
  pure ⟨name, r.times.mean, r.outcomes, (least, greatest), r.failures⟩

/-- The line as a record. -/
def toValue (e : SummaryEntry) : Value :=
  .record
    [("strategy", .text e.strategy), ("average_runtime_ms", .float e.averageRuntime),
      ("outcomes", StrategyResult.outcomesValue e.outcomes),
      ("time_range_ms", .ints [e.timeRange.1, e.timeRange.2]), ("failures", .int e.failures)]

end SummaryEntry

/-- Average times and outcomes of all strategies, in order. -/
def summaryOf (results : List (String × StrategyResult)) : Except Failure (List SummaryEntry) :=
  results.mapM fun (name, r) => SummaryEntry.ofResult name r

end SealedMatch
