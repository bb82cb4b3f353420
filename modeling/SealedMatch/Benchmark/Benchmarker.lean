/-
Module: SealedMatch.Benchmark.Benchmarker
Purpose: Strategies run on the same pairs of samples and compared.
Trusted boundary: none
Main exports: Comparison, Benchmarker, Benchmarker.runStrategy, Benchmarker.run
-/
import SealedMatch.Benchmark.Memory
import SealedMatch.Benchmark.Result
import SealedMatch.Matching.Provision

namespace SealedMatch

/-- The codes of a probe and of a template. -/
structure Comparison where
  probe : List Int
  template : List Int

/-- What all strategies of a benchmark have in common. -/
structure Benchmarker where
  compiler : TemplateCompiler
  /-- The seed of every engine. -/
  seed : Int
  /-- Whether the memory in use is recorded. -/
  profilesMemory : Bool
  /-- Whether strategies of reduced assurance run. -/
  allowReduced : Bool
  stamp : Stamp
  guard : EngineCall → Process Session Failure Unit
  /-- The order of the host's actions in each run of each strategy. -/
  schedule : Strategy → Nat → Schedule
  /-- The randomness of each strategy's engine. -/
  tapeOf : Strategy → LweParameters → UInt64 → Tape := fun _ => SimulatedEngine.seededTape

namespace Benchmarker

variable (b : Benchmarker)

def configuration : MatchPolicy := b.compiler.configuration

/-- Verify one pair. -/
def verifyCodes (s : Strategy) (e : SimulatedEngine) (index : Nat) (pair : Comparison) :
    Process Session Failure Verification := do
  let compiled ← .ofExcept (b.compiler.compile pair.template s.earlyStop)
  (e.matcher s).verify b.stamp pair.probe compiled b.configuration.datasetName false
    (b.schedule s index)

/-- Verify one pair, with the peak of the memory in use meanwhile, or zero if that is not
recorded. -/
def profilePair (s : Strategy) (e : SimulatedEngine) (index : Nat) (pair : Comparison) :
    Process Session Failure (Verification × Float) :=
  if b.profilesMemory then do
    let (result, profile) ← MemoryProfile.around (b.verifyCodes s e index pair)
    pure (result, profile.peak)
  else do
    let result ← b.verifyCodes s e index pair
    pure (result, 0.0)

/-- The warning of a failed run. -/
def failedRun (s : Strategy) (index : Nat) (details? : Option Value) : Event :=
  ⟨"Benchmark run " ++ toString index ++ " failed for " ++ s.name,
    [("error_details", Value.ofOption details?)]⟩

/-- Verify pairs from an index on; a failed run leaves a warning. -/
def runPairs (s : Strategy) (e : SimulatedEngine) (index : Nat) :
    List Comparison → Process Session Failure (List (Verification × Float))
  | [] => pure []
  | pair :: rest => do
    let here ← b.profilePair s e index pair
    if here.1.isFailed then
      .act (Session.warn [failedRun s index here.1.errorDetails?])
    let there ← runPairs s e (index + 1) rest
    pure (here :: there)

/-- Whether a run accepted, unless it failed. -/
def outcome (r : Verification) : Option Bool :=
  if r.isFailed then none else some r.accepted

/-- The larger of two amounts of memory. -/
def peakOf (peak x : Float) : Float := if peak < x then x else peak

/-- The counters of a tally by name. -/
def namedCounts (counts : Tally CountedOperation) : List (String × Int) :=
  counts.entries.map fun (op, n) => (op.name, n)

/-- The result of a strategy from its runs. At least one must have succeeded. -/
def resultOf (s : Strategy) (runs : List (Verification × Float))
    (counts : Tally CountedOperation) : Except Failure StrategyResult :=
  let results := runs.map Prod.fst
  let succeeded := results.filter fun r => !r.isFailed
  match TimeStatistics.ofTimes? (succeeded.map (·.elapsedMs)) with
  | none => .error (.benchmark s.name)
  | some times =>
    .ok
      { strategy := s.name
        datasetName := b.configuration.datasetName
        times := times
        memoryUsage := (runs.map Prod.snd).foldl peakOf 0.0
        runs := succeeded.length
        outcomes := results.map outcome
        failures := (results.filter (·.isFailed)).length
        operationCounts := namedCounts counts }

/-- Verify all pairs with one strategy on an engine of its own. -/
def runStrategy (s : Strategy) (pairs : List Comparison) :
    Process Session Failure StrategyResult := do
  let e ← s.provide b.configuration b.seed b.allowReduced b.guard (b.tapeOf s)
  let runs ← b.runPairs s e 0 pairs
  let counts ← .fetch id (·.counts)
  .ofExcept (b.resultOf s runs counts)

/-- The warning of a strategy that is left out. -/
def skipped (s : Strategy) : Event :=
  ⟨"Strategy skipped",
    [("strategy", .text s.name), ("reason", .text "reduced assurance not allowed")]⟩

/-- Benchmark strategies in order. One of reduced assurance is left out unless it is allowed, and of
two with one name the later result counts. -/
def runFrom (results : List (String × StrategyResult)) (pairs : List Comparison) :
    List Strategy → Process Session Failure (List (String × StrategyResult))
  | [] => pure results
  | s :: rest =>
    if !b.allowReduced && s.lowersAssurance b.configuration then do
      .act (Session.warn [skipped s])
      runFrom results pairs rest
    else do
      let result ← b.runStrategy s pairs
      runFrom (assign results s.name result) pairs rest

/-- A warning if the strategies do not agree: scheduling must not change a decision. -/
def disagreement (results : List (String × StrategyResult)) : List Event :=
  match results with
  | [] => []
  | (_, first) :: rest =>
    if rest.all fun (_, r) => r.outcomes == first.outcomes then []
    else
      [⟨"Strategies disagree on outcomes",
        [("outcomes", .record
          (results.map fun (name, r) => (name, StrategyResult.outcomesValue r.outcomes)))]⟩]

/-- Benchmark strategies on the same pairs and compare their outcomes. -/
def run (strategies : List Strategy) (pairs : List Comparison) :
    Process Session Failure (List (String × StrategyResult)) := do
  let results ← b.runFrom [] pairs strategies
  .act (Session.warn (disagreement results))
  pure results

end Benchmarker

end SealedMatch
