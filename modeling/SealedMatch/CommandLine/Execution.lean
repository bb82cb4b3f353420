/-
Module: SealedMatch.CommandLine.Execution
Purpose: Commands carried out: what they print, how they end, and the files that they leave.
Trusted boundary: none
Main exports: Desk, Outcome, Command.execute, Command.perform
-/
import SealedMatch.Benchmark.Benchmarker
import SealedMatch.CommandLine.Command
import SealedMatch.Decimal.Places
import SealedMatch.Store.ResultArchive

namespace SealedMatch

/-- What a command works with. -/
structure Desk where
  settings : Settings
  files : FileTree
  stamp : Stamp
  /-- The seed of engines for which none is given. -/
  freshSeed : Int

/-- What a command leaves behind. -/
structure Outcome where
  exitCode : Nat
  /-- The printed lines. -/
  lines : List String
  /-- What the user is told apart from them, if anything went wrong. -/
  complaint? : Option String
  files : FileTree

namespace Outcome

/-- The printed text. -/
def output (o : Outcome) : String := String.join (o.lines.map (· ++ "\n"))

/-- The text of the complaint. -/
def errorOutput (o : Outcome) : String :=
  match o.complaint? with
  | some complaint => "\n[ERROR] " ++ complaint ++ "\n"
  | none => ""

end Outcome

namespace Desk

variable (d : Desk)

/-- End with a complaint. -/
def complain (exitCode : Nat) (complaint : String) : Outcome :=
  ⟨exitCode, [], some complaint, d.files⟩

/-- Save results if they are to be saved, and tell the files. -/
def saved (output? : Option (Option Path)) (save : ResultArchive → Filing Path) :
    Except Failure FileTree :=
  match output? with
  | none => .ok d.files
  | some none => .error (.fault (.notAPath missingType))
  | some (some directory) =>
    match (save ⟨directory, false, d.stamp.now⟩).run.run d.files with
    | (.ok _, files) => .ok files
    | (.error f, _) => .error f

/-- The codes of the samples on two lines. A template without a line is missed once the codes of
the probe are known. -/
def codesOf (p : TableProvider) (probe : Int) : Option Int → Loading (List UInt8 × List UInt8)
  | some template => p.prepare d.files probe template
  | none => do
    let _ ← p.codesOf d.files probe
    throw (.fault (.notOrdered "<" missingType "int"))

/-- The codes of pairs of samples. -/
def comparisons (p : TableProvider) (lines : List (Int × Option Int)) :
    Except Failure (List Comparison) := do
  let load := lines.mapM fun (probe, template?) => d.codesOf p probe template?
  let pairs ← (load.run.run .empty).1
  let widen (codes : List UInt8) : List Int := codes.map fun code => code.toNat
  pure (pairs.map fun (probe, template) => ⟨widen probe, widen template⟩)

/-- The score tables of all features, prepared for all templates. -/
def compiler (p : TableProvider) : Except Failure TemplateCompiler := do
  let tables ← p.scoreTables d.files
  TemplateCompiler.ofTables p.configuration (tables.map .array)

/-- The seed that options ask for. -/
def seedOf (o : MatchingOptions) : Int := o.seed?.getD d.freshSeed

/-! ### Verification -/

/-- What a verification prints. The total in the clear is only shown beside the decrypted one. -/
def verificationLines (r : Verification) (c : TemplateCompiler) (pair : Comparison) :
    Except Failure (List String) := do
  let head :=
    ["Verification ID: " ++ r.id, "Strategy: " ++ r.strategy,
      "Status: " ++ Text.capitals r.status.name,
      "Evaluation time: " ++ Decimal.fixedPlaces 1 r.elapsedMs ++ " ms"]
  match r.trace? with
  | none => pure head
  | some trace =>
    let score ← c.clearScore pair.template pair.probe
    pure
      (head ++
        ["Decrypted total: " ++ toString trace.total ++ " (threshold " ++ toString c.threshold ++
            ")",
          "Clear total: " ++ toString score])

/-- Match one probe with one template. A failed verification ends with 1. -/
def verify (o : MatchingOptions) (probe : Int) (template? : Option Int)
    (strategy? : Option String) (debug : Bool) : Process Session Failure Outcome := do
  let p ← .ofExcept o.provider
  let pairs ← .ofExcept (d.comparisons p [(probe, template?)])
  let pair := pairs.headD ⟨[], []⟩
  let s ← .ofExcept (o.strategy strategy?)
  let c ← .ofExcept (d.compiler p)
  .act (Session.warn c.capacity.warnings)
  let compiled ← .ofExcept (c.compile pair.template s.earlyStop)
  let e ← s.provide p.configuration (d.seedOf o) o.allowReduced SimulatedEngine.unguarded
  let r ←
    (e.matcher s).verify d.stamp pair.probe compiled p.configuration.datasetName debug []
  let lines ← .ofExcept (verificationLines r c pair)
  let files ← .ofExcept
    (d.saved o.output? fun archive => archive.saveVerification r p.configuration none)
  pure ⟨if r.isFailed then 1 else 0, lines, none, files⟩

/-! ### Benchmarks -/

/-- A line across the page. -/
def ruler : String := String.ofList (List.replicate 80 '=')

/-- What a benchmark prints of one strategy. -/
def entryLines (e : SummaryEntry) : List String :=
  ["Results: " ++ e.strategy,
    "  Average runtime: " ++ Decimal.fixedPlaces 1 e.averageRuntime ++ " ms",
    "  Auth: " ++ (StrategyResult.outcomesValue e.outcomes).quoted]

/-- What a benchmark prints. -/
def benchmarkLines (dataset : String) (entries : List SummaryEntry) : List String :=
  ["", ruler, "HELR-VERIFY - STRATEGY BENCHMARK (" ++ dataset ++ ")", ruler] ++
    entries.flatMap entryLines ++ [ruler]

/-- Compare strategies on pairs of samples. A benchmark of no strategy ends with 1. -/
def benchmark (o : MatchingOptions) (probes templates : List Int) (strategies : List String) :
    Process Session Failure Outcome :=
  if probes.length ≠ templates.length then
    pure (d.complain 2 "--probes and --templates must have the same length")
  else do
    let p ← .ofExcept o.provider
    let pairs ← .ofExcept (d.comparisons p (probes.zip (templates.map some)))
    let c ← .ofExcept (d.compiler p)
    .act (Session.warn c.capacity.warnings)
    let ss ← .ofExcept (strategies.mapM fun name => o.strategy (some name))
    let b : Benchmarker :=
      { compiler := c, seed := d.seedOf o, profilesMemory := true, allowReduced := o.allowReduced,
        stamp := d.stamp, guard := SimulatedEngine.unguarded, schedule := fun _ _ => [] }
    let results ← b.run ss pairs
    let entries ← .ofExcept (summaryOf results)
    let files ← .ofExcept
      (d.saved o.output? fun archive =>
        archive.saveBenchmark results p.configuration ResultArchive.benchmarkBase)
    pure
      ⟨if results.isEmpty then 1 else 0, benchmarkLines p.configuration.datasetName entries, none,
        files⟩

/-! ### Presets and settings -/

/-- What is shown of a preset. -/
def presetLine (c : MatchPolicy) : String :=
  c.datasetName ++ ": block_length=" ++ toString c.digitSystem.blockLength ++ " block_count=" ++
    toString c.digitSystem.blockCount ++ " sum_width=" ++ toString c.sumWidth ++ " features=" ++
    toString c.featureCount ++ " threshold=" ++ toString c.threshold

/-- Show the presets in alphabetical order. -/
def showPresets : Except Failure Outcome := do
  let found ← presetNames.mapM findPreset
  pure ⟨0, found.map presetLine, none, d.files⟩

/-- Show the settings, or what is wrong with them. -/
def showSettings : Outcome :=
  match d.settings.validate with
  | .ok () => ⟨0, [d.settings.summary.pretty true], none, d.files⟩
  | .error f => d.complain 1 f.message

end Desk

namespace Command

/-- Carry out a command. -/
def execute (d : Desk) : Command → Process Session Failure Outcome
  | verify o probe template? strategy? debug => d.verify o probe template? strategy? debug
  | benchmark o probes templates strategies => d.benchmark o probes templates strategies
  | presets => .ofExcept d.showPresets
  | config => pure d.showSettings

/-- Carry out a command; coded failures are told to the user and end with 1. -/
def perform (d : Desk) (c : Command) : Process Session Failure Outcome := do
  match ← (c.execute d).attempt with
  | .ok outcome => pure outcome
  | .error f =>
    match f.report? with
    | some report => pure (d.complain 1 report.text)
    | none => .fail f

end Command

end SealedMatch
