/-
Module: SealedMatch.CommandLine.Settings
Purpose: Defaults of the command line, taken from the environment.
Trusted boundary: none
Main exports: Settings, Settings.ofEnvironment, Settings.validate, Settings.summary
-/
import SealedMatch.Failure.Cause
import SealedMatch.Store.Path
import SealedMatch.Text.Case

namespace SealedMatch

/-- The defaults of a run. -/
structure Settings where
  dataPath : Path
  resultsPath : Path
  dataset : String
  logLevel : String
  maxWorkers : Int
  strategy : String
  seed? : Option Int
  debug : Bool

namespace Settings

/-- The variables that settings are taken from. -/
def variableNames : List String :=
  ["HELR_DATA_PATH", "HELR_RESULTS_PATH", "HELR_DATASET", "LOG_LEVEL", "MAX_WORKERS",
    "HELR_STRATEGY", "HELR_ENGINE_SEED", "DEBUG_MODE"]

/-- Take the settings from variables, none of which may hold a zero character. Absent ones get their
usual values; paths then lie below `root`. An empty seed counts as absent. -/
def ofEnvironment (lookup? : String → Option String) (root : String) :
    Except Failure Settings := do
  let holdsZero (name : String) : Bool := (lookup? name).any fun s => s.toList.contains '\x00'
  if variableNames.any holdsZero then throw (.fault .zeroInPath)
  let text (name default : String) : String := (lookup? name).getD default
  let maxWorkers ← Failure.readInteger (text "MAX_WORKERS" "4")
  let seed? ←
    match (lookup? "HELR_ENGINE_SEED").filter fun s => !s.isEmpty with
    | some s => do
      let n ← Failure.readInteger s
      pure (some n)
    | none => pure none
  pure
    { dataPath := Path.ofText (text "HELR_DATA_PATH" (root ++ "/data"))
      resultsPath := Path.ofText (text "HELR_RESULTS_PATH" (root ++ "/results"))
      dataset := Text.capitals (text "HELR_DATASET" "BMDB")
      logLevel := Text.capitals (text "LOG_LEVEL" "INFO")
      maxWorkers := maxWorkers
      strategy := Text.smalls (text "HELR_STRATEGY" "classic_cpu")
      seed? := seed?
      debug := Text.smalls (text "DEBUG_MODE" "false") == "true" }

/-- The levels that a setting may name. -/
def knownLevels : List String := ["DEBUG", "INFO", "WARNING", "ERROR", "CRITICAL"]

/-- Everything that is wrong with the settings. -/
def problems (s : Settings) : List String :=
  (if s.maxWorkers < 1 then ["MAX_WORKERS must be at least 1"] else []) ++
    (if s.seed?.any (· < 0) then ["HELR_ENGINE_SEED cannot be negative"] else []) ++
    (if knownLevels.contains s.logLevel then []
      else ["LOG_LEVEL must be one of " ++ (Value.texts knownLevels).quoted])

/-- Refuse settings with problems. -/
def validate (s : Settings) : Except Failure Unit :=
  match s.problems with
  | [] => .ok ()
  | problems => .error (.fault (.invalidSettings problems))

/-- The settings as a record. -/
def summary (s : Settings) : Value :=
  .record
    [("paths", .record
        [("data", .text s.dataPath.text), ("results", .text s.resultsPath.text)]),
      ("matching", .record [("dataset", .text s.dataset), ("strategy", .text s.strategy)]),
      ("execution", .record
        [("max_workers", .int s.maxWorkers), ("engine_seed", Value.ofOption (s.seed?.map .int))]),
      ("logging", .record [("level", .text s.logLevel), ("debug_mode", .bool s.debug)])]

end Settings

end SealedMatch
