/-
Module: SealedMatch.Store.ResultArchive
Purpose: Results written to files.
Trusted boundary: none
Main exports: ResultArchive, ResultArchive.saveVerification, ResultArchive.saveBenchmark
-/
import SealedMatch.Benchmark.Result
import SealedMatch.Policy.Configuration
import SealedMatch.Result.Verification
import SealedMatch.Store.FileTree
import SealedMatch.Value.Csv

namespace SealedMatch

/-- A step that writes files. What has been written stays even if a later step fails. -/
abbrev Filing (α : Type) := ExceptT Failure (StateM FileTree) α

/-- Where and how results are written. -/
structure ResultArchive where
  directory : Path
  /-- Whether JSON files are compressed. -/
  compress : Bool
  /-- The time written into files and file names. -/
  now : Timestamp

namespace ResultArchive

variable (a : ResultArchive)

/-- Perform an operation that may change the files. -/
def onFiles (change : FileTree → Except Fault FileTree) : Filing Unit := do
  match change (← get) with
  | .ok files => set files
  | .error fault => throw (.fault fault)

/-- Write a text to a file. -/
def writeText (path : Path) (text : String) (compressed : Bool) : Filing Unit :=
  onFiles fun files => files.write path (Text.encodeUtf8 text) compressed

/-- A path with another suffix. -/
def resuffixed (path : Path) (suffix : String) : Filing Path :=
  match path.withSuffix? suffix with
  | some path => pure path
  | none => throw (.fault (.emptyFileName path.text))

/-- Write a value as JSON and tell the path of the file. A compressed file has one more suffix. -/
def fileJson (data : Value) (path : Path) : Filing Path := do
  onFiles fun files => files.makeDirectories path.parent
  let text := data.pretty false
  if a.compress then
    let packed ← resuffixed path (path.suffix ++ ".gz")
    writeText packed text true
    pure packed
  else
    writeText path text false
    pure path

/-- Write records as a spreadsheet; without records no file is written. -/
def fileCsv (rows : List Record) (path : Path) : Filing Path := do
  if rows.isEmpty then pure path
  else
    onFiles fun files => files.makeDirectories path.parent
    writeText path (csvDocument rows) false
    pure path

/-- A file name with the time in it. -/
def stampedName (base : String) : String := base ++ "_" ++ a.now.compact ++ ".json"

/-- What stands at the head of every result file. -/
def metadata (c : MatchPolicy) : Value :=
  .record
    [("logging_timestamp", .text a.now.iso), ("configuration", .record c.toRecord),
      ("results_version", .text "1.0")]

/-- Write the result of a verification, under a given name if there is one. -/
def saveVerification (r : Verification) (c : MatchPolicy) (name? : Option String) :
    Filing Path :=
  let given := name?.getD ""
  let name := if given.isEmpty then a.stampedName ("verification_" ++ r.id) else given
  a.fileJson (.record [("metadata", a.metadata c), ("result", .record r.toRecord)])
    (a.directory.child name)

/-- How the names of benchmark files begin. -/
def benchmarkBase : String := "strategy_benchmarks"

/-- Write the results of a benchmark as JSON and as a spreadsheet. -/
def saveBenchmark (results : List (String × StrategyResult)) (c : MatchPolicy)
    (base : String) : Filing Path := do
  let path := a.directory.child (a.stampedName base)
  let rows := results.map fun entry => entry.2.toRecord
  let saved ← a.fileJson
    (.record [("metadata", a.metadata c), ("strategies", .list (rows.map .record))]) path
  let sheet ← resuffixed path ".csv"
  let _ ← fileCsv rows sheet
  pure saved

end ResultArchive

end SealedMatch
