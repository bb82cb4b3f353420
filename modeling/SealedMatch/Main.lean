/-
Module: SealedMatch.Main
Purpose: The command line program: words, variables and files in, texts and files out.
Trusted boundary: clock, memory readings, randomness and files of the machine
Main exports: main
-/
import SealedMatch.CommandLine.Execution
import SealedMatch.CommandLine.LogLevel
import Std.Time.DateTime.Timestamp

namespace SealedMatch

/-- The memory in use, in bytes, or zero where the machine does not tell. -/
def readMemory : IO Int := do
  match ← (IO.FS.readFile "/proc/self/statm").toBaseIO with
  | .ok text =>
    let pages := ((text.splitOn " ").drop 1).headD ""
    return (pages.toNat?.getD 0 : Nat) * 4096
  | .error _ => return 0

/-- A reading of the clock in seconds. -/
def readClock : IO Float := do
  let now ← IO.monoNanosNow
  return now.toFloat / 1000000000.0

/-- Carry out a process on the machine: before every action the session learns what clock and memory
show. -/
def carryOut {α : Type} : Process Session Failure α → Session → IO (Except Failure α × Session)
  | .done a, s => return (.ok a, s)
  | .fail f, s => return (.error f, s)
  | .step update next, s => do
    let clock : Clock := ⟨[← readClock], none⟩
    let s := { s with clock := clock, memory := [← readMemory] }
    carryOut (next s) (update s)

/-- Read those of the files that can be read. -/
def readFiles (files : FileTree) : List Path → IO FileTree
  | [] => return files
  | path :: rest => do
    match ← (IO.FS.readBinFile path.text).toBaseIO with
    | .error _ => readFiles files rest
    | .ok content =>
      let put := (files.makeDirectories path.parent).bind fun files =>
        files.write path content false
      readFiles (put.toOption.getD files) rest

/-- Write the files that were not there before. -/
def writeFiles (before : FileTree) : List (List String × FileEntry) → IO Unit
  | [] => return
  | (place, entry) :: rest => do
    match entry, before.entry? place with
    | .file content _, none =>
      IO.FS.createDirAll (Path.text ⟨"/", place.dropLast⟩)
      IO.FS.writeBinFile (Path.text ⟨"/", place⟩) content
    | _, _ => pure ()
    writeFiles before rest

/-- Print the warnings of a session, if warnings are shown at the level. -/
def printWarnings (level : String) (s : Session) : IO Unit := do
  if thresholdOf level ≤ Severity.warning.rank then
    for e in s.events do
      let fields := e.fields.map fun (name, v) => " " ++ name ++ "=" ++ v.quoted
      IO.eprintln ("[warning] " ++ e.message ++ String.join fields)

/-- An identifier for a verification that begins now. -/
def freshStamp : IO Stamp := do
  let now ← Std.Time.Timestamp.now
  let stamp := Timestamp.ofMicroseconds (now.toNanosecondsSinceUnixEpoch.toInt.toNat / 1000)
  let bytes ← IO.getRandomBytes 4
  let unique := bytes.toList.flatMap fun b => Text.hexDigits 2 b.toNat
  return ⟨verificationId "verify" stamp (String.ofList unique), stamp⟩

/-- A seed that nobody knows. -/
def freshSeed : IO Int := do
  let bytes ← IO.getRandomBytes 8
  return bytes.toList.foldl (fun n b => n * 256 + b.toNat) (0 : Nat)

/-- Tell a fault and end with 1. -/
def endWith (f : Failure) : IO UInt32 := do
  IO.eprintln f.message
  return 1

/-- Carry out a command. -/
def runInvocation (settings : Settings) (i : Invocation) : IO UInt32 := do
  let directory ← IO.currentDir
  let files ← readFiles (.empty (Path.ofText directory.toString).parts) i.command.inputs
  let desk : Desk := ⟨settings, files, ← freshStamp, ← freshSeed⟩
  let (result, session) ← carryOut (i.command.perform desk) .start
  printWarnings i.logLevel session
  match result with
  | .error f => endWith f
  | .ok o =>
    IO.print o.output
    IO.eprint o.errorOutput
    writeFiles files o.files.entries
    return UInt32.ofNat o.exitCode

end SealedMatch

/-- Read the command line and carry it out. -/
def main (words : List String) : IO UInt32 := do
  let environment ← SealedMatch.Settings.variableNames.mapM fun name => do
    return (name, ← IO.getEnv name)
  match SealedMatch.Settings.ofEnvironment (fun name => (environment.lookup name).join) "." with
  | .error f => SealedMatch.endWith f
  | .ok settings =>
    match SealedMatch.Invocation.read settings words with
    | .error .help =>
      IO.print SealedMatch.usage
      return 0
    | .error .misuse =>
      IO.eprint SealedMatch.usage
      return 2
    | .error (.failure f) => SealedMatch.endWith f
    | .ok i => SealedMatch.runInvocation settings i
