/-
Module: SealedMatch.Benchmark.Memory
Purpose: The peak of the memory in use during an operation.
Trusted boundary: none
Main exports: MemoryProfile
-/
import SealedMatch.Engine.Session
import SealedMatch.Failure.Cause
import SealedMatch.Process.Basic

namespace SealedMatch

/-- Memory in use, in megabytes, at the start and at most. -/
structure MemoryProfile where
  initial : Float
  peak : Float

namespace MemoryProfile

/-- Bytes in megabytes, by way of kilobytes, whose number must be a real. -/
def megabytes (bytes : Int) : Except Fault Float :=
  let kilobytes := Decimal.nearestDouble (bytes < 0) bytes.natAbs (2 ^ 10)
  if kilobytes.isInf then .error .quotientTooLarge else .ok (kilobytes / 1024.0)

/-- Take a reading, in one action. -/
def reading : Process Session Failure Float := do
  let bytes ← .fetch Session.pastMemory (·.memoryInUse)
  .ofExcept ((megabytes bytes).mapError .fault)

/-- Begin with a reading. -/
def enter : Process Session Failure MemoryProfile := do
  let now ← reading
  pure ⟨now, now⟩

/-- Take another reading into account. -/
def update (m : MemoryProfile) : Process Session Failure MemoryProfile := do
  let now ← reading
  pure { m with peak := if m.peak < now then now else m.peak }

/-- Perform a process between two readings; the second is taken also if the process fails. -/
def around {α : Type} (p : Process Session Failure α) :
    Process Session Failure (α × MemoryProfile) := do
  let m ← enter
  let outcome ← p.attempt
  let m ← m.update
  let a ← .ofExcept outcome
  pure (a, m)

end MemoryProfile

end SealedMatch
