/-
Module: SealedMatch.Matching.Provision
Purpose: The engine that a strategy runs on.
Trusted boundary: none
Main exports: Strategy.provide, SimulatedEngine.matcher
-/
import SealedMatch.Matching.Matcher

namespace SealedMatch

/-- Build the engine of a strategy for a configuration. Reduced assurance is refused before anything
is built, unless it is allowed. -/
def Strategy.provide (s : Strategy) (c : MatchPolicy) (seed : Int)
    (allow : Bool) (guard : EngineCall → Process Session Failure Unit)
    (tapeOf : LweParameters → UInt64 → Tape := SimulatedEngine.seededTape) :
    Process Session Failure SimulatedEngine := do
  let events ← .ofExcept (s.requireAssurance c allow)
  .act (Session.warn events)
  let p ← .ofExcept (s.parameters c)
  SimulatedEngine.launch p seed guard tapeOf

/-- The matcher of a strategy on a simulated engine. -/
def SimulatedEngine.matcher (e : SimulatedEngine) (s : Strategy) :
    Matcher Session LweBlock LweBatch :=
  ⟨e.engine, s, sessionInstruments⟩

end SealedMatch
