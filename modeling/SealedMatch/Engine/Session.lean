/-
Module: SealedMatch.Engine.Session
Purpose: The state that an engine, its authentications and their observers share.
Trusted boundary: none
Main exports: Clock, Session
-/
import SealedMatch.Engine.Operation
import SealedMatch.Event
import SealedMatch.Process.Tally

namespace SealedMatch

/-- Readings of a clock in seconds: given ones first, then each a sixty-fourth of a second after the
one before. -/
structure Clock where
  pending : List Float
  last? : Option Float

namespace Clock

/-- A clock without given readings. -/
def start : Clock := ⟨[], none⟩

/-- What the next reading shows. -/
def reading (c : Clock) : Float :=
  match c.pending with
  | t :: _ => t
  | [] =>
    match c.last? with
    | some t => t + 0.015625
    | none => 0.0

/-- The clock after a reading. -/
def tick (c : Clock) : Clock := ⟨c.pending.drop 1, some c.reading⟩

end Clock

/-- The shared state: how far the tape has been used, what has been counted, which operations have
been called, how many authentications have begun, and the instruments of the observers. -/
structure Session where
  position : Nat
  counts : Tally CountedOperation
  calls : Tally EngineOperation
  authentications : Nat
  clock : Clock
  events : List Event
  /-- Memory readings still to come, in bytes. -/
  memory : List Int

namespace Session

/-- Nothing has happened yet. -/
def start : Session := ⟨0, .empty, .empty, 0, .start, [], []⟩

/-- Record operations. -/
def count (op : CountedOperation) (n : Nat) (s : Session) : Session :=
  { s with counts := s.counts.add op n }

/-- Move past words of the tape. -/
def advance (n : Nat) (s : Session) : Session := { s with position := s.position + n }

/-- Record a call of an engine operation. -/
def called (op : EngineOperation) (s : Session) : Session :=
  { s with calls := s.calls.add op 1 }

/-- Record the beginning of an authentication. -/
def begin (s : Session) : Session := { s with authentications := s.authentications + 1 }

/-- Move the clock on by one reading. -/
def tick (s : Session) : Session := { s with clock := s.clock.tick }

/-- What the clock shows. -/
def now (s : Session) : Float := s.clock.reading

/-- Append warnings. -/
def warn (events : List Event) (s : Session) : Session := { s with events := s.events ++ events }

/-- The memory in use, in bytes: the next reading, or sixty-four megabytes when none is left. -/
def memoryInUse (s : Session) : Int := s.memory.headD 67108864

/-- Move past a memory reading. -/
def pastMemory (s : Session) : Session := { s with memory := s.memory.drop 1 }

/-- The session as a new engine finds it: tape, counters and calls start afresh, while the clock,
the warnings and the memory go on. -/
def renew (position : Nat) (s : Session) : Session :=
  { s with position := position, counts := .empty, calls := .empty, authentications := 0 }

end Session

end SealedMatch
