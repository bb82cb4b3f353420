/-
Module: SealedMatch.Matching.Matcher
Purpose: One authentication from the probe codes to the encrypted decision, and its verification.
Trusted boundary: none
Main exports: Matcher, Matcher.authenticate, Matcher.verify
-/
import SealedMatch.Matching.Strategy
import SealedMatch.Result.Verification

namespace SealedMatch

/-- What the protocol needs of the shared state beside an engine: a mark that an authentication
begins, and a clock. -/
structure Instruments (σ : Type) where
  begin : σ → σ
  now : σ → Float
  tick : σ → σ

/-- The instruments of a session. -/
def sessionInstruments : Instruments Session := ⟨Session.begin, Session.now, Session.tick⟩

/-- An engine and a strategy for using it. A matcher keeps nothing of an authentication. -/
structure Matcher (σ C B : Type) where
  engine : CipherEngine σ C B
  strategy : Strategy
  instruments : Instruments σ

/-- The outcome of an authentication: an encrypted truth value, the time it took, and the decrypted
intermediate values if they were asked for. -/
structure SealedDecision (C : Type) where
  ciphertext : C
  elapsedMs : Float
  trace? : Option Trace

namespace Matcher

variable {σ C B : Type} (m : Matcher σ C B)

/-- Every lookup must be small enough for one table evaluation. -/
def checkDomains (totalModulus : Nat) : List DigitLookup → Except Failure Unit
  | [] => pure ()
  | l :: rest => do
    let size ← l.codeCount
    if totalModulus < size then
      throw (.configuration (.tableTooWide l.feature size totalModulus))
    checkDomains totalModulus rest

/-- The digits of a template must be messages of the engine, and its tables must fit one
evaluation. -/
def requireCompatible (compiled : EnrolledTemplate) : Except Failure Unit :=
  if compiled.radix ≠ m.engine.messageModulus then
    .error (.configuration (.radixMismatch compiled.radix m.engine.messageModulus))
  else checkDomains m.engine.totalModulus compiled.lookups.flatten

/-- Read the clock, in one action. -/
def readClock : Process σ Failure Float := .fetch m.instruments.tick m.instruments.now

/-- Present a fault from outside as an engine failure during a step. Coded failures pass as they
are. -/
def containFailure (step : String) : Failure → Failure
  | .fault f => .engine (.during step f.message m.strategy.name)
  | coded => coded

/-- Contain the faults of a step. -/
def during {α : Type} (step : String) (p : Process σ Failure α) : Process σ Failure α :=
  p.mapError (m.containFailure step)

/-- The encrypted total so far, and the decrypted scores of the features added to it. -/
structure Sum (C : Type) where
  total : RadixInteger C
  values : List (Nat × Int)

/-- Widen the digits of a feature to the width of the sum, and add them to the total. -/
def addFeature (width : Int) (debug : Bool) (sum : Sum C) (feature : Nat × List C) :
    Process σ Failure (Sum C) :=
  m.during "sum" do
    let value ← m.engine.widen ⟨feature.2⟩ width
    if debug then
      let score ← m.engine.decryptInteger value
      let total ← m.engine.add sum.total value
      pure ⟨total, sum.values ++ [(feature.1, score)]⟩
    else
      let total ← m.engine.add sum.total value
      pure ⟨total, sum.values⟩

/-- Encrypt the codes of a plan, evaluate its lookups, and sum up the features. -/
def sumFeatures (plan : LookupPlan) (width : Int) (debug : Bool) (schedule : Schedule) :
    Process σ Failure (Sum C) := do
  let encrypted ← m.during "encrypt" (m.strategy.encrypt m.engine plan.codes)
  m.during "evaluate" do
    let zero ← m.engine.publicZero width
    m.strategy.arrangement.fold m.engine schedule plan encrypted (m.addFeature width debug)
      ⟨zero, []⟩

/-- The scores of all features in feature order, and the total. -/
def traceOf (plan : LookupPlan) (sum : Sum C) : Process σ Failure Trace := do
  let total ← m.engine.decryptInteger sum.total
  pure ⟨(List.range plan.featureCount).map fun f => (sum.values.lookup f).getD 0, total⟩

/-- Compare a probe with a compiled template under encryption. The inputs are checked before
anything is encrypted. With `debug`, intermediate values are decrypted, which needs the secret key
and gives up privacy. `schedule` orders the actions of the host's workers. -/
def authenticate (probe : List Int) (compiled : EnrolledTemplate) (debug : Bool)
    (schedule : Schedule) : Process σ Failure (SealedDecision C) := do
  .act m.instruments.begin
  .ofExcept (m.requireCompatible compiled)
  let plan ← .ofExcept (LookupPlan.build probe compiled)
  let started ← m.readClock
  let sum ← m.sumFeatures plan compiled.sumWidth debug schedule
  let decision ← m.during "compare" (m.engine.atLeast sum.total compiled.threshold)
  let stopped ← m.readClock
  let elapsed := (stopped - started) * 1000.0
  if debug then
    let trace ← m.traceOf plan sum
    pure ⟨decision, elapsed, some trace⟩
  else pure ⟨decision, elapsed, none⟩

/-- Authenticate and decrypt the decision. -/
def decide (probe : List Int) (compiled : EnrolledTemplate) (debug : Bool) (schedule : Schedule) :
    Process σ Failure (SealedDecision C × Bool) := do
  let decision ← m.authenticate probe compiled debug schedule
  let accepted ← m.engine.decryptTruth decision.ciphertext
  pure (decision, accepted)

/-- The result of a decision. -/
def resultOf (stamp : Stamp) (datasetName : String) (decision : SealedDecision C)
    (accepted : Bool) : Verification where
  id := stamp.id
  status := if accepted then .accept else .reject
  datasetName := datasetName
  strategy := m.strategy.name
  elapsedMs := decision.elapsedMs
  errorDetails? := none
  trace? := decision.trace?
  timestamp := stamp.now

/-- The result of an engine failure. -/
def failedResult (stamp : Stamp) (datasetName : String) (report : Report) : Verification where
  id := stamp.id
  status := .failed
  datasetName := datasetName
  strategy := m.strategy.name
  elapsedMs := 0.0
  errorDetails? := some report.toValue
  trace? := none
  timestamp := stamp.now

/-- Verify a probe against a compiled template. Engine failures become a failed result; inputs that
are refused stay failures. -/
def verify (stamp : Stamp) (probe : List Int) (compiled : EnrolledTemplate) (datasetName : String)
    (debug : Bool) (schedule : Schedule) : Process σ Failure Verification := do
  match ← (m.decide probe compiled debug schedule).attempt with
  | .ok (decision, accepted) => pure (m.resultOf stamp datasetName decision accepted)
  | .error failure =>
    match failure.engineReport? with
    | some report => pure (m.failedResult stamp datasetName report)
    | none => .fail failure

end Matcher

end SealedMatch
