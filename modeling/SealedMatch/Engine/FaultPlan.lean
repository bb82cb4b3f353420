/-
Module: SealedMatch.Engine.FaultPlan
Purpose: Engine faults at chosen calls, to see what an authentication makes of them.
Trusted boundary: none
Main exports: PlannedFault, FaultPlan.guard
-/
import SealedMatch.Engine.Simulated

namespace SealedMatch

/-- A failure of an operation at every call that meets all given conditions. -/
structure PlannedFault where
  operation : EngineOperation
  failure : Failure
  /-- The number of the authentication, from zero; minus one before the first. -/
  run? : Option Int
  /-- The number of the call of this operation, from one. -/
  call? : Option Int
  /-- The feature of the lookup that is given. -/
  feature? : Option Int
  /-- The digit of the lookup that is given. -/
  block? : Option Int

namespace PlannedFault

/-- A condition is met if it is absent or names the value. -/
def meets (condition? : Option Int) (value? : Option Int) : Bool :=
  match condition? with
  | none => true
  | some _ => condition? == value?

/-- Whether the fault strikes a call in a session that has not yet recorded the call. -/
def strikes (f : PlannedFault) (call : EngineCall) (s : Session) : Bool :=
  f.operation = call.operation &&
    meets f.run? (some ((s.authentications : Int) - 1)) &&
    meets f.call? (some ((s.calls.count call.operation : Int) + 1)) &&
    meets f.feature? (call.lookup?.map (·.feature)) &&
    meets f.block? (call.lookup?.map (·.block))

end PlannedFault

/-- Record every call, and fail those that a planned fault strikes. A plan without faults is
silent. -/
def FaultPlan.guard (plan : List PlannedFault) (call : EngineCall) :
    Process Session Failure Unit :=
  if plan.isEmpty then .done ()
  else
    .step (Session.called call.operation) fun s =>
      match plan.find? fun f => f.strikes call s with
      | some f => .fail f.failure
      | none => .done ()

end SealedMatch
