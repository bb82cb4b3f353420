/-
Module: SealedMatch.Result.Verification
Purpose: What a verification tells its caller.
Trusted boundary: none
Main exports: Verdict, Trace, Verification, verificationId
-/
import SealedMatch.Result.Timestamp

namespace SealedMatch

/-- The outcome of a verification: a decision, or a fault of the engine. -/
inductive Verdict where
  | accept
  | reject
  | failed
deriving DecidableEq, Repr

namespace Verdict

def name : Verdict → String
  | accept => "accept"
  | reject => "reject"
  | failed => "failed"

def ofName? (s : String) : Option Verdict :=
  if s = "accept" then some accept
  else if s = "reject" then some reject
  else if s = "failed" then some failed
  else none

theorem ofName?_name (s : Verdict) : ofName? s.name = some s := by
  cases s <;> decide

end Verdict

/-- Decrypted intermediate values: the score of each feature, and their sum. -/
structure Trace where
  featureValues : List Int
  total : Int
deriving DecidableEq

/-- The trace as a record. -/
def Trace.toValue (t : Trace) : Value :=
  .record [("feature_values", .ints t.featureValues), ("total", .int t.total)]

/-- The result of one verification. -/
structure Verification where
  id : String
  status : Verdict
  datasetName : String
  strategy : String
  elapsedMs : Float
  errorDetails? : Option Value
  trace? : Option Trace
  timestamp : Timestamp

namespace Verification

def accepted (r : Verification) : Bool := r.status = .accept

def isFailed (r : Verification) : Bool := r.status = .failed

/-- The result as a record. -/
def toRecord (r : Verification) : Record :=
  [("verification_id", .text r.id), ("status", .text r.status.name),
    ("dataset_name", .text r.datasetName), ("strategy", .text r.strategy),
    ("elapsed_ms", .float r.elapsedMs), ("error_details", Value.ofOption r.errorDetails?),
    ("trace", Value.ofOption (r.trace?.map (·.toValue))), ("timestamp", .text r.timestamp.iso),
    ("accepted", .bool r.accepted)]

end Verification

/-- The identifier of a verification: a prefix, the time, and the first eight characters of a
unique text. -/
def verificationId (start : String) (now : Timestamp) (unique : String) : String :=
  start ++ "_" ++ now.compact ++ "_" ++ String.ofList (unique.toList.take 8)

/-- What marks a verification: its identifier, and the time of its result. -/
structure Stamp where
  id : String
  now : Timestamp

end SealedMatch
