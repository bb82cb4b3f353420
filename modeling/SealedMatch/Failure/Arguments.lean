/-
Module: SealedMatch.Failure.Arguments
Purpose: Reports made from named values that a caller outside hands in.
Trusted boundary: none
Main exports: Signature, Signature.check, Report.ofArguments
-/
import SealedMatch.Failure.Fault
import SealedMatch.Failure.Report

namespace SealedMatch

/-- The names of the values that something is made from. -/
structure Signature where
  owner : String
  /-- The values that must be given. -/
  required : List String
  /-- The values that may be given beside them; `none` if any may. -/
  optional? : Option (List String)

namespace Signature

/-- Whether a value of a name may be given. -/
def admits (s : Signature) (name : String) : Bool :=
  match s.optional? with
  | none => true
  | some names => s.required.contains name || names.contains name

/-- The fault of a given name, if there is one. The owner itself is given already. -/
def faultOf? (s : Signature) (name : String) : Option Fault :=
  if name == "self" then some (.repeatedArgument s.owner name)
  else if s.admits name then none
  else some (.unknownArgument s.owner name)

/-- Check the names in their order, then that none is missing. -/
def check (s : Signature) (arguments : Record) : Except Fault Unit :=
  match arguments.findSome? fun argument => s.faultOf? argument.1 with
  | some fault => .error fault
  | none =>
    match s.required.filter fun name => !arguments.any (·.1 == name) with
    | [] => .ok ()
    | missing => .error (.missingArguments s.owner missing)

end Signature

/-- What a report of a family is made from. -/
def FailureKind.signature (kind : FailureKind) : Signature :=
  match kind with
  | general => ⟨kind.name, ["message"], some ["context", "error_code"]⟩
  | tableNotFound => ⟨kind.name, ["file_path"], some ["table_type"]⟩
  | benchmark => ⟨kind.name, ["message", "strategy"], none⟩
  | _ => ⟨kind.name, ["message"], none⟩

namespace Report

/-- Add facts to the context that is given. A context that is no record will do if it counts as not
given and there is nothing to add. -/
def extendContext (given : Value) (facts : Record) : Except Fault Record :=
  match given with
  | .record fields => .ok (facts.foldl (fun context fact => context.set fact.1 fact.2) fields)
  | .list items =>
    if !facts.isEmpty then .error (.notAListIndex "str")
    else if items.isEmpty then .ok []
    else .error (.noAttribute given.typeName "items")
  | v =>
    if !facts.isEmpty then .error (.notAssignable v.typeName)
    else if v.truthy then .error (.noAttribute v.typeName "items")
    else .ok []

/-- The report of a family with nothing in its context but what the family itself puts there. -/
def ofFacts (kind : FailureKind) (message : String) (arguments : Record) : Report :=
  let given? (name : String) : Option Value :=
    (arguments.lookup name).filter fun v => match v with
      | .null => false
      | _ => true
  let code := (arguments.lookup "error_code").getD kind.code
  match kind with
  | .general => .general message [] code
  | .malformedInput => .malformedInput message [] (given? "file_path") code
  | .tableNotFound =>
    .tableNotFound ((arguments.lookup "file_path").getD .null)
      ((arguments.lookup "table_type").getD (.text "unknown"))
  | .domainViolation =>
    .domainViolation message [] (given? "feature_index") (given? "code") (given? "domain_size")
      code
  | .engineFailure =>
    .engineFailure message [] (given? "operation") (given? "strategy") code
  | .configuration =>
    .configuration message [] (given? "config_key") (given? "config_value") code
  | .benchmark => .benchmark message ((arguments.lookup "strategy").getD .null) code

/-- Make a report of a family from named values. Families with facts of their own only keep no given
context; the message must be a text, which is found out last. -/
def ofArguments (kind : FailureKind) (arguments : Record) : Except Fault Report := do
  kind.signature.check arguments
  let message := (arguments.lookup "message").getD (.text "")
  let report := ofFacts kind message.display arguments
  let context ←
    if kind = .tableNotFound ∨ kind = .benchmark then pure report.context
    else extendContext ((arguments.lookup "context").getD (.record [])) report.context
  match message with
  | .text _ => pure { report with context := context }
  | v => throw (.notAText v.typeName)

end Report

end SealedMatch
