/-
Module: SealedMatch.Failure.Report
Purpose: What a caller sees of a coded failure.
Trusted boundary: none
Main exports: FailureKind, Report, Report.text, Report.toValue
-/
import SealedMatch.Value.Text

namespace SealedMatch

/-- The families of coded failures. -/
inductive FailureKind where
  | general
  /-- Classifier inputs that are missing, unreadable or of the wrong shape. -/
  | malformedInput
  /-- A classifier file that does not exist. -/
  | tableNotFound
  /-- A code outside a compiled table. -/
  | domainViolation
  /-- A fault of the evaluation engine. -/
  | engineFailure
  /-- An unusable configuration. -/
  | configuration
  /-- A benchmark without a single measurement. -/
  | benchmark
deriving DecidableEq, Repr

namespace FailureKind

/-- The name of a family in reports. -/
def name : FailureKind → String
  | general => "HelrVerifyError"
  | malformedInput => "MalformedInputError"
  | tableNotFound => "TableNotFoundError"
  | domainViolation => "DomainViolationError"
  | engineFailure => "EngineFailureError"
  | configuration => "ConfigurationError"
  | benchmark => "BenchmarkError"

/-- The families a family belongs to, itself first. -/
def ancestry : FailureKind → List FailureKind
  | general => [general]
  | tableNotFound => [tableNotFound, malformedInput, general]
  | kind => [kind, general]

/-- The code of a family; the general one has none. -/
def code : FailureKind → Value
  | general => .null
  | malformedInput => .text "INPUT_001"
  | tableNotFound => .text "INPUT_002"
  | domainViolation => .text "DOMAIN_001"
  | engineFailure => .text "ENGINE_001"
  | configuration => .text "CONFIG_001"
  | benchmark => .text "BENCH_001"

def all : List FailureKind :=
  [general, malformedInput, tableNotFound, domainViolation, engineFailure, configuration,
    benchmark]

def ofName? (s : String) : Option FailureKind := all.find? (·.name == s)

end FailureKind

/-- A failure as it is shown and logged. The code is a text unless a caller outside chose another
one. -/
structure Report where
  kind : FailureKind
  message : String
  code : Value
  context : Record

namespace Report

/-- The message, then the code and the context in brackets where there are any. -/
def text (r : Report) : String :=
  let code := if r.code.truthy then ["[Error Code: " ++ r.code.display ++ "]"] else []
  let context :=
    if r.context.isEmpty then []
    else
      let items := r.context.map fun field => field.1 ++ "=" ++ field.2.display
      ["[Context: " ++ ", ".intercalate items ++ "]"]
  " ".intercalate (r.message :: code ++ context)

/-- The report as a record. -/
def toValue (r : Report) : Value :=
  .record
    [("error_type", .text r.kind.name), ("message", .text r.message),
      ("error_code", r.code), ("context", .record r.context)]

/-- A failure of no particular family. -/
def general (message : String) (context : Record) (code : Value) : Report :=
  ⟨.general, message, code, context⟩

/-- A malformed input; the file path is added if one is given. -/
def malformedInput (message : String) (context : Record) (file? : Option Value)
    (code : Value) : Report :=
  ⟨.malformedInput, message, code, context.set? "file_path" (file?.filter Value.truthy)⟩

/-- A missing classifier file of a given type. -/
def tableNotFound (file : Value) (type : Value) : Report :=
  let context := Record.set? [("table_type", type)] "file_path" (some file |>.filter Value.truthy)
  ⟨.tableNotFound, "Classifier input not found: " ++ file.display,
    FailureKind.tableNotFound.code, context⟩

/-- A code outside a table, with the feature, the code and the number of codes where known. -/
def domainViolation (message : String) (context : Record) (feature? given? size? : Option Value)
    (code : Value) : Report :=
  let context := context.set? "feature_index" feature?
  let context := context.set? "code" given?
  ⟨.domainViolation, message, code, context.set? "domain_size" size?⟩

/-- An engine fault, with the operation and the strategy where known. -/
def engineFailure (message : String) (context : Record) (operation? strategy? : Option Value)
    (code : Value) : Report :=
  let context := context.set? "engine_operation" (operation?.filter Value.truthy)
  ⟨.engineFailure, message, code, context.set? "strategy" (strategy?.filter Value.truthy)⟩

/-- An unusable setting, with its name and its value where known. -/
def configuration (message : String) (context : Record) (key? value? : Option Value)
    (code : Value) : Report :=
  let context := context.set? "config_key" (key?.filter Value.truthy)
  ⟨.configuration, message, code, context.set? "config_value" value?⟩

/-- A strategy that yielded no measurement. -/
def benchmark (message : String) (strategy : Value) (code : Value) : Report :=
  ⟨.benchmark, message, code, [("strategy", strategy)]⟩

end Report

end SealedMatch
