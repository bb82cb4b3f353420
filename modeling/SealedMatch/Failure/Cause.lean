/-
Module: SealedMatch.Failure.Cause
Purpose: The causes of coded failures and their reports.
Trusted boundary: none
Main exports: ConfigurationFault, InputFault, DomainFault, EngineFault, Failure, Failure.report?
-/
import SealedMatch.Engine.KeyLabel
import SealedMatch.Engine.Operation
import SealedMatch.Engine.Place
import SealedMatch.Failure.Fault
import SealedMatch.Failure.Report
import SealedMatch.Table.ElementType

namespace SealedMatch

/-- Why a configuration cannot be used. -/
inductive ConfigurationFault where
  | blankDatasetName (given : Value)
  | blockLengthOutOfRange (given : Int)
  | blockCountOutOfRange (given : Int)
  | sumTooNarrow (given : Int)
  | noFeatures (given : Int)
  | negativeThreshold (given : Int)
  | unknownPreset (name : String) (available : List String)
  | unknownStrategy (name : String) (available : List String)
  /-- No engine parameters for digits of this many bits. -/
  | noParameters (blockLength : Int)
  /-- Mixed scheduling with both steps in one place. -/
  | samePlace (place : Place)
  /-- A combination below the security target that was not allowed. -/
  | reducedAssurance (strategy dataset : String) (blockLength : Nat)
  /-- The digits of a template do not fit the engine's message space. -/
  | radixMismatch (compiled : Int) (messageModulus : Nat)
  /-- A table with more probe codes than one table evaluation can index. -/
  | tableTooWide (feature : Int) (codeCount totalModulus : Nat)

/-- What can be wrong with classifier inputs and codes. -/
inductive InputFault where
  | raggedTable (feature : Nat)
  | tableNotFlat (shape : List Nat) (feature : Nat)
  | entriesNotIntegers (type : ElementType) (feature : Nat)
  | tableCountMismatch (tables : Nat) (features : Nat) (dataset : String)
  | templateLengthMismatch (template tables : Nat)
  | probeLengthMismatch (probe features : Nat)
  | tooManyBins (bins : Nat)
  | missingFile (path type : String)
  | unreadableBin (token path : String)
  | unreadableTable (type detail path : String)
  | noFeatureColumn (path : String)
  | sampleBeforeFirst (sample : Int) (path : String)
  | featureCountMismatch (sample : Int) (features expected : Nat)

/-- A code without an entry in a compiled table. -/
inductive DomainFault where
  | templateCode (feature : Nat) (code : Int) (rows : Nat)
  | probeCode (feature : Int) (code : Int) (codeCount : Nat)

/-- What can go wrong inside an evaluation engine. -/
inductive EngineFault where
  | outsideMessageSpace (totalModulus : Nat) (least greatest : Int)
  | wrongKey (given expected : KeyLabel) (operation : EngineOperation)
  | lookupCountMismatch (lookups batch : Nat)
  | emptyBatch
  | mixedKeys (keys : List String)
  | widerThanRequested (width : Nat) (requested : Int)
  | widthsDiffer (left right : Nat)
  /-- A fault from outside, met during a step of an authentication. -/
  | during (step message strategy : String)

/-- Why an operation ended without a result. -/
inductive Failure where
  | configuration (cause : ConfigurationFault)
  | input (cause : InputFault)
  | domain (cause : DomainFault)
  | engine (cause : EngineFault)
  /-- No run of a strategy's benchmark succeeded. -/
  | benchmark (strategy : String)
  /-- A coded failure raised elsewhere and known by its report. -/
  | reported (report : Report)
  /-- A fault outside the coded families. -/
  | fault (fault : Fault)

namespace ConfigurationFault

/-- The report of an unusable configuration. -/
def report (cause : ConfigurationFault) : Report :=
  let about (message key : String) (value? : Option Value) (context : Record) : Report :=
    .configuration message context (some (.text key)) value? FailureKind.configuration.code
  match cause with
  | blankDatasetName given =>
    let value? := match given with
      | .null => none
      | v => some v
    about "dataset_name must be a non-empty string" "dataset_name" value? []
  | blockLengthOutOfRange given =>
    about "block_length must be in [1, 4]" "block_length" (some (.int given)) []
  | blockCountOutOfRange given =>
    about "block_count must be in [1, 16]" "block_count" (some (.int given)) []
  | sumTooNarrow given =>
    about "sum_width must be at least block_count" "sum_width" (some (.int given)) []
  | noFeatures given =>
    about "number_of_features must be positive" "number_of_features" (some (.int given)) []
  | negativeThreshold given =>
    about "threshold must be non-negative" "threshold" (some (.int given)) []
  | unknownPreset name available =>
    about ("Unknown preset '" ++ name ++ "'. Available: " ++ (Value.texts available).quoted)
      "preset" (some (.text name)) []
  | unknownStrategy name available =>
    about ("Unknown strategy '" ++ name ++ "'. Available: " ++ (Value.texts available).quoted)
      "strategy" (some (.text name)) []
  | noParameters blockLength =>
    about ("No parameter set for " ++ toString blockLength ++ "-bit digits") "block_length"
      (some (.int blockLength)) []
  | samePlace place =>
    about "Mixed scheduling needs distinct placements" "placement" (some (.text place.name)) []
  | reducedAssurance strategy dataset blockLength =>
    about
      ("Strategy '" ++ strategy ++ "' with " ++ toString blockLength ++
        "-bit digits uses parameters below the security target; pass " ++
        "allow_reduced_assurance=True to run it anyway")
      "strategy" (some (.text strategy)) [("dataset_name", .text dataset)]
  | radixMismatch compiled messageModulus =>
    about "Compiled radix does not match engine message modulus" "block_length"
      (some (.int compiled)) [("message_modulus", .nat messageModulus)]
  | tableTooWide feature codeCount totalModulus =>
    about "Score table has more probe codes than one table evaluation can index" "block_length" none
      [("feature_index", .int feature), ("domain_size", .nat codeCount),
        ("total_modulus", .nat totalModulus)]

end ConfigurationFault

namespace InputFault

/-- The report of a malformed input. -/
def report (cause : InputFault) : Report :=
  let plain (message : String) (context : Record) : Report :=
    .malformedInput message context none FailureKind.malformedInput.code
  let inFile (message path : String) : Report :=
    .malformedInput message [] (some (.text path)) FailureKind.malformedInput.code
  match cause with
  | raggedTable feature =>
    plain "Score table must be a non-empty table with uniform row length"
      [("feature_index", .nat feature)]
  | tableNotFlat shape feature =>
    plain ("Score table must be 2-D, got shape " ++ shapeText shape)
      [("feature_index", .nat feature)]
  | entriesNotIntegers type feature =>
    plain ("Score table entries must be integers, got dtype " ++ type.name)
      [("feature_index", .nat feature)]
  | tableCountMismatch tables features dataset =>
    plain "Number of score tables does not match configuration"
      [("table_count", .nat tables), ("number_of_features", .nat features),
        ("dataset_name", .text dataset)]
  | templateLengthMismatch template tables =>
    plain "Template length does not match number of score tables"
      [("template_length", .nat template), ("table_count", .nat tables)]
  | probeLengthMismatch probe features =>
    plain "Probe length does not match number of compiled features"
      [("probe_length", .nat probe), ("feature_count", .nat features)]
  | tooManyBins bins =>
    plain (toString bins ++ " quantization bins do not fit one-byte codes")
      [("bin_count", .nat bins), ("max_code", .nat 255)]
  | missingFile path type => .tableNotFound (.text path) (.text type)
  | unreadableBin token path => inFile ("Unparseable quantization bin '" ++ token ++ "'") path
  | unreadableTable type detail path => inFile ("Unparseable " ++ type ++ " file: " ++ detail) path
  | noFeatureColumn path => inFile "Dataset rows need an identifier and at least one feature" path
  | sampleBeforeFirst sample path =>
    inFile ("Sample identifiers start at 1, got " ++ toString sample) path
  | featureCountMismatch sample features expected =>
    plain "Sample feature count does not match configuration"
      [("sample_id", .int sample), ("features", .nat features),
        ("number_of_features", .nat expected)]

end InputFault

namespace DomainFault

/-- The report of a code outside a table. -/
def report (cause : DomainFault) : Report :=
  let about (message : String) (feature code : Int) (size : Nat) : Report :=
    .domainViolation message [] (some (.int feature)) (some (.int code)) (some (.nat size))
      FailureKind.domainViolation.code
  match cause with
  | templateCode feature code rows =>
    about ("Template code " ++ toString code ++ " outside score table rows") feature code rows
  | probeCode feature code codeCount =>
    about ("Probe code " ++ toString code ++ " outside lookup domain") feature code codeCount

end DomainFault

namespace EngineFault

/-- The report of an engine fault. -/
def report (cause : EngineFault) : Report :=
  let about (message operation : String) (strategy? : Option Value) (context : Record) : Report :=
    .engineFailure message context (some (.text operation)) strategy?
      FailureKind.engineFailure.code
  match cause with
  | outsideMessageSpace totalModulus least greatest =>
    about "Plaintext outside engine message space" "encrypt" none
      [("total_modulus", .nat totalModulus), ("min_value", .int least),
        ("max_value", .int greatest)]
  | wrongKey given expected operation =>
    about ("Ciphertext under " ++ given.name ++ " key passed to " ++ operation.name)
      operation.name none [("expected_key", .text expected.name)]
  | lookupCountMismatch lookups batch =>
    about "Lookup count does not match batch length" "bootstrap_batch" none
      [("lookups", .nat lookups), ("batch_length", .nat batch)]
  | emptyBatch => about "Cannot batch an empty ciphertext list" "to_batch" none []
  | mixedKeys keys =>
    about "Cannot batch ciphertexts under different keys" "to_batch" none
      [("keys", .texts keys)]
  | widerThanRequested width requested =>
    about "Radix integer wider than requested width" "extend_with_trivial_zeros" none
      [("width", .nat width), ("requested_width", .int requested)]
  | widthsDiffer left right =>
    about "Radix operands have different widths" "add" none
      [("lhs_width", .nat left), ("rhs_width", .nat right)]
  | during step message strategy =>
    about ("Engine failed during " ++ step ++ ": " ++ message) step (some (.text strategy)) []

end EngineFault

namespace Failure

/-- The report of a coded failure. -/
def report? : Failure → Option Report
  | configuration cause => some cause.report
  | input cause => some cause.report
  | domain cause => some cause.report
  | engine cause => some cause.report
  | benchmark strategy =>
    some (.benchmark ("All benchmark runs failed for " ++ strategy) (.text strategy)
      FailureKind.benchmark.code)
  | reported report => some report
  | fault _ => none

/-- The report of an engine failure, if this is one. -/
def engineReport? (f : Failure) : Option Report :=
  f.report?.filter fun r => r.kind == .engineFailure

/-- An integer as people write it. -/
def readInteger (s : String) : Except Failure Int :=
  (Decimal.liberal.readInteger s.toList).mapError fun defect => fault (.ofNumeral s defect)

/-- The wording of a failure. -/
def message : Failure → String
  | fault f => f.message
  | f => (f.report?.map (·.message)).getD ""

end Failure

end SealedMatch
