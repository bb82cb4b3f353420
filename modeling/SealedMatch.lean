import SealedMatch.Benchmark.Benchmarker
import SealedMatch.Benchmark.Memory
import SealedMatch.Benchmark.Result
import SealedMatch.Benchmark.Statistics
import SealedMatch.CommandLine.Command
import SealedMatch.CommandLine.Execution
import SealedMatch.CommandLine.Help
import SealedMatch.CommandLine.LogLevel
import SealedMatch.CommandLine.Options
import SealedMatch.CommandLine.Settings
import SealedMatch.Decimal.Binary64
import SealedMatch.Decimal.Numeral
import SealedMatch.Decimal.Places
import SealedMatch.Decimal.Shortest
import SealedMatch.Engine.Ciphertext
import SealedMatch.Engine.FaultPlan
import SealedMatch.Engine.Given
import SealedMatch.Engine.Interface
import SealedMatch.Engine.KeyLabel
import SealedMatch.Engine.Operation
import SealedMatch.Engine.Parameters
import SealedMatch.Engine.Place
import SealedMatch.Engine.Program
import SealedMatch.Engine.Session
import SealedMatch.Engine.Simulated
import SealedMatch.Engine.Tape
import SealedMatch.Event
import SealedMatch.Failure.Arguments
import SealedMatch.Failure.Cause
import SealedMatch.Failure.Fault
import SealedMatch.Failure.Report
import SealedMatch.Main
import SealedMatch.Matching.Matcher
import SealedMatch.Matching.Plan
import SealedMatch.Matching.Provision
import SealedMatch.Matching.Regroup
import SealedMatch.Matching.Strategy
import SealedMatch.Packed.Bzip2
import SealedMatch.Packed.Checksum
import SealedMatch.Packed.Defect
import SealedMatch.Packed.Deflate
import SealedMatch.Packed.Format
import SealedMatch.Packed.Gzip
import SealedMatch.Packed.Lzma
import SealedMatch.Packed.PrefixCode
import SealedMatch.Packed.Source
import SealedMatch.Packed.Xz
import SealedMatch.Policy.Configuration
import SealedMatch.Policy.Preset
import SealedMatch.Power
import SealedMatch.Process.Basic
import SealedMatch.Process.Interleave
import SealedMatch.Process.Tally
import SealedMatch.Radix.Digits
import SealedMatch.Result.Timestamp
import SealedMatch.Result.Verification
import SealedMatch.Store.Bins
import SealedMatch.Store.Classifier
import SealedMatch.Store.FileTree
import SealedMatch.Store.NumberGrid
import SealedMatch.Store.Path
import SealedMatch.Store.Provider
import SealedMatch.Store.ResultArchive
import SealedMatch.Table.Capacity
import SealedMatch.Table.ElementType
import SealedMatch.Table.Extent
import SealedMatch.Table.Nested
import SealedMatch.Table.Score
import SealedMatch.Table.Tensor
import SealedMatch.Template.Compiler
import SealedMatch.Template.Lookup
import SealedMatch.Text.Blank
import SealedMatch.Text.Case
import SealedMatch.Text.CaseProperty
import SealedMatch.Text.CaseTable
import SealedMatch.Text.DecimalDigit
import SealedMatch.Text.Directive
import SealedMatch.Text.Lines
import SealedMatch.Text.Printable
import SealedMatch.Text.Quoted
import SealedMatch.Text.Utf8
import SealedMatch.Value.Basic
import SealedMatch.Value.Csv
import SealedMatch.Value.Json
import SealedMatch.Value.Text
import SealedMatch.Proofs.Process.Always
import SealedMatch.Proofs.Process.Interleave
import SealedMatch.Proofs.Engine.Clear
import SealedMatch.Proofs.Engine.Decoding
import SealedMatch.Proofs.Engine.Encoding
import SealedMatch.Proofs.Engine.Refinement
import SealedMatch.Proofs.Engine.Programs
import SealedMatch.Proofs.Radix.Digits
import SealedMatch.Proofs.Engine.Arithmetic
import SealedMatch.Proofs.Matching.Plan
import SealedMatch.Proofs.Matching.Regroup
import SealedMatch.Proofs.Matching.Streams
import SealedMatch.Proofs.Matching.Arrangement
import SealedMatch.Proofs.Table.Grid
import SealedMatch.Proofs.Template.Lookup
import SealedMatch.Proofs.Template.Compiler
import SealedMatch.Proofs.Matching.Evaluations
import SealedMatch.Proofs.Matching.Decision
import SealedMatch.Proofs.Matching.Independence
import SealedMatch.Proofs.Table.Matrix
import SealedMatch.Proofs.Matching.Acceptance
import SealedMatch.Proofs.Matching.Correctness
import SealedMatch.Proofs.Matching.EarlyStop
import SealedMatch.Proofs.Matching.Arrivals
import SealedMatch.Proofs.Engine.Totality
import SealedMatch.Proofs.Matching.Admission
import SealedMatch.Proofs.Matching.Completion
import SealedMatch.Proofs.Matching.Refusal
import SealedMatch.Proofs.Matching.Capacity
import SealedMatch.Proofs.Benchmark.Agreement
import SealedMatch.Proofs.Outcome
import SealedMatch.Proofs.Benchmark.Provision
import SealedMatch.Proofs.Table.Shape
import SealedMatch.Proofs.Process.Spending
import SealedMatch.Proofs.Process.Watch
import SealedMatch.Proofs.Matching.Watched
import SealedMatch.Proofs.Matching.Containment
import SealedMatch.Proofs.Matching.Quantization
import SealedMatch.Proofs.Matching.LostCarry
import SealedMatch.Proofs.Matching.CarryRoom
import SealedMatch.Proofs.Engine.Charges
import SealedMatch.Proofs.Matching.Charges
import SealedMatch.Proofs.Matching.Workers
import SealedMatch.Proofs.Matching.Concurrency
import SealedMatch.Proofs.Engine.Integers
import SealedMatch.Proofs.Matching.Cost
import SealedMatch.Proofs.Store.Files
import SealedMatch.Proofs.Store.Provider
import SealedMatch.Proofs.CommandLine.Inputs
import SealedMatch.Proofs.Radix.Numerals
import SealedMatch.Proofs.Template.Scores
import SealedMatch.Proofs.Engine.Sums
import SealedMatch.Proofs.Matching.Interruption
import SealedMatch.Proofs.Decimal.Denotation
import SealedMatch.Proofs.Decimal.Order
import SealedMatch.Proofs.Store.Bins
import SealedMatch.Proofs.Store.Tables
import SealedMatch.Proofs.Table.Capacity
import SealedMatch.Proofs.Matching.Layout
import SealedMatch.Proofs.Table.Normalization
import SealedMatch.Proofs.Engine.Made
import SealedMatch.Proofs.Engine.Failures
import SealedMatch.Proofs.Process.Twins
import SealedMatch.Proofs.Matching.Observation
import SealedMatch.Proofs.Process.Conduct
import SealedMatch.Proofs.Matching.Conduct
import SealedMatch.Proofs.Benchmark.Books
import SealedMatch.Proofs.Table.DigitCount
import SealedMatch.Proofs.Template.Tabulation
