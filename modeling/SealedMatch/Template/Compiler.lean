/-
Module: SealedMatch.Template.Compiler
Purpose: Score tables compiled into digit lookups for one template.
Trusted boundary: none
Main exports: bindTemplate, EnrolledTemplate, TemplateCompiler, TemplateCompiler.compile,
  TemplateCompiler.clearScore
-/
import SealedMatch.Policy.Configuration
import SealedMatch.Table.Capacity
import SealedMatch.Template.Lookup

namespace SealedMatch

/-- The lookups of one feature: `count` digits of the row of a template code, which must exist. -/
def bindFeature (feature : Nat) (code : Int) (table : Tensor) (counts : List Int) :
    Except Failure (List DigitLookup) := do
  let rows ← table.axisLength 0
  if 0 ≤ code ∧ code < rows then
    match counts[feature]? with
    | some count =>
      pure ((List.range count.toNat).map fun (block : Nat) => ⟨feature, code, block, table⟩)
    | none => throw (.fault .listIndexOutOfRange)
  else throw (.domain (.templateCode feature code rows))

/-- The lookups of the features from one on. -/
def bindFrom (counts : List Int) (feature : Nat) :
    List (Int × Tensor) → Except Failure (List (List DigitLookup))
  | [] => pure []
  | (code, table) :: rest => do
    let here ← bindFeature feature code table counts
    let there ← bindFrom counts (feature + 1) rest
    pure (here :: there)

/-- The lookups of all features of a template, least significant digit first. `counts` says how many
digits each feature gets. -/
def bindTemplate (template : List Int) (tables : List Tensor) (counts : List Int) :
    Except Failure (List (List DigitLookup)) :=
  if template.length ≠ tables.length then
    .error (.input (.templateLengthMismatch template.length tables.length))
  else bindFrom counts 0 (template.zip tables)

/-- What the matching protocol needs to know of a template. -/
structure EnrolledTemplate where
  /-- Digit lookups of each feature. -/
  lookups : List (List DigitLookup)
  /-- The decision threshold on the scale of normalized scores. -/
  threshold : Int
  totalOffset : Int
  /-- How many digits the sum has. -/
  sumWidth : Int
  radix : Int

namespace EnrolledTemplate

def featureCount (t : EnrolledTemplate) : Nat := t.lookups.length

/-- How many digits each feature has. -/
def digitCounts (t : EnrolledTemplate) : List Nat := t.lookups.map List.length

/-- How many lookups there are in all. -/
def lookupCount (t : EnrolledTemplate) : Nat := t.digitCounts.foldl (· + ·) 0

/-- What can be told of a template without its lookups. -/
def toRecord (t : EnrolledTemplate) : Record :=
  [("threshold", .int t.threshold), ("total_offset", .int t.totalOffset),
    ("sum_width", .int t.sumWidth), ("radix", .int t.radix), ("feature_count", .nat t.featureCount),
    ("block_counts", .list (t.digitCounts.map .nat)), ("flat_length", .nat t.lookupCount)]

end EnrolledTemplate

/-- The tables of a run, prepared once for all templates. -/
structure TemplateCompiler where
  configuration : MatchPolicy
  normalized : List Tensor
  totalOffset : Int
  decomposed : List Tensor
  /-- Digit counts of the features when leading zero digits are left out. -/
  shortCounts : List Nat
  capacity : CapacityCheck

namespace TemplateCompiler

/-- Prepare the tables, one for every feature of the configuration. -/
def ofTables (configuration : MatchPolicy) (tables : List TableSource) :
    Except Failure TemplateCompiler := do
  if tables.length ≠ configuration.featureCount then
    throw (.input (.tableCountMismatch tables.length configuration.featureCount
      configuration.datasetName))
  let d := configuration.digitSystem
  let (normalized, totalOffset) ← normalizeAll tables
  let decomposed ← normalized.mapM fun t => digitTable t d.blockLength d.blockCount
  let counts ← normalized.mapM fun t => earlyStopCount t d
  let capacity ← CapacityCheck.ofTables normalized d.radix configuration.sumWidth
  pure ⟨configuration, normalized, totalOffset, decomposed, counts, capacity⟩

/-- The threshold on the scale of normalized scores. -/
def threshold (c : TemplateCompiler) : Int := c.configuration.threshold + c.totalOffset

/-- How many digits each feature gets. -/
def digitCounts (c : TemplateCompiler) (earlyStop : Bool) : List Int :=
  if earlyStop then c.shortCounts.map Int.ofNat
  else c.decomposed.map fun _ => (c.configuration.digitSystem.blockCount : Int)

/-- Bind the codes of a template. With `earlyStop`, a feature only gets the digits that can differ
from zero. -/
def compile (c : TemplateCompiler) (template : List Int) (earlyStop : Bool) :
    Except Failure EnrolledTemplate := do
  let lookups ← bindTemplate template c.decomposed (c.digitCounts earlyStop)
  pure ⟨lookups, c.threshold, c.totalOffset, c.configuration.sumWidth, c.configuration.radix⟩

/-- The normalized score of each feature, features beyond the shortest argument left out. -/
def clearScores (c : TemplateCompiler) (template probe : List Int) : Except Failure (List Int) :=
  (c.normalized.zip (template.zip probe)).mapM fun (table, t, p) => table.read [t, p]

/-- The normalized score of a probe in the clear: what the encrypted total should decrypt to. -/
def clearScore (c : TemplateCompiler) (template probe : List Int) : Except Failure Int := do
  pure ((← c.clearScores template probe).foldl (· + ·) 0)

end TemplateCompiler

end SealedMatch
