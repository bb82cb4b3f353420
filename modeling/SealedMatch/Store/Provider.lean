/-
Module: SealedMatch.Store.Provider
Purpose: The classifier inputs of one policy, found by a fixed layout of files.
Trusted boundary: none
Main exports: StoreLayout, TableProvider, TableCache, TableProvider.prepare
-/
import SealedMatch.Policy.Configuration
import SealedMatch.Store.Bins
import SealedMatch.Store.Classifier

namespace SealedMatch

/-- Where the files of a dataset lie below a data directory. -/
structure StoreLayout where
  dataRoot : Path
  tablesFolder : String
  /-- How the names of score tables begin. -/
  tableStart : String
  /-- What follows the name of the dataset in the name of the bins file. -/
  binsEnding : String

namespace StoreLayout

/-- The usual names below a data directory. -/
def standard (dataRoot : Path) : StoreLayout := ⟨dataRoot, "lookupTables", "HELR", "_qbins"⟩

/-- The file of the samples. -/
def datasetFile (l : StoreLayout) (dataset : String) : Path :=
  l.dataRoot.child (dataset ++ tableExtension)

/-- The directory of the tables. -/
def tablesDirectory (l : StoreLayout) (dataset : String) : Path :=
  (l.dataRoot.child l.tablesFolder).child dataset

/-- The file of the bins. -/
def binsPath (l : StoreLayout) (dataset : String) : Path :=
  (l.tablesDirectory dataset).child (dataset ++ l.binsEnding ++ tableExtension)

/-- How the paths of the score tables begin. -/
def scoreTableStart (l : StoreLayout) (dataset : String) : Path :=
  (l.tablesDirectory dataset).child l.tableStart

end StoreLayout

/-- A source of classifier inputs for one policy. -/
structure TableProvider where
  configuration : MatchPolicy
  layout : StoreLayout

/-- What a provider has read and keeps. -/
structure TableCache where
  bins? : Option (List Float)
  dataset? : Option (List Measurement)

/-- Nothing read yet. -/
def TableCache.empty : TableCache := ⟨none, none⟩

/-- A step of a provider. What has been read is kept even if a later step fails. -/
abbrev Loading (α : Type) := ExceptT Failure (StateM TableCache) α

namespace TableProvider

variable (p : TableProvider)

/-- The path of the dataset. -/
def datasetFile : Path := p.layout.datasetFile p.configuration.datasetName

/-- The bins, read once. -/
def bins (files : FileTree) : Loading (List Float) := do
  match (← get).bins? with
  | some bins => pure bins
  | none =>
    let bins ← readBins files (p.layout.binsPath p.configuration.datasetName)
    modify fun cache => { cache with bins? := some bins }
    pure bins

/-- The dataset, read once. -/
def measurements (files : FileTree) : Loading (List Measurement) := do
  match (← get).dataset? with
  | some dataset => pure dataset
  | none =>
    let dataset ← readMeasurements files p.datasetFile.text
    modify fun cache => { cache with dataset? := some dataset }
    pure dataset

/-- The score tables of all features, read every time. -/
def scoreTables (files : FileTree) : Except Failure (List Tensor) :=
  readTables files (p.layout.scoreTableStart p.configuration.datasetName).text
    p.configuration.featureCount

/-- The codes of the sample on a line, which must have as many features as the policy. -/
def codesOf (files : FileTree) (line : Int) : Loading (List UInt8) := do
  let dataset ← p.measurements files
  let sample ← measurementAt dataset line p.datasetFile.text
  if sample.features.length ≠ p.configuration.featureCount then
    throw (.input (.featureCountMismatch line sample.features.length p.configuration.featureCount))
  let bins ← p.bins files
  quantizeAll sample.features bins

/-- The codes of a probe and of a template. -/
def prepare (files : FileTree) (probe template : Int) :
    Loading (List UInt8 × List UInt8) := do
  let probe ← p.codesOf files probe
  let template ← p.codesOf files template
  pure (probe, template)

end TableProvider

end SealedMatch
