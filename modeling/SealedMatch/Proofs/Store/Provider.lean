/-
Module: SealedMatch.Proofs.Store.Provider
Purpose: What a provider answers from its files, whatever of them it has read before.
Trusted boundary: none
Main exports: TableProvider.Current, TableProvider.freshPair, TableProvider.prepare_loads,
  TableProvider.Escapes, TableProvider.freshPair_fault_iff
-/
import SealedMatch.Proofs.Store.Files
import SealedMatch.Store.Provider

namespace SealedMatch

namespace TableProvider

variable (p : TableProvider) (files : FileTree)

/-- The path of the bins. -/
def binsFile : Path := p.layout.binsPath p.configuration.datasetName

/-- The dataset is read as it stands in its file. -/
theorem datasetFile_plain : PackedFormat.ofName? (Path.ofText p.datasetFile.text).name = none := by
  have plain : '/' ∉ tableExtension.toList := by decide
  have long : 2 ≤ tableExtension.toList.length := by decide
  obtain ⟨others, piece, parts⟩ := Path.parts_child p.layout.dataRoot
    (String.toList_append (s := p.configuration.datasetName) (t := tableExtension)) plain long
  obtain ⟨front, text⟩ := Path.text_of_parts (p := p.datasetFile) parts
  rw [String.toList_ofList, ← List.append_assoc] at text
  obtain ⟨others, piece, parts⟩ := Path.parts_ofText text plain long
  rw [Path.name, parts, List.getLastD_concat]
  exact PackedFormat.ofName?_table piece

/-! ### What is kept -/

/-- What is kept is what the files say. -/
structure Current (cache : TableCache) : Prop where
  bins : ∀ bins, cache.bins? = some bins → readBins files p.binsFile = .ok bins
  dataset : ∀ dataset, cache.dataset? = some dataset →
    readMeasurements files p.datasetFile.text = .ok dataset

theorem current_empty : p.Current files .empty := ⟨nofun, nofun⟩

variable {α β : Type}

/-- A step answers from the files whatever current values are kept, and keeps current ones. -/
def Loads (x : Loading α) (y : Except Failure α) : Prop :=
  ∀ cache, p.Current files cache →
    (x.run.run cache).1 = y ∧ p.Current files (x.run.run cache).2

variable {p files}

namespace Loads

theorem ofExcept (y : Except Failure α) : p.Loads files (liftM y : Loading α) y := by
  intro cache current
  exact ⟨rfl, current⟩

theorem throw (f : Failure) : p.Loads files (throw f : Loading α) (.error f) := by
  intro cache current
  exact ⟨rfl, current⟩

theorem pure (a : α) : p.Loads files (pure a : Loading α) (.ok a) := by
  intro cache current
  exact ⟨rfl, current⟩

theorem bind {x : Loading α} {y : Except Failure α} {f : α → Loading β}
    {g : α → Except Failure β} (hx : p.Loads files x y) (hf : ∀ a, p.Loads files (f a) (g a)) :
    p.Loads files (x >>= f) (y >>= g) := by
  intro cache current
  obtain ⟨answer, kept⟩ := hx cache current
  rw [ExceptT.run_bind, StateT.run_bind]
  rcases h : x.run.run cache with ⟨result, cache'⟩
  rw [h] at answer kept
  subst answer
  cases result with
  | ok a => exact hf a cache' kept
  | error e => exact ⟨rfl, kept⟩

theorem mapM {f : α → Loading β} {g : α → Except Failure β}
    (h : ∀ a, p.Loads files (f a) (g a)) (as : List α) :
    p.Loads files (as.mapM f) (as.mapM g) := by
  induction as with
  | nil => exact .pure []
  | cons a as ih =>
      rw [List.mapM_cons, List.mapM_cons]
      exact (h a).bind fun b => ih.bind fun bs => .pure (b :: bs)

end Loads

/-- Read something unless it is kept, and keep it. -/
def readOnce (kept? : TableCache → Option α) (keep : α → TableCache → TableCache)
    (y : Except Failure α) : Loading α := do
  match kept? (← get) with
  | some a => pure a
  | none =>
    let a ← y
    modify (keep a)
    pure a

theorem bins_eq_readOnce :
    p.bins files =
      readOnce (·.bins?) (fun bins cache => { cache with bins? := some bins })
        (readBins files p.binsFile) := by
  rw [bins, readOnce]
  refine bind_congr fun cache => ?_
  cases cache.bins? <;> rfl

theorem measurements_eq_readOnce :
    p.measurements files =
      readOnce (·.dataset?) (fun dataset cache => { cache with dataset? := some dataset })
        (readMeasurements files p.datasetFile.text) := by
  rw [measurements, readOnce]
  refine bind_congr fun cache => ?_
  cases cache.dataset? <;> rfl

theorem readOnce_run (kept? : TableCache → Option α) (keep : α → TableCache → TableCache)
    (y : Except Failure α) (cache : TableCache) :
    (readOnce kept? keep y).run.run cache =
      match kept? cache, y with
      | some a, _ => (.ok a, cache)
      | none, .ok a => (.ok a, keep a cache)
      | none, .error f => (.error f, cache) := by
  have start : (readOnce kept? keep y).run.run cache =
      ((match kept? cache with
        | some a => pure a
        | none => do
          let a ← y
          modify (keep a)
          pure a) : Loading α).run.run cache := rfl
  rw [start]
  cases kept? cache with
  | some a => rfl
  | none => cases y <;> rfl

/-- What is read once is what the files say, be it read now or before. -/
theorem readOnce_loads {kept? : TableCache → Option α} {keep : α → TableCache → TableCache}
    {y : Except Failure α}
    (known : ∀ cache, p.Current files cache → ∀ a, kept? cache = some a → y = .ok a)
    (kept : ∀ cache, p.Current files cache → ∀ a, y = .ok a → p.Current files (keep a cache)) :
    p.Loads files (readOnce kept? keep y) y := by
  intro cache current
  rw [readOnce_run]
  split
  · next a before => exact ⟨(known cache current a before).symm, current⟩
  · next a _ => exact ⟨rfl, kept cache current a rfl⟩
  · exact ⟨rfl, current⟩

theorem bins_loads : p.Loads files (p.bins files) (readBins files p.binsFile) := by
  rw [bins_eq_readOnce]
  refine readOnce_loads (fun cache current => current.bins) fun cache current bins read => ?_
  exact ⟨by rintro _ ⟨⟩; exact read, current.dataset⟩

theorem measurements_loads :
    p.Loads files (p.measurements files) (readMeasurements files p.datasetFile.text) := by
  rw [measurements_eq_readOnce]
  refine readOnce_loads (fun cache current => current.dataset) fun cache current dataset read => ?_
  exact ⟨current.bins, by rintro _ ⟨⟩; exact read⟩

/-! ### Codes -/

variable (p files) in
/-- The codes of the sample on a line, everything read anew. -/
def freshCodes (line : Int) : Except Failure (List UInt8) := do
  let dataset ← readMeasurements files p.datasetFile.text
  let sample ← measurementAt dataset line p.datasetFile.text
  if sample.features.length ≠ p.configuration.featureCount then
    throw (.input (.featureCountMismatch line sample.features.length p.configuration.featureCount))
  let bins ← readBins files p.binsFile
  quantizeAll sample.features bins

variable (p files) in
/-- The codes of a probe and of a template, everything read anew. -/
def freshPair (probe template : Int) : Except Failure (List UInt8 × List UInt8) := do
  let probe ← p.freshCodes files probe
  let template ← p.freshCodes files template
  pure (probe, template)

theorem codesOf_loads (line : Int) :
    p.Loads files (p.codesOf files line) (p.freshCodes files line) := by
  refine measurements_loads.bind fun dataset => (Loads.ofExcept _).bind fun sample => ?_
  split
  · exact .throw _
  · exact bins_loads.bind fun bins => .ofExcept _

/-- Whatever current values a provider keeps, its codes are those of the files. -/
theorem prepare_loads (probe template : Int) :
    p.Loads files (p.prepare files probe template) (p.freshPair files probe template) :=
  (codesOf_loads probe).bind fun _ => (codesOf_loads template).bind fun _ => .pure _

theorem freshCodes_inputOnly (line : Int) : InputOnly (p.freshCodes files line) := by
  refine readMeasurements_inputOnly.bind fun dataset _ =>
    InputOnly.bind (measurementAt_inputOnly dataset line _) fun sample _ => ?_
  split
  · exact .input _
  · refine readBins_inputOnly.bind fun bins _ f hf => ?_
    obtain ⟨cause, rfl⟩ := quantizeAll_error hf
    exact .inl (Failure.isMalformed_input cause)

theorem freshPair_inputOnly (probe template : Int) :
    InputOnly (p.freshPair files probe template) :=
  (freshCodes_inputOnly probe).bind fun _ _ =>
    (freshCodes_inputOnly template).bind fun _ _ => .ok _

theorem freshCodes_ok {line : Int} {codes : List UInt8} (h : p.freshCodes files line = .ok codes) :
    ∃ dataset sample bins, readMeasurements files p.datasetFile.text = .ok dataset ∧
      measurementAt dataset line p.datasetFile.text = .ok sample ∧
      sample.features.length = p.configuration.featureCount ∧
      readBins files p.binsFile = .ok bins ∧ quantizeAll sample.features bins = .ok codes := by
  obtain ⟨dataset, read, h⟩ := bind_eq_ok h
  obtain ⟨sample, found, h⟩ := bind_eq_ok h
  split at h
  · cases h
  · next fits =>
      obtain ⟨bins, hbins, h⟩ := bind_eq_ok h
      exact ⟨dataset, sample, bins, read, found, not_not.mp fits, hbins, h⟩

theorem length_of_freshCodes {line : Int} {codes : List UInt8}
    (h : p.freshCodes files line = .ok codes) :
    codes.length = p.configuration.featureCount := by
  obtain ⟨_, _, _, -, -, fits, -, quantized⟩ := freshCodes_ok h
  exact (length_of_quantizeAll quantized).trans fits

theorem length_of_freshPair {probe template : Int} {codes : List UInt8 × List UInt8}
    (h : p.freshPair files probe template = .ok codes) :
    codes.1.length = p.configuration.featureCount ∧
      codes.2.length = p.configuration.featureCount := by
  obtain ⟨probeCodes, hprobe, h⟩ := bind_eq_ok h
  obtain ⟨templateCodes, htemplate, h⟩ := bind_eq_ok h
  cases h
  exact ⟨length_of_freshCodes hprobe, length_of_freshCodes htemplate⟩

/-! ### Faults that escape -/

variable (p files) in
/-- The dataset has a sample for a line, with as many features as the policy: the bins are asked
for. -/
def AsksForBins (line : Int) : Prop :=
  1 ≤ line ∧ ∃ grid, HoldsGrid .real files (Path.ofText p.datasetFile.text) grid ∧
    firstLabelFault? grid.rows = none ∧ grid.columns = p.configuration.featureCount + 1

variable (p files) in
/-- What comes out of a provider that is no failure of a coded family, with the contents of the two
files that bring it about. -/
inductive Escapes (line : Int) : Fault → Prop where
  /-- The operating system does not look for a dataset of this name. -/
  | datasetName {path : String}
    (unreached : files.read? (Path.ofText p.datasetFile.text) = .error (.nameTooLong path)) :
    Escapes line (.nameTooLong path)
  /-- The dataset is a grid with a label that stands for no integer. -/
  | label {grid : NumberGrid Float} {fault : Fault}
    (holds : HoldsGrid .real files (Path.ofText p.datasetFile.text) grid)
    (wide : 2 ≤ grid.columns) (bad : firstLabelFault? grid.rows = some fault) : Escapes line fault
  /-- The operating system does not look for bins of this name. -/
  | binsName {path : String} (asked : p.AsksForBins files line)
    (unreached : files.read? p.binsFile = .error (.nameTooLong path)) :
    Escapes line (.nameTooLong path)
  /-- The bins are no text. -/
  | binsText {content : ByteArray} {defect : Text.Undecodable} (asked : p.AsksForBins files line)
    (found : files.read? p.binsFile = .ok (some content))
    (bad : Text.decodeUtf8 content = .error defect) : Escapes line (.undecodable defect)

theorem asksForBins_iff {line : Int} :
    p.AsksForBins files line ↔
      ∃ dataset sample, readMeasurements files p.datasetFile.text = .ok dataset ∧
        measurementAt dataset line p.datasetFile.text = .ok sample ∧
        sample.features.length = p.configuration.featureCount := by
  constructor
  · rintro ⟨first, grid, holds, finite, columns⟩
    have wide : 2 ≤ grid.columns := by
      have := p.configuration.featureCount_pos
      omega
    rcases readMeasurements_of_grid p.datasetFile_plain holds wide with
      ⟨_, bad, -⟩ | ⟨-, dataset, read, samples, lengths⟩
    · cases finite.symm.trans bad
    · obtain ⟨sample, member, found⟩ := measurementAt_ok samples first p.datasetFile.text
      have := lengths sample member
      exact ⟨dataset, sample, read, found, by omega⟩
  · rintro ⟨dataset, sample, read, found, fits⟩
    obtain ⟨grid, holds, -, finite, samples, lengths⟩ :=
      readMeasurements_ok p.datasetFile_plain read
    by_cases first : 1 ≤ line
    · obtain ⟨sample', member, found'⟩ := measurementAt_ok samples first p.datasetFile.text
      cases found'.symm.trans found
      exact ⟨first, grid, holds, finite, by rw [← fits, lengths sample member]⟩
    · rw [measurementAt_before (by omega)] at found
      cases found

theorem escapes_iff {line : Int} {fault : Fault} :
    p.Escapes files line fault ↔
      readMeasurements files p.datasetFile.text = .error (.fault fault) ∨
        p.AsksForBins files line ∧ readBins files p.binsFile = .error (.fault fault) := by
  rw [readMeasurements_fault_iff p.datasetFile_plain, readBins_fault_iff]
  constructor
  · rintro (unreached | ⟨holds, wide, bad⟩ | ⟨asked, unreached⟩ | ⟨asked, found, bad⟩)
    · exact .inl (.inl unreached)
    · exact .inl (.inr ⟨_, holds, wide, bad⟩)
    · exact .inr ⟨asked, .inl unreached⟩
    · exact .inr ⟨asked, .inr ⟨_, _, found, bad, rfl⟩⟩
  · rintro ((unreached | ⟨grid, holds, wide, bad⟩) | ⟨asked, unreached | ⟨_, _, found, bad, rfl⟩⟩)
    · obtain ⟨path, rfl⟩ := FileTree.read?_fault unreached
      exact .datasetName unreached
    · exact .label holds wide bad
    · obtain ⟨path, rfl⟩ := FileTree.read?_fault unreached
      exact .binsName asked unreached
    · exact .binsText asked found bad

/-- The bins are the last file to be read: after them nothing escapes. -/
theorem freshCodes_fault_iff {line : Int} {fault : Fault} :
    p.freshCodes files line = .error (.fault fault) ↔ p.Escapes files line fault := by
  rw [escapes_iff, freshCodes, bind_eq_error_iff, asksForBins_iff]
  refine or_congr_right ⟨?_, ?_⟩
  · rintro ⟨dataset, read, h⟩
    obtain ⟨grid, -, -, -, samples, -⟩ := readMeasurements_ok p.datasetFile_plain read
    rcases bind_eq_error_iff.mp h with h | ⟨sample, found, h⟩
    · exact (measurementAt_ne_fault samples _ _ _ h).elim
    split at h
    · cases h
    · next fits =>
      rcases bind_eq_error_iff.mp h with h | ⟨bins, -, h⟩
      · exact ⟨⟨dataset, sample, read, found, not_not.mp fits⟩, h⟩
      · obtain ⟨cause, h⟩ := quantizeAll_error h
        cases h
  · rintro ⟨⟨dataset, sample, read, found, fits⟩, unread⟩
    refine ⟨dataset, read, ?_⟩
    rw [found, ok_bind, if_neg (not_not.mpr fits), unread]
    rfl

/-- Once a sample has codes, nothing escapes any more: both files are read. -/
theorem not_escapes_of_freshCodes {line : Int} {codes : List UInt8}
    (h : p.freshCodes files line = .ok codes) (line' : Int) (fault : Fault) :
    ¬ p.Escapes files line' fault := by
  obtain ⟨dataset, _, bins, read, -, -, hbins, -⟩ := freshCodes_ok h
  rw [escapes_iff, read, hbins]
  simp

/-- What escapes does so at the probe. -/
theorem freshPair_fault_iff {probe template : Int} {fault : Fault} :
    p.freshPair files probe template = .error (.fault fault) ↔ p.Escapes files probe fault := by
  rw [freshPair, bind_eq_error_iff, freshCodes_fault_iff]
  refine ⟨?_, .inl⟩
  rintro (escapes | ⟨codes, first, h⟩)
  · exact escapes
  · rcases bind_eq_error_iff.mp h with h | ⟨_, -, h⟩
    · exact (not_escapes_of_freshCodes first _ _ (freshCodes_fault_iff.mp h)).elim
    · cases h

end TableProvider

end SealedMatch
