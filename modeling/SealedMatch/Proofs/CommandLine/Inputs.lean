/-
Module: SealedMatch.Proofs.CommandLine.Inputs
Purpose: How classifier files that cannot be used come to the eyes of a user.
Trusted boundary: none
Main exports: Command.Asks, Command.ComplainsOfInput, Command.loaded_or_told,
  Command.perform_escapes, TableProvider.malformed_or_escapes
-/
import SealedMatch.CommandLine.Execution
import SealedMatch.Proofs.Store.Provider

namespace SealedMatch

/-! ### Several pairs -/

namespace TableProvider

variable (p : TableProvider) (files : FileTree)

/-- The codes of several pairs, everything read anew. -/
def freshPairs (pairs : List (Int × Int)) : Except Failure (List (List UInt8 × List UInt8)) :=
  pairs.mapM fun pair => p.freshPair files pair.1 pair.2

variable {p files}

theorem freshPairs_inputOnly (pairs : List (Int × Int)) : InputOnly (p.freshPairs files pairs) := by
  rw [freshPairs]
  exact InputOnly.mapM (fun pair : Int × Int => freshPair_inputOnly pair.1 pair.2) pairs

/-- What escapes does so at the first probe: all pairs come from the same two files. -/
theorem freshPairs_fault_iff {pairs : List (Int × Int)} {fault : Fault} :
    p.freshPairs files pairs = .error (.fault fault) ↔
      ∃ first ∈ pairs.head?, p.Escapes files first.1 fault := by
  induction pairs with
  | nil => simp [freshPairs, pure, Except.pure]
  | cons first rest ih =>
      simp only [freshPairs, List.mapM_cons, bind_eq_error_iff, freshPair_fault_iff,
        List.head?_cons, Option.mem_def, Option.some.injEq, exists_eq_left']
      refine ⟨?_, .inl⟩
      rintro (escapes | ⟨codes, here, there | ⟨_, -, h⟩⟩)
      · exact escapes
      · obtain ⟨next, -, escapes⟩ := ih.mp there
        obtain ⟨probe, hprobe, -⟩ := bind_eq_ok here
        exact (not_escapes_of_freshCodes hprobe _ _ escapes).elim
      · cases h

end TableProvider

/-- A desk loads its pairs with a provider that keeps nothing at first. -/
theorem Desk.comparisons_error (d : Desk) {p : TableProvider} {pairs : List (Int × Int)}
    {f : Failure} (h : p.freshPairs d.files pairs = .error f) :
    d.comparisons p (pairs.map fun pair => (pair.1, some pair.2)) = .error f := by
  have load : p.Loads d.files _ _ :=
    .mapM (fun pair : Int × Int => TableProvider.prepare_loads pair.1 pair.2) pairs
  have answer := (load .empty (p.current_empty d.files)).1
  rw [comparisons, List.mapM_map]
  exact bind_eq_error_iff.mpr (.inl (answer.trans h))

namespace Command

/-- The pairs of samples that a command asks of a provider. -/
inductive Asks (p : TableProvider) : Command → List (Int × Int) → Prop where
  | verify {o : MatchingOptions} (source : o.provider = .ok p) (probe template : Int)
    (strategy? : Option String) (debug : Bool) :
    Asks p (.verify o probe (some template) strategy? debug) [(probe, template)]
  | benchmark {o : MatchingOptions} (source : o.provider = .ok p) {probes templates : List Int}
    (paired : probes.length = templates.length) (strategies : List String) :
    Asks p (.benchmark o probes templates strategies) (probes.zip templates)

/-- The command ends with a complaint about its inputs. -/
def ComplainsOfInput (c : Command) (d : Desk) : Prop :=
  ∃ report : Report, .malformedInput ∈ report.kind.ancestry ∧
    c.perform d = .done (d.complain 1 report.text)

variable {p : TableProvider} {c : Command} {pairs : List (Int × Int)} {f : Failure}

/-- Pairs that cannot be loaded are the end of a command. -/
theorem execute_unloaded (asks : c.Asks p pairs) (d : Desk)
    (h : p.freshPairs d.files pairs = .error f) : c.execute d = .fail f := by
  have unloaded := d.comparisons_error h
  cases asks with
  | verify source probe template strategy? debug =>
      rw [List.map_singleton] at unloaded
      rw [execute, Desk.verify, source]
      simp [Process.ofExcept, unloaded]
  | @benchmark o source probes templates paired strategies =>
      have zipped : (probes.zip templates).map (fun pair => (pair.1, some pair.2)) =
          probes.zip (templates.map some) := by
        rw [List.zip_map_right]
        rfl
      rw [zipped] at unloaded
      rw [execute, Desk.benchmark, if_neg (not_not.mpr paired), source]
      simp [Process.ofExcept, unloaded]

/-- A user is told of a malformed input; a fault ends the program. -/
theorem perform_unloaded (asks : c.Asks p pairs) (d : Desk)
    (h : p.freshPairs d.files pairs = .error f) :
    f.IsMalformed ∧ c.ComplainsOfInput d ∨
      ∃ fault, f = .fault fault ∧ c.perform d = .fail (.fault fault) := by
  have failed := execute_unloaded asks d h
  rcases TableProvider.freshPairs_inputOnly pairs f h with ⟨report, told, kind⟩ | ⟨fault, rfl⟩
  · refine .inl ⟨⟨report, told, kind⟩, report, kind, ?_⟩
    simp [perform, failed, Process.attempt, told]
  · refine .inr ⟨fault, rfl, ?_⟩
    simp [perform, failed, Process.attempt, Failure.report?]

/-- All pairs have codes, or the user is told of a malformed input, unless a fault escapes. -/
theorem loaded_or_told (asks : c.Asks p pairs) (d : Desk) :
    (∀ pair ∈ pairs, ∃ codes,
        ((p.prepare d.files pair.1 pair.2).run.run .empty).1 = .ok codes) ∨
      c.ComplainsOfInput d ∨ ∃ first ∈ pairs.head?, ∃ fault, p.Escapes d.files first.1 fault := by
  cases loaded : p.freshPairs d.files pairs with
  | ok all =>
      refine .inl (forall₂_left (mapM_eq_ok loaded) fun pair codes hcodes => ⟨codes, ?_⟩)
      have load : p.Loads d.files _ _ := TableProvider.prepare_loads pair.1 pair.2
      exact (load .empty (p.current_empty d.files)).1.trans hcodes
  | error f =>
      rcases perform_unloaded asks d loaded with ⟨-, complains⟩ | ⟨fault, rfl, -⟩
      · exact .inr (.inl complains)
      · obtain ⟨first, member, escapes⟩ := TableProvider.freshPairs_fault_iff.mp loaded
        exact .inr (.inr ⟨first, member, fault, escapes⟩)

/-- A fault that escapes at the first pair ends the program. -/
theorem perform_escapes (asks : c.Asks p pairs) (d : Desk) {first : Int × Int}
    (member : first ∈ pairs.head?) {fault : Fault} (escapes : p.Escapes d.files first.1 fault) :
    c.perform d = .fail (.fault fault) := by
  have unloaded := TableProvider.freshPairs_fault_iff.mpr ⟨first, member, escapes⟩
  rcases perform_unloaded asks d unloaded with ⟨⟨_, told, -⟩, -⟩ | ⟨_, ⟨⟩, ended⟩
  · cases told
  · exact ended

end Command

/-! ### Contents that escape -/

namespace TableProvider

/-- For every content of the bins and of the dataset, preparing a probe and a template gives codes
of all features, or a malformed input, unless a fault escapes: then it is that fault. The command
line complains of a malformed input, and a fault that escapes ends it. -/
theorem malformed_or_escapes (p : TableProvider) (files : FileTree) (cache : TableCache)
    (current : p.Current files cache) (probe template : Int) :
    let (outcome, kept) := (p.prepare files probe template).run.run cache
    (∀ codes, outcome = .ok codes →
      codes.1.length = p.configuration.featureCount ∧
        codes.2.length = p.configuration.featureCount) ∧
    (∀ f, outcome = .error f → f.IsMalformed ∨ ∃ fault, f = .fault fault) ∧
    (∀ fault, outcome = .error (.fault fault) ↔ p.Escapes files probe fault) ∧
    p.Current files kept ∧
    ∀ (d : Desk) (c : Command) (pairs : List (Int × Int)), c.Asks p pairs →
      ((∀ pair ∈ pairs, ∃ codes,
          ((p.prepare d.files pair.1 pair.2).run.run .empty).1 = .ok codes) ∨
        c.ComplainsOfInput d ∨ ∃ first ∈ pairs.head?, ∃ fault, p.Escapes d.files first.1 fault) ∧
      ∀ first ∈ pairs.head?, ∀ fault, p.Escapes d.files first.1 fault →
        c.perform d = .fail (.fault fault) := by
  obtain ⟨answer, kept⟩ := prepare_loads probe template cache current
  rcases h : (p.prepare files probe template).run.run cache with ⟨outcome, cache'⟩
  rw [h] at answer kept
  subst answer
  exact ⟨fun codes => length_of_freshPair, freshPair_inputOnly probe template,
    fun _ => freshPair_fault_iff, kept, fun d c pairs asks =>
      ⟨Command.loaded_or_told asks d, fun _ member _ => Command.perform_escapes asks d member⟩⟩

theorem faces_ne : "faces" ≠ "" := by decide

/-- A policy of one feature, its files below a directory of data. -/
def sample : TableProvider :=
  ⟨threeBitPolicy "faces" 1 faces_ne Nat.one_pos, .standard (Path.ofText "data")⟩

/-- A directory of data with a dataset and bins. -/
def sampleFiles (dataset bins : ByteArray) : FileTree where
  workingDirectory := []
  entries :=
    [(["data"], .directory), (["data", "faces.csv"], .file dataset false),
      (["data", "lookupTables"], .directory), (["data", "lookupTables", "faces"], .directory),
      (["data", "lookupTables", "faces", "faces_qbins.csv"], .file bins false)]

theorem sample_dataset (dataset bins : ByteArray) :
    (sampleFiles dataset bins).read? (Path.ofText sample.datasetFile.text) =
      .ok (some dataset) := by
  have path : Path.ofText sample.datasetFile.text = ⟨"", ["data", "faces.csv"]⟩ := by
    decide +kernel
  rw [path, FileTree.read?, FileTree.locate_eq _ (by decide +kernel) (by decide +kernel)]
  rfl

theorem sample_bins (dataset bins : ByteArray) :
    (sampleFiles dataset bins).read? sample.binsFile = .ok (some bins) := by
  have path : sample.binsFile = ⟨"", ["data", "lookupTables", "faces", "faces_qbins.csv"]⟩ := by
    decide +kernel
  rw [path, FileTree.read?, FileTree.locate_eq _ (by decide +kernel) (by decide +kernel)]
  rfl

/-- Two bytes, of which neither begins a character, in place of the bins. -/
def sampleGarbage : ByteArray := ⟨#[0xff, 0xfe]⟩

theorem sample_asksForBins :
    sample.AsksForBins (sampleFiles "1,1.0\n".toUTF8 sampleGarbage) 1 := by
  have decoded : Text.decodeUtf8 "1,1.0\n".toUTF8 = .ok "1,1.0\n".toList := by decide +kernel
  have read : readGrid .real "1,1.0\n".toList = .ok ⟨2, [[1.0, 1.0]]⟩ := by rfl
  exact ⟨by decide, _, ⟨_, _, sample_dataset .., decoded, read⟩, by rfl, by rfl⟩

/-- Bins that are no text escape as the decoder's own fault. -/
theorem malformed_or_escapes_sample :
    sample.Current (sampleFiles "1,1.0\n".toUTF8 sampleGarbage) .empty ∧
      ((sample.prepare (sampleFiles "1,1.0\n".toUTF8 sampleGarbage) 1 1).run.run .empty).1 =
        .error (.fault (.undecodable ⟨0xff, 0, 1, .invalidStart⟩)) := by
  refine ⟨sample.current_empty _, ?_⟩
  refine ((malformed_or_escapes sample _ .empty (sample.current_empty _) 1 1).2.2.1 _).mpr ?_
  exact .binsText sample_asksForBins (sample_bins ..) (by decide +kernel)

/-- A label that is no number leaves a dataset as a failure to convert it, which no family of coded
failures reports. -/
theorem label_escapes :
    ((sample.prepare (sampleFiles "nan,1.0\n".toUTF8 "0.5\n".toUTF8) 1 1).run.run .empty).1 =
        .error (.fault .nanToInteger) ∧
      ¬ (Failure.fault .nanToInteger).IsMalformed := by
  have decoded : Text.decodeUtf8 "nan,1.0\n".toUTF8 = .ok "nan,1.0\n".toList := by decide +kernel
  have read : readGrid .real "nan,1.0\n".toList = .ok ⟨2, [[0.0 / 0.0, 1.0]]⟩ := by rfl
  have escapes : sample.Escapes (sampleFiles "nan,1.0\n".toUTF8 "0.5\n".toUTF8) 1 .nanToInteger :=
    .label ⟨_, _, sample_dataset .., decoded, read⟩ (by decide) (by rfl)
  refine ⟨?_, fun ⟨_, told, _⟩ => nomatch told⟩
  rw [(prepare_loads 1 1 .empty (sample.current_empty _)).1]
  exact freshPair_fault_iff.mpr escapes

end TableProvider

end SealedMatch
