/-
Module: SealedMatch.Proofs.Matching.EarlyStop
Purpose: Where the first cell holds the largest score, leaving out leading zero digits changes
  nothing.
Trusted boundary: none
Main exports: Tensor.LargestFirst, TemplateCompiler.fullTrace,
  SimulatedEngine.Hosts.verify_fullTrace
-/
import SealedMatch.Proofs.Matching.Acceptance
import SealedMatch.Proofs.Table.DigitCount

namespace SealedMatch

/-! ### Tables with the largest score in front -/

/-- Every entry lies between zero and the first one. -/
def Tensor.LargestFirst (t : Tensor) : Prop := ∀ v ∈ t.entries.toList, 0 ≤ v ∧ v ≤ t.cell 0 0

instance (t : Tensor) : Decidable t.LargestFirst :=
  inferInstanceAs (Decidable (∀ v ∈ t.entries.toList, 0 ≤ v ∧ v ≤ t.cell 0 0))

/-- A cell is an entry, or stands for one that there is not. -/
theorem Tensor.cell_mem_or_eq_zero (t : Tensor) (row column : Int) :
    t.cell row column ∈ t.entries.toList ∨ t.cell row column = 0 := by
  unfold cell
  cases hread : t.read [row, column] with
  | error f => exact Or.inr rfl
  | ok v =>
      unfold read at hread
      split at hread
      · cases hread
      · rename_i i _
        split at hread
        · cases hread
        · cases hread
          rw [Array.getD_eq_getD_getElem?, ← Array.getElem?_toList]
          cases hentry : t.entries.toList[i]? with
          | none => exact Or.inr rfl
          | some v => exact Or.inl (List.mem_of_getElem? hentry)

theorem Tensor.LargestFirst.cell_range {t : Tensor} (h : t.LargestFirst) (row column : Int) :
    0 ≤ t.cell row column ∧ t.cell row column ≤ t.cell 0 0 := by
  have nonneg : 0 ≤ t.cell 0 0 := by
    rcases t.cell_mem_or_eq_zero 0 0 with hmem | hzero
    · exact (h _ hmem).1
    · exact hzero.ge
  rcases t.cell_mem_or_eq_zero row column with hmem | hzero
  · exact h _ hmem
  · rw [hzero]
    exact ⟨le_refl 0, nonneg⟩

namespace TemplateCompiler

variable {configuration : MatchPolicy} {tables : List TableSource} {c : TemplateCompiler}
  {template probe : List Int} {earlyStop : Bool} {compiled : EnrolledTemplate}

/-- The trace with all digits: each normalized score modulo the capacity of the digits. -/
def fullTrace (c : TemplateCompiler) (template probe : List Int) : Trace :=
  .ofValues c.configuration.radix c.configuration.sumWidth
    ((c.scores template probe).map fun v => v % (c.configuration.digitSystem.capacity : Int))

/-- However many digits features are compiled to, they hold the same values. -/
theorem Prepared.value_eq (h : c.Prepared tables)
    (hlargest : ∀ t ∈ c.normalized, t.LargestFirst) {features : List EnrolledFeature}
    (htables : features.map (·.table) = c.normalized)
    (hcounts : ∀ (i : Nat) (x : EnrolledFeature), features[i]? = some x →
      ∃ n, (c.digitCounts earlyStop)[i]? = some n ∧ x.count = n.toNat) :
    ∀ x ∈ features, ∀ code, x.value c.configuration.radix code =
      x.score code % c.configuration.digitSystem.capacity := by
  intro x hx code
  obtain ⟨i, hi, rfl⟩ := List.getElem_of_mem hx
  obtain ⟨n, hn, hcount⟩ := hcounts i features[i] (List.getElem?_eq_getElem hi)
  have capacity : (c.configuration.digitSystem.capacity : Int) =
      (c.configuration.radix : Int) ^ c.configuration.digitSystem.blockCount :=
    c.configuration.digitSystem.capacity_eq
  have table : c.normalized[i]? = some features[i].table := by
    rw [← htables, List.getElem?_map, List.getElem?_eq_getElem hi]
    rfl
  unfold EnrolledFeature.value
  rw [capacity, hcount]
  unfold digitCounts at hn
  cases earlyStop with
  | false =>
      rw [if_neg (by decide), List.getElem?_map, Option.map_eq_some_iff] at hn
      obtain ⟨_, _, rfl⟩ := hn
      rfl
  | true =>
      rw [if_pos rfl, List.getElem?_map, Option.map_eq_some_iff] at hn
      obtain ⟨short, hshort, rfl⟩ := hn
      have counted : earlyStopCount features[i].table c.configuration.digitSystem = .ok short := by
        obtain ⟨_, each⟩ := List.forall₂_iff_get.1 h.shortCounts_eq
        obtain ⟨hi', hget⟩ := List.getElem?_eq_some_iff.1 table
        obtain ⟨hi'', hget'⟩ := List.getElem?_eq_some_iff.1 hshort
        have here := each i hi' hi''
        simp only [List.get_eq_getElem, hget, hget'] at here
        exact here
      obtain ⟨largest, hread, rfl⟩ := earlyStopCount_eq_ok counted
      have range := (hlargest _ (List.mem_of_getElem? table)).cell_range features[i].template code
      rw [Tensor.cell_of_read hread] at range
      exact emod_leadingDigitCount range.1 range.2

/-- Whether leading zero digits have been left out or not, a verification concludes by the trace
with all digits. -/
theorem verify_fullTrace (h : c.Prepared tables) (hlargest : ∀ t ∈ c.normalized, t.LargestFirst)
    (hcompile : c.compile template earlyStop = .ok compiled) {plan : LookupPlan}
    (hplan : LookupPlan.build probe compiled = .ok plan) {e : SimulatedEngine} {s : Strategy}
    (hhosts : e.Hosts s compiled) (stamp : Stamp) (datasetName : String) (debug : Bool)
    (schedule : Schedule) :
    ((e.matcher s).verify stamp probe compiled datasetName debug schedule).Yields Session.Silent
      fun r => r.status = (if c.threshold ≤ (c.fullTrace template probe).total
          then .accept else .reject) ∧
        r.trace? = if debug then some (c.fullTrace template probe) else none := by
  obtain ⟨features, holds, htables, htemplate, hcounts⟩ := h.holds hcompile
  have threshold : compiled.threshold = c.threshold := (h.compile_eq_ok hcompile).1
  have radix : compiled.radix = c.configuration.radix := holds.radix_eq
  have values : encounterValues compiled.radix (features.zip probe) =
      (c.scores template probe).map fun v => v % (c.configuration.digitSystem.capacity : Int) := by
    have same := h.value_eq hlargest htables hcounts
    rw [← scores_eq htables htemplate, List.map_map, radix]
    exact List.map_congr_left fun x hx => same x.1 (List.of_mem_zip hx).1 x.2
  have trace : Trace.ofValues compiled.radix c.configuration.sumWidth
      (encounterValues compiled.radix (features.zip probe)) = c.fullTrace template probe := by
    rw [values, radix]
    rfl
  apply (hhosts.verify_yields holds hplan stamp datasetName debug schedule).mono
  intro r hr
  refine ⟨?_, by rw [hr.trace_eq, trace]⟩
  rw [hr.status_eq, ← trace, threshold]
  rfl

/-- Two tables, of which early stopping leaves one digit and none. -/
def shallowTables : List TableSource :=
  [[[1, 1, 0], [0, 1, 0]], [[0, 0, 0], [0, 0, 0]]].map fun rows =>
    .nested (.list (rows.map Value.ints))

end TemplateCompiler

end SealedMatch
