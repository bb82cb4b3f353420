/-
Module: SealedMatch.Proofs.Matching.Evaluations
Purpose: The evaluations that the plan of a probe and a compiled template performs.
Trusted boundary: none
Main exports: EnrolledFeature.evaluations, encounterRows, LookupPlan.runs_of_lays,
  Matcher.requireCompatible_eq_ok, EnrolledFeature.sound_evaluations
-/
import SealedMatch.Matching.Matcher
import SealedMatch.Proofs.Matching.Arrangement
import SealedMatch.Proofs.Template.Compiler
import SealedMatch.Proofs.Template.Tabulation

namespace SealedMatch

namespace EnrolledFeature

/-- The evaluations of a feature for a probe code: the digits of the score. -/
def evaluations (radix : Int) (x : EnrolledFeature) (code : Int) : List Evaluation :=
  (List.range x.count).map fun (block : Nat) =>
    ⟨code, ⟨x.index, x.template, block, x.digitTable⟩,
      (x.score code / radix ^ block % radix).toNat⟩

variable {radix : Int} {x : EnrolledFeature} {code : Int}

theorem map_lookup_evaluations (radix : Int) (x : EnrolledFeature) (code : Int) :
    (x.evaluations radix code).map (·.lookup) = x.lookups := by
  unfold evaluations lookups
  rw [List.map_map]
  rfl

@[simp] theorem length_evaluations : (x.evaluations radix code).length = x.count := by
  simp [evaluations]

@[simp] theorem length_lookups : x.lookups.length = x.count := by
  simp [lookups]

theorem inBlockOrder_lookups (x : EnrolledFeature) : LookupPlan.InBlockOrder x.lookups := by
  unfold LookupPlan.InBlockOrder
  rw [length_lookups]
  unfold lookups
  rw [List.map_map]
  rfl

/-- The outputs of the evaluations are the digits of the score. -/
theorem answers_evaluations (hr : 0 ≤ radix) :
    (x.evaluations radix code).map (fun y => (⟨.large, y.output⟩ : ClearBlock)) =
      ClearEngine.ofDigits (digits radix x.count (x.score code)) := by
  unfold evaluations ClearEngine.ofDigits
  rw [digits_eq_map hr, List.map_map, List.map_map]
  rfl

end EnrolledFeature

/-- Features with the probe codes that they meet. -/
abbrev Encounter := EnrolledFeature × Int

/-- The evaluations of encounters, feature by feature. -/
def encounterRows (radix : Int) (encounters : List Encounter) : List (List Evaluation) :=
  encounters.map fun x => x.1.evaluations radix x.2

namespace LookupPlan

/-- The plan of a probe performs the evaluations of its encounters with the features. -/
theorem runs_of_lays {p : LookupPlan} {radix : Int} {encounters : List Encounter}
    (h : p.Lays (encounters.map fun x => (x.2, x.1.lookups))) :
    p.Runs (encounterRows radix encounters) := by
  have lengths : (answers (encounterRows radix encounters)).map List.length =
      ((encounters.map fun x => (x.2, x.1.lookups)).map fun x => x.2.length) := by
    simp [answers, encounterRows, Function.comp_def]
  have lookups : p.lookups = (encounterRows radix encounters).flatten.map (·.lookup) := by
    rw [h.lookups_eq, List.map_flatten, encounterRows, List.map_map, List.flatMap_map]
    simp only [Function.comp_def, EnrolledFeature.map_lookup_evaluations]
    rfl
  have ordered : ∀ x ∈ encounters.map fun x => (x.2, x.1.lookups), InBlockOrder x.2 := by
    intro x hx
    obtain ⟨y, _, rfl⟩ := List.mem_map.1 hx
    exact y.1.inBlockOrder_lookups
  refine ⟨?_, lookups, h.numbers ordered lengths, h.cutOutputs_flatten lengths⟩
  rw [h.codes_eq, List.map_flatten, encounterRows, List.map_map, List.flatMap_map]
  simp only [Function.comp_def, EnrolledFeature.evaluations, EnrolledFeature.lookups,
    List.map_map]
  rfl

end LookupPlan

/-! ### Soundness -/

/-- Each lookup covers no more codes than one evaluation can index. -/
theorem Matcher.checkDomains_eq_ok {total : Nat} {lookups : List DigitLookup}
    (h : checkDomains total lookups = .ok ()) :
    ∀ l ∈ lookups, ∃ size, l.codeCount = .ok size ∧ size ≤ total := by
  induction lookups with
  | nil => simp
  | cons l rest ih =>
      unfold checkDomains at h
      obtain ⟨size, hsize, h⟩ := bind_eq_ok h
      split at h
      · cases h
      · rename_i hfits
        intro l' hl'
        rcases List.mem_cons.1 hl' with rfl | hl'
        · exact ⟨size, hsize, by omega⟩
        · exact ih h l' hl'

theorem Matcher.requireCompatible_eq_ok {σ C B : Type} {m : Matcher σ C B}
    {compiled : EnrolledTemplate} (h : m.requireCompatible compiled = .ok ()) :
    compiled.radix = m.engine.messageModulus ∧
      ∀ l ∈ compiled.lookups.flatten,
        ∃ size, l.codeCount = .ok size ∧ size ≤ m.engine.totalModulus := by
  unfold requireCompatible at h
  split at h
  · cases h
  · rename_i hradix
    exact ⟨not_not.1 hradix, checkDomains_eq_ok h⟩

/-- The lookups of a feature make the digits of the score of a code that they cover, if the codes
fit the message space. -/
theorem EnrolledFeature.sound_evaluations {k : ClearEngine} (hk : k.Sized) {x : EnrolledFeature}
    {d : DigitSystem} {rows columns : Nat} (hx : x.Sound d rows columns)
    (hradix : (d.radix : Int) = k.messageModulus) {code : Int}
    (hcovers : LookupPlan.Covers code x.lookups)
    (hfits : ∀ l ∈ x.lookups, ∃ size, l.codeCount = .ok size ∧ size ≤ k.totalModulus) :
    ∀ y ∈ x.evaluations d.radix code, y.Sound k := by
  intro y hy
  have hlookup : y.lookup ∈ x.lookups := by
    rw [← map_lookup_evaluations d.radix x code]
    exact List.mem_map_of_mem hy
  obtain ⟨block, hblock, rfl⟩ := List.mem_map.1 hy
  have bound := hx.bound _ hlookup
  obtain ⟨size, hsize, low, high⟩ := hcovers _ hlookup
  obtain ⟨size', hsize', hle⟩ := hfits _ hlookup
  rw [bound.codeCount_eq] at hsize hsize'
  cases hsize
  cases hsize'
  have total := hk.total_le
  have radixLe := hk.radix_le
  have radixPos := hk.radix_pos
  have room : k.totalModulus ≤ mostEntries := by
    unfold mostEntries
    omega
  have isMessage : code.toNat < k.totalModulus := by omega
  refine ⟨low, ?_, ?_⟩
  · show code < k.totalModulus
    omega
  · obtain ⟨digit, houtput, hdigit⟩ := bound.within.readsAlike.output_eq
      (bound.radixBounded (by omega)) (by omega) room isMessage
    rw [Int.toNat_of_nonneg low, bound.within.evaluateOrZero_eq, bound.digitAt_eq ⟨low, high⟩]
      at hdigit
    show k.output _ code.toNat = .ok (x.score code / d.radix ^ block % d.radix).toNat
    rw [houtput]
    exact congrArg (fun v : Int => Except.ok v.toNat) (Except.ok.inj hdigit).symm

end SealedMatch
