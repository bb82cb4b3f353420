/-
Module: SealedMatch.Proofs.Matching.Capacity
Purpose: When the digits of a template add up to the reference score, if the capacity check passes.
Trusted boundary: none
Main exports: EnrolledTemplate.digitTotal, TemplateCompiler.digitTotal_ok, emod_sub_eq_iff,
  TemplateCompiler.digitTotal_eq_iff
-/
import SealedMatch.Proofs.Matching.Correctness

namespace SealedMatch

/-! ### Digits in the clear -/

namespace EnrolledTemplate

/-- The value that the lookups of a feature hold for a probe code. -/
def featureValue (radix code : Int) (row : List DigitLookup) : Except Failure Int := do
  let digits ← row.mapM fun l => l.evaluate code
  pure (recompose radix digits)

/-- The sum of the values of all features, as far as the sum under encryption has digits for it. -/
def digitTotal (t : EnrolledTemplate) (probe : List Int) : Except Failure Int := do
  let values ← (probe.zip t.lookups).mapM fun x => featureValue t.radix x.1 x.2
  pure (values.sum % t.radix ^ t.sumWidth.toNat)

end EnrolledTemplate

/-- A feature holds the residue of its score. -/
theorem EnrolledFeature.featureValue_ok {x : EnrolledFeature} {d : DigitSystem}
    {rows columns : Nat} (h : x.Sound d rows columns) {code : Int}
    (hcode : LookupPlan.Covers code x.lookups) :
    EnrolledTemplate.featureValue d.radix code x.lookups = .ok (x.value d.radix code) := by
  unfold EnrolledTemplate.featureValue
  rw [h.evaluate_lookups hcode, ok_bind, recompose_digits d.radix_pos]
  rfl

namespace TemplateCompiler

variable {configuration : MatchPolicy} {tables : List TableSource} {c : TemplateCompiler}
  {template probe : List Int} {compiled : EnrolledTemplate} {earlyStop : Bool}

/-- The digits of a compiled template add up to the total that a verification reveals. -/
theorem digitTotal_ok (hc : c.Prepared tables) (hcovers : c.Covers template probe)
    (hcompile : c.compile template earlyStop = .ok compiled) :
    compiled.digitTotal probe = .ok (c.residueTrace template probe compiled).total := by
  obtain ⟨features, holds, htables, htemplate, _⟩ := hc.holds hcompile
  have covered := hcovers.lookups holds htables htemplate
  have pairs := holds.pairs probe
  have each : (probe.zip compiled.lookups).mapM
      (fun x => EnrolledTemplate.featureValue compiled.radix x.1 x.2) =
        .ok (encounterValues compiled.radix (features.zip probe)) := by
    rw [pairs] at covered ⊢
    rw [List.mapM_map]
    refine mapM_ok fun x hx => ?_
    obtain ⟨rows, columns, hsound⟩ := holds.sound x.1 (List.of_mem_zip hx).1
    rw [holds.radix_eq]
    exact EnrolledFeature.featureValue_ok hsound (covered _ (List.mem_map_of_mem hx))
  have width : compiled.sumWidth.toNat = c.configuration.sumWidth := by
    rw [holds.sumWidth_eq, Int.toNat_natCast]
  unfold EnrolledTemplate.digitTotal
  rw [each, ok_bind, width, ← trace_eq_residueTrace holds holds.radix_eq htables htemplate probe]
  rfl

end TemplateCompiler

/-! ### Residues of scores -/

/-- A total that has room is its own residue after taking something away exactly if it is not
negative and only whole turns are taken away. -/
theorem emod_sub_eq_iff {total capacity : Int} (taken : Int) (hpos : 0 < capacity)
    (hroom : total < capacity) :
    (total - taken) % capacity = total ↔ 0 ≤ total ∧ capacity ∣ taken := by
  constructor
  · intro same
    have turns := Int.dvd_self_sub_emod (x := total - taken) (m := capacity)
    rw [same] at turns
    have whole : capacity ∣ -taken := by
      have : total - taken - total = -taken := by ring
      rwa [this] at turns
    exact ⟨same ▸ Int.emod_nonneg _ hpos.ne', Int.dvd_neg.1 whole⟩
  · rintro ⟨nonneg, whole⟩
    rw [Int.sub_emod, Int.emod_eq_zero_of_dvd whole, sub_zero, Int.emod_emod_of_dvd _ (dvd_refl _)]
    exact Int.emod_eq_of_lt nonneg hroom

/-- Residues by one capacity fall short of the numbers by whole capacities. -/
theorem sum_emod (capacity : Int) (scores : List Int) :
    (scores.map (· % capacity)).sum =
      scores.sum - capacity * (scores.map (· / capacity)).sum := by
  induction scores with
  | nil => simp
  | cons v scores ih =>
      simp only [List.map_cons, List.sum_cons]
      rw [ih, Int.emod_def]
      ring

/-- Where all features have as many digits, their residues are by one capacity. -/
theorem scoreResidues_uniform {radix : Int} {scores : List Int} {counts : List Nat} {n : Nat}
    (hlength : counts.length = scores.length) (h : ∀ count ∈ counts, count = n) :
    scoreResidues radix scores counts = scores.map (· % radix ^ n) := by
  unfold scoreResidues
  induction scores generalizing counts with
  | nil => simp
  | cons v scores ih =>
      cases counts with
      | nil => simp at hlength
      | cons count counts =>
          rw [List.zipWith_cons_cons, List.map_cons, h count (by simp)]
          rw [ih (by simpa using hlength) fun m hm => h m (List.mem_cons_of_mem count hm)]

namespace TemplateCompiler

variable {configuration : MatchPolicy} {tables : List TableSource} {c : TemplateCompiler}
  {template probe : List Int} {compiled : EnrolledTemplate}

/-- With all digits, the features show the residues of their scores by the capacity of these. -/
theorem featureValues_full (hc : c.Prepared tables)
    (hcompile : c.compile template false = .ok compiled)
    (hhas : List.Forall₂ Tensor.Has c.normalized (template.zip probe)) :
    (c.residueTrace template probe compiled).featureValues =
      (c.scores template probe).map (· % (c.configuration.digitSystem.capacity : Int)) := by
  have capacity : (c.configuration.digitSystem.capacity : Int) =
      (c.configuration.radix : Int) ^ c.configuration.digitSystem.blockCount :=
    c.configuration.digitSystem.capacity_eq
  rw [capacity]
  exact scoreResidues_uniform (hc.length_scores hcompile hhas).symm (digitCounts_full hc hcompile)

/-- With all digits, the total is the score less what the digits of the features do not hold. -/
theorem residueTrace_full (hc : c.Prepared tables)
    (hcompile : c.compile template false = .ok compiled)
    (hhas : List.Forall₂ Tensor.Has c.normalized (template.zip probe)) :
    (c.residueTrace template probe compiled).total =
      ((c.scores template probe).sum - c.configuration.digitSystem.capacity *
        ((c.scores template probe).map (· / (c.configuration.digitSystem.capacity : Int))).sum) %
          (c.configuration.radix : Int) ^ c.configuration.sumWidth := by
  rw [← sum_emod, ← featureValues_full hc hcompile hhas]
  rfl

/-- If the capacity check passes, the digits of a fully compiled template add up to the reference
score exactly if the score is not negative and what the digits do not hold of the features comes to
whole turns of the sum. In particular they do where the digits hold the normalized scores of all
features. -/
theorem digitTotal_eq_iff (hc : ofTables configuration tables = .ok c)
    (hfits : c.capacity.fits = true) (hcovers : c.Covers template probe) :
    ∃ compiled scores total, c.compile template false = .ok compiled ∧
      c.clearScores template probe = .ok scores ∧ c.clearScore template probe = .ok scores.sum ∧
      compiled.digitTotal probe = .ok total ∧
      (total = scores.sum ↔ 0 ≤ scores.sum ∧
        (configuration.radix : Int) ^ configuration.sumWidth ∣ configuration.digitSystem.capacity *
          (scores.map (· / (configuration.digitSystem.capacity : Int))).sum) ∧
      ((∀ v ∈ scores, 0 ≤ v ∧ v < configuration.digitSystem.capacity) → total = scores.sum) := by
  obtain ⟨hsame, prepared⟩ := ofTables_eq_ok hc
  subst hsame
  have hhas := hcovers.has prepared
  obtain ⟨compiled, _, hcompile, _⟩ := accepted hc hcovers false
  have positive : (0 : Int) < (c.configuration.radix : Int) ^ c.configuration.sumWidth := by
    have := c.configuration.digitSystem.two_le_radix
    exact pow_pos (Int.natCast_pos.2 (by unfold MatchPolicy.radix; omega)) _
  have iff := emod_sub_eq_iff (c.configuration.digitSystem.capacity *
    ((c.scores template probe).map (· / (c.configuration.digitSystem.capacity : Int))).sum)
    positive (prepared.sum_scores_lt hfits hhas)
  rw [← residueTrace_full prepared hcompile hhas] at iff
  refine ⟨compiled, c.scores template probe, _, hcompile, clearScores_ok hhas, clearScore_ok hhas,
    digitTotal_ok prepared hcovers hcompile, iff, fun range => iff.2 ⟨?_, ?_⟩⟩
  · exact List.sum_nonneg fun v hv => (range v hv).1
  · have none : (c.scores template probe).map
        (· / (c.configuration.digitSystem.capacity : Int)) =
          (c.scores template probe).map fun _ => 0 :=
      List.map_congr_left fun v hv => Int.ediv_eq_zero_of_lt (range v hv).1 (range v hv).2
    rw [none]
    simp

/-- Two digits hold the scores of the sample. -/
theorem digitTotal_eq_iff_sample :
    ∃ c, ofTables samplePolicy sampleTables = .ok c ∧ c.capacity.fits = true ∧
      c.Covers [0, 1] [1, 2] ∧
      ∃ compiled scores total, c.compile [0, 1] false = .ok compiled ∧
        c.clearScores [0, 1] [1, 2] = .ok scores ∧ scores = [2, 3] ∧
        c.clearScore [0, 1] [1, 2] = .ok scores.sum ∧
        compiled.digitTotal [1, 2] = .ok total ∧ total = scores.sum := by
  have evaluated : ((ofTables samplePolicy sampleTables).toOption.map fun c =>
      (c.capacity.fits, c.normalized.map (·.shape), (c.clearScores [0, 1] [1, 2]).toOption)) =
        some (true, [[2, 3], [2, 3]], some [2, 3]) := by
    decide +kernel
  obtain ⟨c, hc, seen⟩ := ofTables_evaluated evaluated
  obtain ⟨hfits, seen⟩ := Prod.mk.inj seen
  obtain ⟨hshapes, hscores⟩ := Prod.mk.inj seen
  have covers := covers_sample hshapes
  obtain ⟨compiled, scores, total, hcompile, hlisted, hscore, htotal, _, held⟩ :=
    digitTotal_eq_iff hc hfits covers
  rw [hlisted] at hscores
  obtain rfl : scores = [2, 3] := Option.some.inj hscores
  exact ⟨c, hc, hfits, covers, compiled, _, total, hcompile, hlisted, rfl, hscore, htotal,
    held (by decide)⟩

/-- Two tables of one template code and two probe codes, the second code with the score zero. -/
def pairOfTables (first second : Int) : List TableSource :=
  [[[first, 0]], [[second, 0]]].map fun rows => .nested (.list (rows.map Value.ints))

/-- The digits of a template miss its score, although the capacity check passes. -/
def Misses (first second score total : Int) : Prop :=
  ∃ c compiled, ofTables samplePolicy (pairOfTables first second) = .ok c ∧
    c.capacity.fits = true ∧ c.Covers [0, 0] [0, 0] ∧ c.compile [0, 0] false = .ok compiled ∧
    c.clearScore [0, 0] [0, 0] = .ok score ∧ compiled.digitTotal [0, 0] = .ok total ∧
    total ≠ score

theorem misses_of_evaluated {first second score total : Int} (hne : total ≠ score)
    (h : ((ofTables samplePolicy (pairOfTables first second)).toOption.map fun c =>
      (c.capacity.fits, c.normalized.map (·.shape), (c.clearScore [0, 0] [0, 0]).toOption,
        (c.compile [0, 0] false >>= fun compiled => compiled.digitTotal [0, 0]).toOption)) =
          some (true, [[1, 2], [1, 2]], some score, some total)) :
    Misses first second score total := by
  obtain ⟨c, hc, seen⟩ := ofTables_evaluated h
  obtain ⟨hfits, seen⟩ := Prod.mk.inj seen
  obtain ⟨hshapes, seen⟩ := Prod.mk.inj seen
  obtain ⟨hscore, htotal⟩ := Prod.mk.inj seen
  obtain ⟨compiled, hcompile, htotal⟩ := bind_eq_ok (toOption_eq_some htotal)
  exact ⟨c, compiled, hc, hfits, covers_of_shapes hshapes rfl (by decide) (by decide), hcompile,
    toOption_eq_some hscore, htotal, hne⟩

/-- A score beyond the digits of a feature is cut, and a negative one counts from the top. -/
theorem digitTotal_misses_scores : Misses 5 2 7 3 ∧ Misses (-1) 3 2 6 := by
  constructor
  · exact misses_of_evaluated (by decide) (by decide +kernel)
  · exact misses_of_evaluated (by decide) (by decide +kernel)

end TemplateCompiler

end SealedMatch
