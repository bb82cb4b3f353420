/-
Module: SealedMatch.Proofs.Template.Scores
Purpose: The lookups of a compiled template hold the normalized scores, up to their digits.
Trusted boundary: none
Main exports: EnrolledFeature.Sound.carries, TemplateCompiler.Prepared.carries,
  TemplateCompiler.lookups_carry_scores
-/
import SealedMatch.Proofs.Matching.Capacity
import SealedMatch.Proofs.Radix.Numerals

namespace SealedMatch

/-- At a probe code, lookups give the digits of a score, as many as there are lookups. -/
def Carries (radix code score : Int) (lookups : List DigitLookup) : Prop :=
  ∃ ds, lookups.mapM (fun l => l.evaluate code) = .ok ds ∧ ds.length = lookups.length ∧
    (∀ x ∈ ds, 0 ≤ x ∧ x < radix) ∧ recompose radix ds = score % radix ^ lookups.length

namespace EnrolledFeature

variable {x : EnrolledFeature} {d : DigitSystem} {rows columns : Nat}

/-- Where its table has a score, a feature carries it. -/
theorem Sound.carries (h : x.Sound d rows columns) {code : Int}
    (hcode : 0 ≤ code ∧ code < columns) :
    Carries d.radix code (x.score code) x.lookups := by
  have covered : ∀ l ∈ x.lookups, ∃ size, l.codeCount = .ok size ∧ 0 ≤ code ∧ code < size :=
    fun l hl => ⟨columns, (h.bound l hl).codeCount_eq, hcode⟩
  unfold Carries
  rw [length_lookups]
  exact ⟨_, h.evaluate_lookups covered, length_digits _ _ _, digits_range d.radix_pos _ _,
    recompose_digits d.radix_pos _ _⟩

theorem Sound.axisLength_eq (h : x.Sound d rows columns) : x.table.axisLength 1 = .ok columns := by
  unfold Tensor.axisLength
  rw [h.grid.shape_eq]
  rfl

end EnrolledFeature

namespace TemplateCompiler

variable {c : TemplateCompiler} {tables : List TableSource} {template : List Int}
  {compiled : EnrolledTemplate} {earlyStop : Bool}

theorem digitCounts_nonneg (c : TemplateCompiler) (earlyStop : Bool) :
    ∀ n ∈ c.digitCounts earlyStop, 0 ≤ n := by
  intro n hn
  unfold digitCounts at hn
  split at hn
  · obtain ⟨m, _, rfl⟩ := List.mem_map.1 hn
    exact Int.natCast_nonneg m
  · obtain ⟨t, _, rfl⟩ := List.mem_map.1 hn
    exact Int.natCast_nonneg _

/-- Every feature of a template that compiles has its digit count of lookups, which carry the scores
in the row of the template code. -/
theorem Prepared.carries (h : c.Prepared tables)
    (hcompile : c.compile template earlyStop = .ok compiled) {f : Nat} {lookups : List DigitLookup}
    (hf : compiled.lookups[f]? = some lookups) :
    ∃ t code columns, c.normalized[f]? = some t ∧ template[f]? = some code ∧
      t.axisLength 1 = .ok columns ∧
      (c.digitCounts earlyStop)[f]? = some (lookups.length : Int) ∧
      ∀ p : Int, 0 ≤ p → p < columns → ∃ score, t.read [code, p] = .ok score ∧
        Carries c.configuration.radix p score lookups := by
  obtain ⟨_, _, _, features, htables, htemplate, hlookups, hsound, hcounts⟩ :=
    h.compile_eq_ok hcompile
  rw [← hlookups, List.getElem?_map] at hf
  obtain ⟨x, hx, rfl⟩ := Option.map_eq_some_iff.1 hf
  obtain ⟨rows, columns, sound⟩ := hsound x (List.mem_of_getElem? hx)
  obtain ⟨n, hn, hcount⟩ := hcounts f x hx
  have nonneg := c.digitCounts_nonneg earlyStop n (List.mem_of_getElem? hn)
  have count : (x.lookups.length : Int) = n := by
    rw [EnrolledFeature.length_lookups, hcount, Int.toNat_of_nonneg nonneg]
  refine ⟨x.table, x.template, columns, ?_, ?_, sound.axisLength_eq, count ▸ hn,
    fun p hlow hhigh => ⟨x.score p, sound.read_eq ⟨hlow, hhigh⟩, sound.carries ⟨hlow, hhigh⟩⟩⟩
  · rw [← htables, List.getElem?_map, hx]
    rfl
  · rw [← htemplate, List.getElem?_map, hx]
    rfl

/-- Whatever template is compiled, with all digits or with an early stop, the lookups of a feature
give at every probe code within the table as many digits of the normalized score as there are
lookups. For whatever shape a table has, its cells are cut into the digits that its entries have as
numbers, negative or not. -/
theorem lookups_carry_scores :
    (∀ (configuration : MatchPolicy) (tables : List TableSource) (c : TemplateCompiler)
      (template : List Int) (earlyStop : Bool) (compiled : EnrolledTemplate),
      ofTables configuration tables = .ok c → c.compile template earlyStop = .ok compiled →
      compiled.lookups.length = configuration.featureCount ∧
      ∀ (f : Nat) (lookups : List DigitLookup), compiled.lookups[f]? = some lookups →
        ∃ t code columns, c.normalized[f]? = some t ∧ template[f]? = some code ∧
          t.axisLength 1 = .ok columns ∧
          (c.digitCounts earlyStop)[f]? = some (lookups.length : Int) ∧
          ∀ p : Int, 0 ≤ p → p < columns → ∃ score, t.read [code, p] = .ok score ∧
            Carries configuration.radix p score lookups) ∧
    ∀ (d : DigitSystem) (t : Tensor),
      ((∃ blocks, digitTable t d.blockLength d.blockCount = .ok blocks) ↔
        t.shape.length < mostAxes ∧ spread (t.shape ++ [d.blockCount]) ≤ mostEntries) ∧
      ∀ blocks, digitTable t d.blockLength d.blockCount = .ok blocks →
        blocks.shape = t.shape ++ [d.blockCount] ∧
          ∀ (index : List Int) (v : Int), t.read index = .ok v →
            blocks.digitsAt d.blockCount index = .ok (d.decompose v) := by
  refine ⟨fun configuration tables c template earlyStop compiled hc hcompile => ?_, fun d t => ?_⟩
  · obtain ⟨rfl, prepared⟩ := ofTables_eq_ok hc
    obtain ⟨_, _, _, features, htables, _, hlookups, _⟩ := prepared.compile_eq_ok hcompile
    constructor
    · rw [← hlookups, List.length_map, ← prepared.length_normalized, ← htables, List.length_map]
    · exact fun f lookups hf => prepared.carries hcompile hf
  · refine ⟨⟨?_, ?_⟩, ?_⟩
    · rintro ⟨blocks, hblocks⟩
      exact (d.digitTable_eq_ok_iff.1 hblocks).1
    · intro hroom
      exact ⟨_, d.digitTable_eq_ok_iff.2 ⟨hroom, rfl⟩⟩
    · intro blocks hblocks
      obtain ⟨-, rfl⟩ := d.digitTable_eq_ok_iff.1 hblocks
      exact ⟨rfl, fun index v hread => d.digitsAt_of_digitTable hblocks hread⟩

/-- One row with a negative entry. -/
def negativeRow : Tensor := ⟨[1, 2], #[-5, 27], rfl⟩

/-- A score of minus one is carried as three, the residue that two binary digits hold of it, and a
table that holds minus five has the digits of fifty-nine there. -/
theorem lookups_carry_scores_negative :
    (∃ c compiled lookups ds, ofTables samplePolicy (pairOfTables (-1) 3) = .ok c ∧
      c.compile [0, 0] true = .ok compiled ∧ compiled.lookups[0]? = some lookups ∧
      lookups.mapM (fun l => l.evaluate 0) = .ok ds ∧ lookups.length = 2 ∧
      recompose samplePolicy.radix ds = 3) ∧
    ∃ (d : DigitSystem) (blocks : Tensor), d.blockLength = 2 ∧ d.blockCount = 3 ∧
      digitTable negativeRow d.blockLength d.blockCount = .ok blocks ∧
      negativeRow.read [0, 0] = .ok (-5) ∧ blocks.digitsAt 3 [0, 0] = .ok [3, 2, 3] := by
  have evaluated : ((ofTables samplePolicy (pairOfTables (-1) 3)).toOption.map fun c =>
      (c.normalized.map fun t => ((t.axisLength 1).toOption, (t.read [0, 0]).toOption),
        (c.compile [0, 0] true).toOption.map fun compiled => compiled.digitCounts)) =
          some ([(some 2, some (-1)), (some 2, some 3)], some [2, 2]) := by
    decide +kernel
  obtain ⟨carried, cut⟩ := lookups_carry_scores
  constructor
  · obtain ⟨c, hc, seen⟩ := ofTables_evaluated evaluated
    obtain ⟨hnormalized, hcompiled⟩ := Prod.mk.inj seen
    obtain ⟨compiled, hcompile, hcounts⟩ := Option.map_eq_some_iff.1 hcompiled
    have hcompile := toOption_eq_some hcompile
    have first : (compiled.lookups.map List.length)[0]? = some 2 := by
      show compiled.digitCounts[0]? = some 2
      rw [hcounts]
      rfl
    rw [List.getElem?_map] at first
    obtain ⟨lookups, hlookups, hlength⟩ := Option.map_eq_some_iff.1 first
    obtain ⟨t, code, columns, ht, hcode, hcolumns, _, hscores⟩ :=
      (carried _ _ c _ _ compiled hc hcompile).2 0 lookups hlookups
    have shown := congrArg (fun view => view[0]?) hnormalized
    simp only [List.getElem?_map, ht, hcolumns, Option.map_some] at shown
    obtain ⟨hwidth, hread⟩ := Prod.mk.inj (Option.some.inj shown)
    obtain rfl : columns = 2 := Option.some.inj hwidth
    obtain rfl : code = 0 := (Option.some.inj hcode).symm
    obtain ⟨score, hscore, ds, hds, _, _, hresidue⟩ := hscores 0 (by decide) (by decide)
    rw [hscore] at hread
    obtain rfl : score = -1 := Option.some.inj hread
    rw [hlength] at hresidue
    exact ⟨c, compiled, lookups, ds, hc, hcompile, hlookups, hds, hlength, hresidue⟩
  · have hcut := cut ⟨2, 3, by decide, by decide, by decide, by decide⟩ negativeRow
    obtain ⟨blocks, hblocks⟩ := hcut.1.2 ⟨by decide, by decide⟩
    obtain ⟨_, hdigits⟩ := hcut.2 blocks hblocks
    exact ⟨_, blocks, rfl, rfl, hblocks, rfl, hdigits [0, 0] (-5) rfl⟩

end TemplateCompiler

end SealedMatch
