/-
Module: SealedMatch.Proofs.Matching.Correctness
Purpose: Verifying a fully compiled template decides by the signed score.
Trusted boundary: none
Main exports: TemplateCompiler.clearScore_ok, signedScore, TemplateCompiler.verify_signed
-/
import Mathlib.Algebra.Order.BigOperators.Group.List
import SealedMatch.Proofs.Matching.Acceptance
import SealedMatch.Proofs.Table.Capacity
import SealedMatch.Proofs.Table.Matrix

namespace SealedMatch

/-! ### Codes in range -/

/-- A pair of codes names a row and a column of a table. -/
def Tensor.Has (t : Tensor) (codes : Int × Int) : Prop :=
  ∃ rows columns, t.Grid rows columns ∧ (0 ≤ codes.1 ∧ codes.1 < rows) ∧
    (0 ≤ codes.2 ∧ codes.2 < columns) ∧ isWord codes.1 = true ∧ isWord codes.2 = true

theorem Tensor.Has.read_eq {t : Tensor} {codes : Int × Int} (h : t.Has codes) :
    t.read [codes.1, codes.2] = .ok (t.cell codes.1 codes.2) := by
  obtain ⟨rows, columns, hgrid, hrow, hcolumn, hwords⟩ := h
  have entry := hgrid.read_eq hrow hcolumn hwords
  rw [entry, Tensor.cell_of_read entry]

/-- What a pair of codes names is an entry. -/
theorem Tensor.Has.mem {t : Tensor} {codes : Int × Int} (h : t.Has codes) :
    t.cell codes.1 codes.2 ∈ t.entries.toList := by
  obtain ⟨rows, columns, hgrid, hrow, hcolumn, hwords⟩ := h
  have inside : codes.1.toNat * columns + codes.2.toNat < t.entries.toList.length := by
    rw [Array.length_toList]
    exact hgrid.place_lt (by omega) (by omega)
  rw [Tensor.cell_of_read (hgrid.read_eq hrow hcolumn hwords), Array.getD_eq_getD_getElem?,
    ← Array.getElem?_toList, List.getElem?_eq_getElem inside]
  exact List.getElem_mem inside

namespace TemplateCompiler

variable {c : TemplateCompiler} {tables : List TableSource} {template probe : List Int}

/-- In every table, the codes of a template and a probe in range name an entry. -/
theorem Covers.has (h : c.Covers template probe) (hprepared : c.Prepared tables) :
    List.Forall₂ Tensor.Has c.normalized (template.zip probe) := by
  have hlength := h.template_length
  have hlength' := h.probe_length
  refine List.forall₂_iff_get.2 ⟨by rw [List.length_zip]; omega, fun f hf hf' => ?_⟩
  have rooms := forall₂_left hprepared.decomposed (p := fun t => ∃ rows columns,
    t.Grid rows columns ∧ rows ≤ mostEntries ∧ columns ≤ mostEntries) ?_
  · obtain ⟨rows, columns, hgrid, hroom⟩ := rooms _ (List.getElem_mem hf)
    have htemplate : f < template.length := by omega
    have hprobe : f < probe.length := by omega
    obtain ⟨rows', columns', hshape, hrow, hcolumn⟩ := h.codes f _ _ _
      (List.getElem?_eq_getElem hf) (List.getElem?_eq_getElem htemplate)
      (List.getElem?_eq_getElem hprobe)
    rw [hgrid.shape_eq] at hshape
    cases hshape
    simp only [List.get_eq_getElem, List.getElem_zip]
    exact ⟨rows, columns, hgrid, hrow, hcolumn,
      DigitLookup.isWord_of_lt hrow.1 hrow.2 hroom.1,
      DigitLookup.isWord_of_lt hcolumn.1 hcolumn.2 hroom.2⟩
  · rintro t digits ⟨rows, columns, hgrid, _, hroom⟩
    have axes := DigitLookup.axes_le_mostEntries hgrid
      c.configuration.digitSystem.blockCount_pos hroom
    exact ⟨rows, columns, hgrid, axes.1, axes.2.1⟩

/-! ### Scores in the clear -/

theorem clearScores_ok (h : List.Forall₂ Tensor.Has c.normalized (template.zip probe)) :
    c.clearScores template probe = .ok (c.scores template probe) :=
  mapM_ok fun x hx => (forall_zip_of_forall₂ h x hx).read_eq

/-- The reference score is the sum of the normalized scores. -/
theorem clearScore_ok (h : List.Forall₂ Tensor.Has c.normalized (template.zip probe)) :
    c.clearScore template probe = .ok (c.scores template probe).sum := by
  unfold clearScore
  rw [clearScores_ok h, List.sum_eq_foldl]
  rfl

/-- Scores are entries of their tables. -/
theorem scores_mem (h : List.Forall₂ Tensor.Has c.normalized (template.zip probe)) :
    ∀ v ∈ c.scores template probe, ∃ t ∈ c.normalized, v ∈ t.entries.toList := by
  intro v hv
  obtain ⟨x, hx, rfl⟩ := List.mem_map.1 hv
  exact ⟨x.1, (List.of_mem_zip hx).1, (forall_zip_of_forall₂ h x hx).mem⟩

/-- The scores of a template and a probe are a choice of one entry from every table. -/
theorem scores_choice (h : List.Forall₂ Tensor.Has c.normalized (template.zip probe)) :
    Choice c.normalized (c.scores template probe) := by
  unfold scores Choice
  generalize c.normalized = tables at h
  generalize template.zip probe = codes at h
  induction h with
  | nil => exact .nil
  | cons head _ ih => exact .cons head.mem ih

/-- If the sums of the largest scores fit, no total wraps around. -/
theorem Prepared.sum_scores_lt (h : c.Prepared tables) (hfits : c.capacity.fits = true)
    (hhas : List.Forall₂ Tensor.Has c.normalized (template.zip probe)) :
    (c.scores template probe).sum <
      (c.configuration.radix : Int) ^ c.configuration.sumWidth := by
  obtain ⟨maxima, hmaxima, hlt⟩ := CapacityCheck.lt_of_fits h.capacity_eq hfits
  exact lt_of_le_of_lt ((scores_choice hhas).sum_le hmaxima) hlt

/-! ### Digits of scores -/

/-- Without early stopping every feature has all digits. -/
theorem digitCounts_full (hc : c.Prepared tables) {compiled : EnrolledTemplate}
    (hcompile : c.compile template false = .ok compiled) :
    ∀ count ∈ compiled.digitCounts, count = c.configuration.digitSystem.blockCount := by
  obtain ⟨features, holds, _, _, hcounts⟩ := hc.holds hcompile
  intro count hcount
  rw [holds.digitCounts_eq] at hcount
  obtain ⟨x, hx, rfl⟩ := List.mem_map.1 hcount
  obtain ⟨f, hf, hget⟩ := List.getElem_of_mem hx
  obtain ⟨n, hn, hcount⟩ := hcounts f x (by rw [← hget]; exact List.getElem?_eq_getElem hf)
  unfold TemplateCompiler.digitCounts at hn
  rw [if_neg (by decide), List.getElem?_map, Option.map_eq_some_iff] at hn
  obtain ⟨_, _, rfl⟩ := hn
  simp [hcount]

/-- Where codes are in range, there is a score for every feature of the compiled template. -/
theorem Prepared.length_scores (hc : c.Prepared tables) {compiled : EnrolledTemplate}
    {earlyStop : Bool} (hcompile : c.compile template earlyStop = .ok compiled)
    (hhas : List.Forall₂ Tensor.Has c.normalized (template.zip probe)) :
    (c.scores template probe).length = compiled.digitCounts.length := by
  obtain ⟨features, holds, htables, _⟩ := hc.holds hcompile
  unfold scores
  rw [holds.digitCounts_eq, List.length_map, List.length_map, List.length_zip, ← hhas.length_eq,
    Nat.min_self, ← htables, List.length_map]

end TemplateCompiler

/-- Scores within the range of their digits are their own residues. -/
theorem scoreResidues_eq_self {radix : Int} {scores : List Int} {counts : List Nat}
    (hlength : counts.length = scores.length)
    (h : ∀ v ∈ scores, ∀ count ∈ counts, 0 ≤ v ∧ v < radix ^ count) :
    scoreResidues radix scores counts = scores := by
  unfold scoreResidues
  induction scores generalizing counts with
  | nil => simp
  | cons v scores ih =>
      cases counts with
      | nil => simp at hlength
      | cons count counts =>
          have here := h v (by simp) count (by simp)
          rw [List.zipWith_cons_cons, Int.emod_eq_of_lt here.1 here.2]
          rw [ih (by simpa using hlength) fun w hw n hn =>
            h w (List.mem_cons_of_mem v hw) n (List.mem_cons_of_mem count hn)]

/-! ### Signed scores -/

/-- The sum of the entries that the codes of a template and a probe name in tables as they are
handed in. -/
def signedScore (tables : List TableSource) (template probe : List Int) : Int :=
  ((tables.zip (template.zip probe)).map fun x => matrixEntry x.1.matrix x.2.1 x.2.2).sum

/-- Once they are shifted by the absolute value of the corner, the entries of a table are less than
a bound, and none of them is negative or wraps around. -/
def ShiftsBelow (bound : Nat) (source : TableSource) : Prop :=
  ∀ v ∈ source.matrix.flatten, 0 ≤ v + (cornerEntry source.matrix).natAbs ∧
    v + (cornerEntry source.matrix).natAbs < bound ∧
    v + (cornerEntry source.matrix).natAbs < 2 ^ 63

instance (bound : Nat) (source : TableSource) : Decidable (ShiftsBelow bound source) :=
  inferInstanceAs (Decidable (∀ v ∈ source.matrix.flatten, _))

/-- A normalized table shows what was handed in, shifted by its offset. -/
def ShowsShifted (x : Tensor × Int) (source : TableSource) : Prop :=
  x.2 = (cornerEntry source.matrix).natAbs ∧
    ∃ columns, x.1.Shows (shiftMatrix source.matrix x.2) columns

theorem showsShifted_of_normalize {source : TableSource} {feature bound : Nat} {x : Tensor × Int}
    (hn : normalize source feature = .ok x) (hshifts : ShiftsBelow bound source) :
    ShowsShifted x source :=
  normalize_shows hn fun v hv => ⟨(hshifts v hv).1, (hshifts v hv).2.2⟩

/-- Where codes are in range, shifting a table shifts the entry that they name. -/
theorem ShowsShifted.cell_eq {x : Tensor × Int} {source : TableSource}
    (h : ShowsShifted x source) {codes : Int × Int} (hcodes : x.1.Has codes) :
    x.1.cell codes.1 codes.2 = matrixEntry source.matrix codes.1 codes.2 + x.2 := by
  obtain ⟨_, columns, hshows⟩ := h
  obtain ⟨rows, columns', hgrid, hrow, hcolumn, hwords⟩ := hcodes
  have same := hgrid.shape_eq
  rw [hshows.grid.shape_eq] at same
  cases same
  have hrow' : codes.1.toNat < source.matrix.length := by
    have : (shiftMatrix source.matrix x.2).length = source.matrix.length := by simp [shiftMatrix]
    omega
  have width := hshows.uniform _ (List.mem_map_of_mem (List.getElem_mem hrow'))
  rw [List.length_map] at width
  rw [Tensor.cell_of_read (hshows.read_eq hrow hcolumn hwords)]
  unfold matrixEntry shiftMatrix
  rw [List.getD_eq_getElem?_getD, List.getD_eq_getElem?_getD, List.getD_eq_getElem?_getD,
    List.getD_eq_getElem?_getD, List.getElem?_map, List.getElem?_eq_getElem hrow',
    Option.map_some, Option.getD_some, Option.getD_some, List.getElem?_map,
    List.getElem?_eq_getElem (by omega)]
  rfl

/-- Entries of a shifted table are in range. -/
theorem ShowsShifted.range {x : Tensor × Int} {source : TableSource} {bound : Nat}
    (h : ShowsShifted x source) (hshifts : ShiftsBelow bound source) :
    ∀ v ∈ x.1.entries.toList, 0 ≤ v ∧ v < bound := by
  obtain ⟨hoffset, columns, hshows⟩ := h
  intro v hv
  rw [hshows.entries_eq, shiftMatrix, ← List.map_flatten] at hv
  obtain ⟨w, hw, rfl⟩ := List.mem_map.1 hv
  have := hshifts w hw
  rw [hoffset]
  omega

/-- The normalized total is the signed total moved up by all offsets. -/
theorem sum_cells_eq {shifted : List (Tensor × Int)} {tables : List TableSource}
    (h : List.Forall₂ ShowsShifted shifted tables) {codes : List (Int × Int)}
    (hcodes : List.Forall₂ Tensor.Has (shifted.map Prod.fst) codes) :
    (((shifted.map Prod.fst).zip codes).map fun x => x.1.cell x.2.1 x.2.2).sum =
      ((tables.zip codes).map fun x => matrixEntry x.1.matrix x.2.1 x.2.2).sum +
        (shifted.map Prod.snd).sum := by
  induction h generalizing codes with
  | nil => simp
  | cons head tail ih =>
      cases hcodes with
      | cons hhas hrest =>
          simp only [List.map_cons, List.zip_cons_cons, List.sum_cons]
          rw [ih hrest, head.cell_eq hhas]
          ring

namespace TemplateCompiler

variable {configuration : MatchPolicy} {tables : List TableSource} {c : TemplateCompiler}
  {template probe : List Int}

/-- The total of a template and a probe on the scale of normalized scores. -/
theorem sum_scores_eq (hprepared : c.Prepared tables) {bound : Nat}
    (hshifts : ∀ source ∈ tables, ShiftsBelow bound source)
    (hhas : List.Forall₂ Tensor.Has c.normalized (template.zip probe)) :
    (c.scores template probe).sum = signedScore tables template probe + c.totalOffset ∧
      ∀ v ∈ c.scores template probe, 0 ≤ v ∧ v < bound := by
  obtain ⟨shifted, hnormalized, htotal, hall⟩ := normalizeFrom_eq_ok hprepared.normalized_eq
  have shows : List.Forall₂ (fun x source => ShowsShifted x source ∧ ShiftsBelow bound source)
      shifted tables := by
    refine (forall₂_and_right (List.Forall₂.flip (R := flip _) hall) hshifts).imp ?_
    rintro x source ⟨⟨feature, hn⟩, hshift⟩
    exact ⟨showsShifted_of_normalize hn hshift, hshift⟩
  refine ⟨?_, fun v hv => ?_⟩
  · unfold scores signedScore
    rw [hnormalized] at hhas ⊢
    rw [htotal]
    exact sum_cells_eq (shows.imp fun _ _ hx => hx.1) hhas
  · obtain ⟨t, ht, hmem⟩ := scores_mem hhas v hv
    rw [hnormalized] at ht
    obtain ⟨x, hx, rfl⟩ := List.mem_map.1 ht
    have ranges := forall₂_left shows
      (p := fun x => ∀ v ∈ x.1.entries.toList, 0 ≤ v ∧ v < (bound : Int))
      fun x source hboth => hboth.1.range hboth.2
    exact ranges x hx v hmem

/-- Verifying a fully compiled template accepts exactly if the signed score reaches the threshold of
the policy, whatever the strategy, the randomness and the order in which workers finish. The trace
shows the reference score. -/
theorem verify_signed (hc : ofTables configuration tables = .ok c)
    (hshifts : ∀ source ∈ tables, ShiftsBelow configuration.digitSystem.capacity source)
    (hfits : c.capacity.fits = true) (hcovers : c.Covers template probe) {e : SimulatedEngine}
    (he : e.Fits c) {s : Strategy} (hs : s.Staffed) (stamp : Stamp) (datasetName : String)
    (debug : Bool) (schedule : Schedule) (session : Session) :
    ∃ compiled r, c.compile template false = .ok compiled ∧
      (((e.matcher s).verify stamp probe compiled datasetName debug schedule).run session).1 =
        .ok r ∧
      r.status = (if (configuration.threshold : Int) ≤ signedScore tables template probe
        then .accept else .reject) ∧
      (debug = true → ∃ trace, r.trace? = some trace ∧
        c.clearScore template probe = .ok trace.total) := by
  obtain ⟨hsame, prepared⟩ := ofTables_eq_ok hc
  subst hsame
  have hhas := hcovers.has prepared
  obtain ⟨hsum, hrange⟩ := sum_scores_eq prepared hshifts hhas
  obtain ⟨compiled, plan, hcompile, hplan, hhosts⟩ := accepted hc hcovers false
  obtain ⟨hthreshold, _⟩ := prepared.compile_eq_ok hcompile
  have residues : scoreResidues c.configuration.radix (c.scores template probe)
      compiled.digitCounts = c.scores template probe := by
    apply scoreResidues_eq_self (prepared.length_scores hcompile hhas).symm
    intro v hv n hn
    rw [digitCounts_full prepared hcompile n hn]
    exact_mod_cast hrange v hv
  have small := prepared.sum_scores_lt hfits hhas
  have nonneg : 0 ≤ (c.scores template probe).sum :=
    List.sum_nonneg fun v hv => (hrange v hv).1
  have total : (c.residueTrace template probe compiled).total = (c.scores template probe).sum := by
    unfold residueTrace Trace.ofValues
    rw [residues]
    exact Int.emod_eq_of_lt nonneg small
  obtain ⟨r, hr, hstatus, htrace⟩ := (verify_yields hc hcompile hplan (hhosts e s he hs) stamp
    datasetName debug schedule).run session
  refine ⟨compiled, r, hcompile, hr, ?_, fun hdebug => ⟨_, by rw [htrace, if_pos hdebug], ?_⟩⟩
  · rw [hstatus, total, hsum, hthreshold]
    unfold TemplateCompiler.threshold
    have moved : c.configuration.threshold + c.totalOffset ≤
        signedScore tables template probe + c.totalOffset ↔
          (c.configuration.threshold : Int) ≤ signedScore tables template probe :=
      Int.add_le_add_iff_right _
    simp only [moved]
  · rw [clearScore_ok hhas, total]

theorem verify_signed_sample :
    ∃ c, ofTables samplePolicy sampleTables = .ok c ∧
      (∀ source ∈ sampleTables, ShiftsBelow samplePolicy.digitSystem.capacity source) ∧
      c.capacity.fits = true ∧ c.Covers [0, 1] [1, 2] ∧ SimulatedEngine.smallest.Fits c ∧
      (placed .host).Staffed ∧
      ∃ compiled r, c.compile [0, 1] false = .ok compiled ∧
        (((SimulatedEngine.smallest.matcher (placed .host)).verify sampleStamp [1, 2] compiled
          "faces" true [1]).run Session.start).1 = .ok r ∧
        r.status = (if ((1 : Nat) : Int) ≤ signedScore sampleTables [0, 1] [1, 2]
          then .accept else .reject) ∧
        ∃ trace, r.trace? = some trace ∧ c.clearScore [0, 1] [1, 2] = .ok trace.total := by
  have evaluated : ((ofTables samplePolicy sampleTables).toOption.map fun c =>
      (c.capacity.fits, c.normalized.map (·.shape))) = some (true, [[2, 3], [2, 3]]) := by
    decide +kernel
  obtain ⟨c, hc, seen⟩ := ofTables_evaluated evaluated
  obtain ⟨hfits, hshapes⟩ := Prod.mk.inj seen
  have shifts : ∀ source ∈ sampleTables, ShiftsBelow samplePolicy.digitSystem.capacity source := by
    unfold sampleTables
    rw [List.forall_mem_map]
    decide
  have covers := covers_sample hshapes
  have fits := fits_smallest (ofTables_eq_ok hc).1 hshapes
  obtain ⟨compiled, r, hcompile, hr, hstatus, htrace⟩ := verify_signed hc shifts hfits
    covers fits (staffed_placed .host) sampleStamp "faces" true [1] Session.start
  exact ⟨c, hc, shifts, hfits, covers, fits, staffed_placed .host, compiled, r, hcompile,
    hr, hstatus, htrace rfl⟩

end TemplateCompiler

end SealedMatch
