/-
Module: SealedMatch.Proofs.Matching.Layout
Purpose: The sequences of a plan stay aligned: its slices tile the positions, and what stands at a
  position of a slice belongs to the slice's feature.
Trusted boundary: none
Main exports: Tiles, Tiles.existsUnique, LookupPlan.Lays.tiles, LookupPlan.Aligned,
  LookupPlan.build_aligned
-/
import SealedMatch.Proofs.Matching.Arrivals
import SealedMatch.Proofs.Matching.Independence

namespace SealedMatch

/-! ### Slices without gaps -/

/-- Slices that follow each other without a gap from one position to another. Some may be empty. -/
inductive Tiles : Nat → Nat → List (Nat × Nat) → Prop where
  | nil (start : Nat) : Tiles start start []
  | cons {start middle stop : Nat} {slices : List (Nat × Nat)} (ordered : start ≤ middle)
      (rest : Tiles middle stop slices) : Tiles start stop ((start, middle) :: slices)

namespace Tiles

variable {start stop : Nat} {slices : List (Nat × Nat)}

theorem le (h : Tiles start stop slices) : start ≤ stop := by
  induction h with
  | nil start => exact le_rfl
  | cons ordered _ ih => exact ordered.trans ih

/-- All slices lie within the range that is tiled. -/
theorem within (h : Tiles start stop slices) {slice : Nat × Nat} (hslice : slice ∈ slices) :
    start ≤ slice.1 ∧ slice.1 ≤ slice.2 ∧ slice.2 ≤ stop := by
  induction h with
  | nil => simp at hslice
  | cons ordered rest ih =>
      rcases List.mem_cons.1 hslice with rfl | later
      · exact ⟨le_rfl, ordered, rest.le⟩
      · exact ⟨ordered.trans (ih later).1, (ih later).2⟩

/-- Every position of the range lies in one slice, and in no other. -/
theorem existsUnique (h : Tiles start stop slices) {i : Nat} (hi : start ≤ i ∧ i < stop) :
    ∃! f : Nat, ∃ slice ∈ slices[f]?, slice.1 ≤ i ∧ i < slice.2 := by
  induction h with
  | nil => omega
  | @cons start middle stop slices ordered rest ih =>
      rcases Nat.lt_or_ge i middle with early | late
      · refine ⟨0, ⟨_, rfl, hi.1, early⟩, ?_⟩
        rintro (_ | f) ⟨slice, hslice, hlow, _⟩
        · rfl
        · have := (rest.within (List.mem_of_getElem? hslice)).1
          omega
      · obtain ⟨f, hf, unique⟩ := ih ⟨late, hi.2⟩
        refine ⟨f + 1, hf, ?_⟩
        rintro (_ | g) ⟨slice, hslice, hlow, hhigh⟩
        · cases hslice
          exact absurd hhigh (Nat.not_lt.2 late)
        · exact congrArg (· + 1) (unique g ⟨slice, hslice, hlow, hhigh⟩)

/-- Where lengths have been added up, their partial sums tile. -/
theorem ofLengths (start : Nat) (lengths : List Nat) :
    Tiles start (start + lengths.sum) ((List.range lengths.length).map fun f =>
      (start + (lengths.take f).sum, start + (lengths.take (f + 1)).sum)) := by
  induction lengths generalizing start with
  | nil => exact .nil start
  | cons n lengths ih =>
      have tail := ih (start + n)
      rw [Nat.add_assoc, ← List.sum_cons] at tail
      rw [List.length_cons, List.range_succ_eq_map, List.map_cons, List.map_map]
      refine .cons (Nat.le_add_right start n) ?_
      simpa [Function.comp_def, Nat.add_assoc] using tail

end Tiles

/-! ### Lookups that know their places -/

/-- A lookup tells its feature, its template code and its digit. -/
theorem EnrolledTemplate.Binds.lookup_eq {t : EnrolledTemplate} {template : List Int}
    (h : t.Binds template) {f j : Nat} {row : List DigitLookup} (hrow : t.lookups[f]? = some row)
    {l : DigitLookup} (hl : row[j]? = some l) :
    l.feature = f ∧ template[f]? = some l.template ∧ l.block = j := by
  obtain ⟨tables, counts, hbind⟩ := h
  unfold bindTemplate at hbind
  split at hbind
  · cases hbind
  · obtain ⟨code, table, count, hcode, rfl⟩ := bindFrom_row hbind hrow
    obtain ⟨block, hblock, rfl⟩ := List.mem_map.1 (List.mem_of_getElem? hl)
    obtain ⟨inside, heq⟩ := List.getElem?_eq_some_iff.1 hl
    rw [List.getElem_map, List.getElem_range] at heq
    have place : ((j : Nat) : Int) = (block : Nat) := congrArg DigitLookup.block heq
    exact ⟨congrArg Nat.cast (Nat.zero_add f), (List.getElem?_zip_eq_some.1 hcode).1, place.symm⟩

namespace LookupPlan

variable {p : LookupPlan} {features : List (Int × List DigitLookup)}

/-! ### Positions of a slice -/

/-- The slices of a plan tile its positions. -/
theorem Lays.tiles (h : p.Lays features) : Tiles 0 p.lookupCount p.slices := by
  have tiled := Tiles.ofLengths 0 (features.map (·.2.length))
  simp only [Nat.zero_add, List.length_map] at tiled
  rw [h.lookupCount_eq, h.digitCounts_eq, h.slices_eq]
  exact tiled

/-- Rows with an entry for every lookup, laid end to end: a slice holds the row of its feature. -/
theorem Lays.getElem?_at_slice {β : Type} (h : p.Lays features) {rows : List (List β)}
    (hrows : rows.map List.length = features.map (·.2.length)) {f start stop j : Nat}
    (hslice : p.slices[f]? = some (start, stop)) (hj : start + j < stop) :
    rows.flatten[start + j]? = rows[f]?.bind (·[j]?) := by
  have lengths : p.places.map List.length = rows.map List.length := by
    rw [map_length_places, h.digitCounts_eq, hrows]
  exact getElem?_flatten_of_spot (spots_congr lengths ▸ h.spot_at_slice hslice hj)

theorem map_length_rows (features : List (Int × List DigitLookup)) :
    (features.map (·.2)).map List.length = features.map (·.2.length) := List.map_map

theorem Lays.lookup_at_slice (h : p.Lays features) {f start stop j : Nat}
    (hslice : p.slices[f]? = some (start, stop)) (hj : start + j < stop) :
    p.lookups[start + j]? = features[f]?.bind fun x => x.2[j]? := by
  rw [h.lookups_eq, List.flatMap_def, h.getElem?_at_slice (map_length_rows features) hslice hj,
    List.getElem?_map]
  cases features[f]? <;> rfl

theorem Lays.code_at_slice (h : p.Lays features) {f start stop j : Nat}
    (hslice : p.slices[f]? = some (start, stop)) (hj : start + j < stop) :
    p.codes[start + j]? = features[f]?.bind fun x => x.2[j]?.map fun _ => x.1 := by
  have rows : (features.map fun x => x.2.map fun _ => x.1).map List.length =
      features.map (·.2.length) := by
    rw [List.map_map]
    exact List.map_congr_left fun x _ => List.length_map _
  rw [h.codes_eq, List.flatMap_def, h.getElem?_at_slice rows hslice hj, List.getElem?_map]
  cases features[f]? with
  | none => rfl
  | some x => exact List.getElem?_map

/-- A slice of the lookups is what its feature has. -/
theorem Lays.lookups_of_slice (h : p.Lays features) {f start stop : Nat}
    (hslice : p.slices[f]? = some (start, stop)) :
    features[f]?.map (·.2) = some ((p.lookups.drop start).take (stop - start)) := by
  have cut := congrArg (fun cut => cut[f]?) (h.cutOutputs_flatten (map_length_rows features))
  rw [← List.flatMap_def, ← h.lookups_eq] at cut
  simp only [cutOutputs, List.getElem?_mapIdx, hslice, Option.map_some, List.getElem?_map] at cut
  obtain ⟨row, hrow, heq⟩ := Option.map_eq_some_iff.1 cut.symm
  rw [hrow]
  exact congrArg some (Prod.ext_iff.1 heq).2

/-- No two positions have the same feature and the same block. -/
theorem Numbers.unique {β : Type} {rows : List (List β)} (h : p.Numbers rows) {i j : Nat}
    (hi : i < rows.flatten.length) (hfeature : p.features[i]? = p.features[j]?)
    (hblock : p.blocks[i]? = p.blocks[j]?) : i = j := by
  have inside : i < (spots rows).length := by rwa [length_spots]
  have here := List.getElem?_eq_getElem inside
  rw [h.features_eq, List.getElem?_map, List.getElem?_map, here] at hfeature
  rw [h.blocks_eq, List.getElem?_map, List.getElem?_map, here] at hblock
  obtain ⟨spot, hspot, feature⟩ := Option.map_eq_some_iff.1 hfeature.symm
  rw [hspot] at hblock
  have block : spot.2 = (spots rows)[i].2 := Int.ofNat_inj.1 (Option.some.inj hblock.symm)
  have same : spot = (spots rows)[i] := Prod.ext feature block
  exact (List.getElem?_inj inside nodup_spots).1 (here.trans (same ▸ hspot).symm)

/-! ### The whole plan -/

/-- What stands at a position of a plan belongs to a feature, whose slice begins at `start`. -/
structure Belongs (p : LookupPlan) (template probe : List Int) (f start i : Nat) : Prop where
  feature_eq : p.features[i]? = some f
  code_eq : ∃ code, probe[f]? = some code ∧ p.codes[i]? = some code
  lookup_eq : ∃ l, p.lookups[i]? = some l ∧ p.blocks[i]? = some l.block ∧
    l.block = (i : Int) - start ∧ l.feature = f ∧ template[f]? = some l.template

/-- The sequences of a plan are as long as each other and fit together: the slices, one for each
feature and in their order, tile the positions; each holds the lookups of its feature, and what
stands at its positions belongs to the feature; and feature and block tell positions apart. -/
structure Aligned (p : LookupPlan) (template probe : List Int) (compiled : EnrolledTemplate) :
    Prop where
  codes_length : p.codes.length = p.lookupCount
  features_length : p.features.length = p.lookupCount
  blocks_length : p.blocks.length = p.lookupCount
  slices_length : p.slices.length = compiled.featureCount
  tiles : Tiles 0 p.lookupCount p.slices
  partition : ∀ i < p.lookupCount,
    ∃! f : Nat, ∃ slice ∈ p.slices[f]?, slice.1 ≤ i ∧ i < slice.2
  lookups_eq : ∀ f start stop : Nat, p.slices[f]? = some (start, stop) →
    compiled.lookups[f]? = some ((p.lookups.drop start).take (stop - start))
  belongs : ∀ f start stop : Nat, p.slices[f]? = some (start, stop) →
    ∀ i, start ≤ i → i < stop → p.Belongs template probe f start i
  digitCounts_eq : p.digitCounts = compiled.digitCounts
  unique : ∀ i < p.lookupCount, ∀ j < p.lookupCount, p.features[i]? = p.features[j]? →
    p.blocks[i]? = p.blocks[j]? → i = j

variable {template probe : List Int} {compiled : EnrolledTemplate}

/-- The plan of a template whose lookups have been bound is aligned, whatever the numbers of digits
are, and whatever the probe, as long as there is a plan. -/
theorem build_aligned (hbinds : compiled.Binds template) (hbuild : build probe compiled = .ok p) :
    p.Aligned template probe compiled := by
  obtain ⟨hlength, hlays, _⟩ := build_eq_ok hbuild
  obtain ⟨_, hnumbers⟩ := numbers_places hbinds.enumerated hbuild
  have counted : p.places.flatten.length = p.lookupCount := by
    rw [hlays.flatten_places, List.length_range]
  have rows : (probe.zip compiled.lookups).map (·.2) = compiled.lookups :=
    List.map_snd_zip hlength.ge
  refine {
    codes_length := ?_
    features_length := ?_
    blocks_length := ?_
    slices_length := ?_
    tiles := hlays.tiles
    partition := fun i hi => hlays.tiles.existsUnique ⟨Nat.zero_le i, hi⟩
    lookups_eq := fun f start stop hslice => ?_
    belongs := fun f start stop hslice i hstart hstop => ?_
    digitCounts_eq := ?_
    unique := fun i hi j _ => hnumbers.unique (counted ▸ hi) }
  · rw [hlays.codes_eq, List.length_flatMap, hlays.lookupCount_eq, hlays.digitCounts_eq]
    simp
  · rw [hnumbers.features_eq, List.length_map, length_spots, counted]
  · rw [hnumbers.blocks_eq, List.length_map, length_spots, counted]
  · rw [hlays.slices_eq, List.length_map, List.length_range, List.length_zip, hlength, Nat.min_self]
    rfl
  · rw [← hlays.lookups_of_slice hslice, ← List.getElem?_map, rows]
  · obtain ⟨j, rfl⟩ := Nat.exists_eq_add_of_le hstart
    obtain ⟨feature, block⟩ := hlays.at_slice hnumbers hslice hstop
    have inside : start + j < p.lookups.length :=
      hstop.trans_le (hlays.slice_le (List.mem_of_getElem? hslice))
    have lookup := hlays.lookup_at_slice hslice hstop
    have code := hlays.code_at_slice hslice hstop
    rw [List.getElem?_eq_getElem inside] at lookup
    obtain ⟨x, hx, hl⟩ := Option.bind_eq_some_iff.1 lookup.symm
    rw [hx, Option.bind_some, hl] at code
    obtain ⟨hprobe, hrow⟩ := List.getElem?_zip_eq_some.1 hx
    obtain ⟨hfeature, htemplate, hblock⟩ := hbinds.lookup_eq hrow hl
    refine ⟨feature, ⟨x.1, hprobe, code⟩, _, List.getElem?_eq_getElem inside, ?_, ?_, hfeature,
      htemplate⟩
    · rw [block, hblock]
    · rw [hblock]
      omega
  · have lengths := congrArg (List.map List.length) rows
    rw [map_length_rows] at lengths
    exact hlays.digitCounts_eq.trans lengths

/-- Digits of one bit, at most two of them, for three features. -/
def threeFeatures : MatchPolicy :=
  { TemplateCompiler.samplePolicy with featureCount := 3, featureCount_pos := Nat.succ_pos 2 }

/-- The scores of the second feature are zero, so that it needs no digit. -/
def threeTables : List TableSource :=
  [[[1, 0], [1, 1]], [[0, 0]], [[3, 0], [2, 1]]].map fun rows =>
    .nested (.list (rows.map Value.ints))

/-- An empty slice shifts nothing behind it. -/
theorem build_aligned_gapped :
    ∃ c compiled plan, TemplateCompiler.ofTables threeFeatures threeTables = .ok c ∧
      c.compile [1, 0, 1] true = .ok compiled ∧ compiled.Binds [1, 0, 1] ∧
      build [0, 1, 1] compiled = .ok plan ∧ plan.slices = [(0, 1), (1, 1), (1, 3)] ∧
      plan.Aligned [1, 0, 1] [0, 1, 1] compiled := by
  have evaluated : (do
      let c ← TemplateCompiler.ofTables threeFeatures threeTables
      let compiled ← c.compile [1, 0, 1] true
      let plan ← build [0, 1, 1] compiled
      pure plan.slices).toOption = some [(0, 1), (1, 1), (1, 3)] := by
    decide +kernel
  obtain ⟨c, hc, rest⟩ := bind_eq_ok (toOption_eq_some evaluated)
  obtain ⟨compiled, hcompile, rest⟩ := bind_eq_ok rest
  obtain ⟨plan, hplan, hslices⟩ := bind_eq_ok rest
  have binds := TemplateCompiler.binds_of_compile hcompile
  exact ⟨c, compiled, plan, hc, hcompile, binds, hplan, Except.ok.inj hslices,
    build_aligned binds hplan⟩

end LookupPlan

end SealedMatch
