/-
Module: SealedMatch.Proofs.Template.Compiler
Purpose: What a compiled template consists of: a row of digit lookups for every feature.
Trusted boundary: none
Main exports: TemplateCompiler.Prepared, TemplateCompiler.ofTables_eq_ok, EnrolledFeature,
  TemplateCompiler.Prepared.compile_eq_ok
-/
import SealedMatch.Proofs.Template.Lookup
import SealedMatch.Template.Compiler

namespace SealedMatch

/-! ### Preparing tables -/

/-- Every table is normalized on its own, and the offsets are added up. -/
theorem normalizeFrom_eq_ok {feature : Nat} {sources : List TableSource} {tables : List Tensor}
    {total : Int} (h : normalizeFrom feature sources = .ok (tables, total)) :
    ∃ shifted : List (Tensor × Int), tables = shifted.map Prod.fst ∧
      total = (shifted.map Prod.snd).sum ∧
      List.Forall₂ (fun source x => ∃ f, normalize source f = .ok x) sources shifted := by
  induction sources generalizing feature tables total with
  | nil =>
      cases h
      exact ⟨[], rfl, rfl, .nil⟩
  | cons source rest ih =>
      unfold normalizeFrom at h
      obtain ⟨⟨table, offset⟩, hfirst, h⟩ := bind_eq_ok h
      obtain ⟨⟨tables', total'⟩, hrest, h⟩ := bind_eq_ok h
      cases h
      obtain ⟨shifted, htables, htotal, hall⟩ := ih hrest
      refine ⟨(table, offset) :: shifted, ?_, ?_, .cons ⟨feature, hfirst⟩ hall⟩
      · rw [htables]
        rfl
      · rw [htotal]
        rfl

namespace TemplateCompiler

/-- All that preparing tables has done. -/
structure Prepared (c : TemplateCompiler) (tables : List TableSource) : Prop where
  length_eq : tables.length = c.configuration.featureCount
  normalized_eq : normalizeAll tables = .ok (c.normalized, c.totalOffset)
  decomposed_eq : List.Forall₂ (fun t d => digitTable t c.configuration.digitSystem.blockLength
    c.configuration.digitSystem.blockCount = .ok d) c.normalized c.decomposed
  shortCounts_eq : List.Forall₂ (fun t n => earlyStopCount t c.configuration.digitSystem = .ok n)
    c.normalized c.shortCounts
  capacity_eq : CapacityCheck.ofTables c.normalized c.configuration.radix
    c.configuration.sumWidth = .ok c.capacity

theorem ofTables_eq_ok {configuration : MatchPolicy} {tables : List TableSource}
    {c : TemplateCompiler} (h : ofTables configuration tables = .ok c) :
    c.configuration = configuration ∧ c.Prepared tables := by
  unfold ofTables at h
  split at h
  · cases h
  · rename_i hlength
    obtain ⟨⟨normalized, totalOffset⟩, hnormalized, h⟩ := bind_eq_ok h
    obtain ⟨decomposed, hdecomposed, h⟩ := bind_eq_ok h
    obtain ⟨counts, hcounts, h⟩ := bind_eq_ok h
    obtain ⟨capacity, hcapacity, h⟩ := bind_eq_ok h
    cases h
    exact ⟨rfl, not_not.1 hlength, hnormalized, mapM_eq_ok hdecomposed, mapM_eq_ok hcounts,
      hcapacity⟩

end TemplateCompiler

/-! ### Binding templates -/

/-- One feature of a template: its normalized table, the template code, and how many digits it has
on the table of digits. -/
structure EnrolledFeature where
  index : Nat
  table : Tensor
  digitTable : Tensor
  template : Int
  count : Nat

namespace EnrolledFeature

/-- The lookups of a feature, from the least significant digit on. -/
def lookups (x : EnrolledFeature) : List DigitLookup :=
  (List.range x.count).map fun (block : Nat) => ⟨x.index, x.template, block, x.digitTable⟩

/-- The score of a probe code, zero where the table has none. -/
def score (x : EnrolledFeature) (code : Int) : Int := x.table.cell x.template code

/-- A feature's table is a grid with a row for the template code, and its digits have all been
computed. -/
structure Sound (x : EnrolledFeature) (d : DigitSystem) (rows columns : Nat) : Prop where
  grid : x.table.Grid rows columns
  digitTable_eq : x.digitTable = x.table.digitAxis d.radix d.blockCount
  room : rows * columns * d.blockCount ≤ mostEntries
  template_range : 0 ≤ x.template ∧ x.template < rows
  count_le : x.count ≤ d.blockCount

variable {x : EnrolledFeature} {d : DigitSystem} {rows columns : Nat}

theorem Sound.bound (h : x.Sound d rows columns) :
    ∀ l ∈ x.lookups, l.Bound x.table rows columns d.radix d.blockCount := by
  intro l hl
  obtain ⟨block, hblock, rfl⟩ := List.mem_map.1 hl
  have inside := List.mem_range.1 hblock
  have few := h.count_le
  have range : 0 ≤ (block : Int) ∧ (block : Int) < d.blockCount := by omega
  exact ⟨h.grid, Int.natCast_nonneg _, h.digitTable_eq, h.room, h.template_range, range⟩

/-- The score of a probe code that is covered stands in the table. -/
theorem Sound.read_eq (h : x.Sound d rows columns) {code : Int}
    (hcode : 0 ≤ code ∧ code < columns) : x.table.read [x.template, code] = .ok (x.score code) := by
  obtain ⟨rowsLe, columnsLe, _⟩ :=
    DigitLookup.axes_le_mostEntries h.grid d.blockCount_pos h.room
  have entry := h.grid.read_eq h.template_range hcode
    ⟨DigitLookup.isWord_of_lt h.template_range.1 h.template_range.2 rowsLe,
      DigitLookup.isWord_of_lt hcode.1 hcode.2 columnsLe⟩
  rw [entry, score, Tensor.cell_of_read entry]

/-- At a probe code that they cover, the lookups of a feature give the digits of its score. -/
theorem Sound.evaluate_lookups (h : x.Sound d rows columns) {code : Int}
    (hcode : ∀ l ∈ x.lookups, ∃ size, l.codeCount = .ok size ∧ 0 ≤ code ∧ code < size) :
    x.lookups.mapM (fun l => l.evaluate code) = .ok (digits d.radix x.count (x.score code)) := by
  have each : x.lookups.mapM (fun l => l.evaluate code) =
      .ok (x.lookups.map fun l => x.score code / (d.radix : Int) ^ l.block.toNat % d.radix) := by
    refine mapM_ok fun l hl => ?_
    obtain ⟨size, hsize, inside⟩ := hcode l hl
    rw [(h.bound l hl).codeCount_eq] at hsize
    cases hsize
    rw [(h.bound l hl).evaluate_eq inside]
    obtain ⟨block, _, rfl⟩ := List.mem_map.1 hl
    rfl
  rw [each, digits_eq_map (Int.natCast_nonneg _)]
  unfold lookups
  rw [List.map_map]
  rfl

end EnrolledFeature

/-- The lookups that are bound for a feature carry its number, its template code and their places
in the row, whatever the table is. -/
theorem bindFeature_row {feature : Nat} {code : Int} {table : Tensor} {counts : List Int}
    {lookups : List DigitLookup} (h : bindFeature feature code table counts = .ok lookups) :
    ∃ count, lookups =
      (List.range count).map fun (block : Nat) => ⟨feature, code, block, table⟩ := by
  unfold bindFeature at h
  obtain ⟨rows, _, h⟩ := bind_eq_ok h
  split at h
  · split at h
    · rename_i count _
      cases h
      exact ⟨count.toNat, rfl⟩
    · cases h
  · cases h

theorem bindFrom_row {counts : List Int} {feature : Nat} {xs : List (Int × Tensor)}
    {lookups : List (List DigitLookup)} (h : bindFrom counts feature xs = .ok lookups) {f : Nat}
    {row : List DigitLookup} (hrow : lookups[f]? = some row) :
    ∃ code table count, xs[f]? = some (code, table) ∧ row =
      (List.range count).map fun (block : Nat) => ⟨(feature + f : Nat), code, block, table⟩ := by
  induction xs generalizing feature lookups f with
  | nil =>
      cases h
      cases hrow
  | cons x rest ih =>
      obtain ⟨code, table⟩ := x
      unfold bindFrom at h
      obtain ⟨here, hhere, h⟩ := bind_eq_ok h
      obtain ⟨there, hthere, h⟩ := bind_eq_ok h
      cases h
      cases f with
      | zero =>
          cases hrow
          obtain ⟨count, rfl⟩ := bindFeature_row hhere
          exact ⟨code, table, count, rfl, rfl⟩
      | succ f =>
          have next : feature + 1 + f = feature + (f + 1) := by omega
          rw [← next]
          exact ih hthere hrow

/-- A table of digits has been made of a grid. -/
def Decomposed (d : DigitSystem) (t digits : Tensor) : Prop :=
  ∃ rows columns, t.Grid rows columns ∧ digits = t.digitAxis d.radix d.blockCount ∧
    rows * columns * d.blockCount ≤ mostEntries

theorem bindFeature_eq_ok {feature : Nat} {code : Int} {t digits : Tensor} {counts : List Int}
    {d : DigitSystem} (hdigits : Decomposed d t digits)
    (hcounts : ∀ n ∈ counts, n ≤ d.blockCount) {lookups : List DigitLookup}
    (h : bindFeature feature code digits counts = .ok lookups) :
    ∃ n rows columns, counts[feature]? = some n ∧
      lookups = EnrolledFeature.lookups ⟨feature, t, digits, code, n.toNat⟩ ∧
      EnrolledFeature.Sound ⟨feature, t, digits, code, n.toNat⟩ d rows columns := by
  obtain ⟨rows, columns, hgrid, hdigits, hroom⟩ := hdigits
  have shape : digits.shape = [rows, columns, d.blockCount] := by
    rw [hdigits]
    show t.shape ++ [d.blockCount] = _
    rw [hgrid.shape_eq]
    rfl
  have axis : digits.axisLength 0 = .ok rows := by
    unfold Tensor.axisLength
    rw [shape]
    rfl
  unfold bindFeature at h
  rw [axis, ok_bind] at h
  split at h
  · rename_i hcode
    split at h
    · rename_i n hn
      cases h
      have few := hcounts n (List.mem_of_getElem? hn)
      have count : n.toNat ≤ d.blockCount := by omega
      exact ⟨n, rows, columns, hn, rfl, hgrid, hdigits, hroom, hcode, count⟩
    · cases h
  · cases h

theorem bindFrom_eq_ok {counts : List Int} {d : DigitSystem} {tables decomposed : List Tensor}
    (hdecomposed : List.Forall₂ (Decomposed d) tables decomposed)
    (hcounts : ∀ n ∈ counts, n ≤ d.blockCount) {feature : Nat} {template : List Int}
    (hlength : template.length = decomposed.length) {lookups : List (List DigitLookup)}
    (h : bindFrom counts feature (template.zip decomposed) = .ok lookups) :
    ∃ features : List EnrolledFeature, features.map (·.table) = tables ∧
      features.map (·.template) = template ∧ features.map (·.lookups) = lookups ∧
      (∀ x ∈ features, ∃ rows columns, x.Sound d rows columns) ∧
      ∀ i x, features[i]? = some x → ∃ n, counts[feature + i]? = some n ∧ x.count = n.toNat := by
  induction hdecomposed generalizing feature template lookups with
  | nil =>
      have empty : template = [] := List.length_eq_zero_iff.1 hlength
      subst empty
      cases h
      exact ⟨[], rfl, rfl, rfl, by simp, by simp⟩
  | cons head tail ih =>
      rename_i t digits tables decomposed
      cases template with
      | nil => simp at hlength
      | cons code template =>
          rw [List.zip_cons_cons] at h
          unfold bindFrom at h
          obtain ⟨here, hhere, h⟩ := bind_eq_ok h
          obtain ⟨there, hthere, h⟩ := bind_eq_ok h
          cases h
          obtain ⟨n, rows, columns, hn, hlookups, hsound⟩ := bindFeature_eq_ok head hcounts hhere
          obtain ⟨features, htables, htemplate, hrest, hall, hindices⟩ :=
            ih (by simpa using hlength) hthere
          refine ⟨⟨feature, t, digits, code, n.toNat⟩ :: features, by simp [htables],
            by simp [htemplate], by simp [hrest, hlookups], ?_, ?_⟩
          · intro x hx
            rcases List.mem_cons.1 hx with rfl | hx
            · exact ⟨rows, columns, hsound⟩
            · exact hall x hx
          · intro i x hx
            cases i with
            | zero =>
                cases hx
                exact ⟨n, hn, rfl⟩
            | succ i =>
                obtain ⟨m, hm, hcount⟩ := hindices i x hx
                refine ⟨m, ?_, hcount⟩
                rw [← hm]
                congr 1
                omega

namespace TemplateCompiler

variable {c : TemplateCompiler} {tables : List TableSource}

/-- There is a normalized table for every feature. -/
theorem Prepared.length_normalized (h : c.Prepared tables) :
    c.normalized.length = c.configuration.featureCount := by
  obtain ⟨shifted, hnormalized, _, hall⟩ := normalizeFrom_eq_ok h.normalized_eq
  rw [hnormalized, List.length_map, ← hall.length_eq, h.length_eq]

/-- Normalized tables are grids with all their digits. -/
theorem Prepared.decomposed (h : c.Prepared tables) :
    List.Forall₂ (Decomposed c.configuration.digitSystem) c.normalized c.decomposed := by
  obtain ⟨shifted, hnormalized, _, hall⟩ := normalizeFrom_eq_ok h.normalized_eq
  have grids : ∀ t ∈ c.normalized, ∃ rows columns, t.Grid rows columns := by
    intro t ht
    rw [hnormalized] at ht
    obtain ⟨x, hx, rfl⟩ := List.mem_map.1 ht
    have each := forall₂_right hall (p := fun x => ∃ source f, normalize source f = .ok x)
      fun source x hx => ⟨source, hx⟩
    obtain ⟨source, f, hsource⟩ := each x hx
    obtain ⟨table, corner, htable, _, _, hmap⟩ := normalize_eq_ok hsource
    obtain ⟨rows, columns, hgrid⟩ := TableSource.grid_of_toTable htable
    exact ⟨rows, columns, hmap ▸ hgrid.map _⟩
  have flipped := forall₂_and_right (List.Forall₂.flip (R := flip _) h.decomposed_eq) grids
  refine List.Forall₂.flip (flipped.imp fun digits t hboth => ?_)
  obtain ⟨hdigits, rows, columns, hgrid⟩ := hboth
  obtain ⟨⟨_, hroom⟩, heq⟩ := c.configuration.digitSystem.digitTable_eq_ok_iff.1 hdigits
  rw [hgrid.spread_eq c.configuration.digitSystem.blockCount_pos] at hroom
  exact ⟨rows, columns, hgrid, heq, hroom⟩

/-- No feature gets more digits than there are. -/
theorem Prepared.digitCounts_le (h : c.Prepared tables) (earlyStop : Bool) :
    ∀ n ∈ c.digitCounts earlyStop, n ≤ c.configuration.digitSystem.blockCount := by
  intro n hn
  unfold digitCounts at hn
  cases earlyStop with
  | true =>
      simp only [if_true] at hn
      obtain ⟨m, hm, rfl⟩ := List.mem_map.1 hn
      have bounded := forall₂_right h.shortCounts_eq
        (p := fun m => m ≤ c.configuration.digitSystem.blockCount) ?_
      · exact Int.ofNat_le.2 (bounded m hm)
      · intro t m hcount
        obtain ⟨largest, _, rfl⟩ := earlyStopCount_eq_ok hcount
        exact leadingDigitCount_le _ _ _
  | false =>
      simp only [Bool.false_eq_true, if_false] at hn
      obtain ⟨t, _, rfl⟩ := List.mem_map.1 hn
      exact le_refl _

/-- A compiled template holds the lookups of features that fit the prepared tables. -/
theorem Prepared.compile_eq_ok (h : c.Prepared tables) {template : List Int} {earlyStop : Bool}
    {compiled : EnrolledTemplate} (hcompile : c.compile template earlyStop = .ok compiled) :
    compiled.threshold = c.threshold ∧ compiled.sumWidth = c.configuration.sumWidth ∧
      compiled.radix = c.configuration.radix ∧
      ∃ features : List EnrolledFeature, features.map (·.table) = c.normalized ∧
        features.map (·.template) = template ∧ features.map (·.lookups) = compiled.lookups ∧
        (∀ x ∈ features, ∃ rows columns,
          x.Sound c.configuration.digitSystem rows columns) ∧
        ∀ (i : Nat) (x : EnrolledFeature), features[i]? = some x →
          ∃ n, (c.digitCounts earlyStop)[i]? = some n ∧ x.count = n.toNat := by
  unfold compile at hcompile
  obtain ⟨lookups, hbind, hcompile⟩ := bind_eq_ok hcompile
  cases hcompile
  refine ⟨rfl, rfl, rfl, ?_⟩
  unfold bindTemplate at hbind
  split at hbind
  · cases hbind
  · rename_i hlength
    have bound := bindFrom_eq_ok h.decomposed (h.digitCounts_le earlyStop) (not_not.1 hlength) hbind
    simpa only [Nat.zero_add] using bound

end TemplateCompiler

end SealedMatch
