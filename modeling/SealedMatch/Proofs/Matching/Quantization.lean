/-
Module: SealedMatch.Proofs.Matching.Quantization
Purpose: The codes of quantized measurements are accepted by every table that has a row and a column
  for each bin and one more for what lies beyond the last bin.
Trusted boundary: none
Main exports: FailsWithFault, TableSource.Spans, TemplateCompiler.ofTables_failsWithFault,
  TemplateCompiler.accepts_quantized
-/
import SealedMatch.Proofs.Matching.Acceptance
import SealedMatch.Proofs.Store.Bins

namespace SealedMatch

/-! ### Codes of one byte -/

/-- Codes of one byte as a template or a probe has them. -/
def widenCodes (codes : List UInt8) : List Int := codes.map fun code => code.toNat

/-- With few enough boundaries, no code is cut off: a vector gets as many codes as it has features,
and the greatest of them counts all boundaries. -/
theorem quantizeAll_ok {α : Type} [LE α] [DecidableLE α] {boundaries : List α}
    (hfew : boundaries.length ≤ maxCode) (vector : List α) :
    ∃ codes, quantizeAll vector boundaries = .ok codes ∧
      (widenCodes codes).length = vector.length ∧
      ∀ code ∈ widenCodes codes, 0 ≤ code ∧ code ≤ boundaries.length := by
  refine ⟨vector.map fun value => UInt8.ofNat (quantize value boundaries), ?_, ?_, ?_⟩
  · unfold quantizeAll
    rw [if_neg (by omega)]
  · simp [widenCodes]
  · intro code hcode
    obtain ⟨byte, hbyte, rfl⟩ := List.mem_map.1 hcode
    obtain ⟨value, _, rfl⟩ := List.mem_map.1 hbyte
    have below := quantize_le_length value boundaries
    rw [toNat_quantize hfew]
    omega

/-! ### Failures that are nobody's mistake -/

/-- A computation fails with faults only: neither the inputs nor the configuration are refused. -/
def FailsWithFault {α : Type} (x : Except Failure α) : Prop :=
  ∀ failure, x = .error failure → ∃ fault, failure = .fault fault

namespace FailsWithFault

variable {α β : Type}

theorem ok (a : α) : FailsWithFault (.ok a) := by
  intro failure h
  cases h

theorem error (fault : Fault) : FailsWithFault (.error (.fault fault) : Except Failure α) := by
  intro failure h
  cases h
  exact ⟨fault, rfl⟩

theorem bind {x : Except Failure α} {f : α → Except Failure β} (hx : FailsWithFault x)
    (hf : ∀ a, x = .ok a → FailsWithFault (f a)) : FailsWithFault (x >>= f) :=
  FailsOnly.bind hx hf

theorem mapM {f : α → Except Failure β} (h : ∀ a, FailsWithFault (f a)) (xs : List α) :
    FailsWithFault (xs.mapM f) :=
  FailsOnly.mapM h xs

end FailsWithFault

theorem Tensor.read_failsWithFault (t : Tensor) (index : List Int) :
    FailsWithFault (t.read index) := by
  unfold read
  split
  · exact .error _
  · split
    · exact .error _
    · exact .ok _

theorem Tensor.maximum_failsWithFault (t : Tensor) : FailsWithFault t.maximum := by
  unfold maximum
  split
  · exact .error _
  · exact .ok _

theorem digitTable_failsWithFault (t : Tensor) (blockLength blockCount : Int) :
    FailsWithFault (digitTable t blockLength blockCount) := by
  unfold digitTable
  intro failure h
  cases hx : (do
      let radix ← wordPower blockLength
      let count ← newAxis t.shape blockCount
      if !isWord radix ∧ 0 < count then throw .integerTooLarge
      pure (t.digitAxis radix count) : Except Fault Tensor) with
  | ok d =>
      rw [hx] at h
      cases h
  | error fault =>
      rw [hx] at h
      cases h
      exact ⟨fault, rfl⟩

theorem CapacityCheck.ofTables_failsWithFault (tables : List Tensor) (radix width : Int) :
    FailsWithFault (ofTables tables radix width) := by
  have totals : ∀ start : Int, FailsWithFault
      (tables.foldlM (fun total t => do pure (total + (← t.maximum))) start) := by
    induction tables with
    | nil => exact fun start => .ok start
    | cons t tables ih =>
        intro start
        rw [List.foldlM_cons]
        exact .bind (t.maximum_failsWithFault.bind fun _ _ => .ok _) fun next _ => ih next
  have power : FailsWithFault (Capacity.ofPower radix width) := by
    unfold Capacity.ofPower
    split
    · split
      · exact .error _
      · exact .ok _
    · split
      · split
        · exact .error _
        · exact .ok _
      · exact .error _
  exact (totals 0).bind fun _ _ => power.bind fun _ _ => .ok _

/-! ### Tables with room for codes -/

/-- What is handed in for a feature is accepted as a table with more than `n` rows and more than `n`
columns. -/
def TableSource.Spans (source : TableSource) (feature n : Nat) : Prop :=
  ∃ table rows columns, source.toTable feature = .ok table ∧ table.shape = [rows, columns] ∧
    n < rows ∧ n < columns

theorem TableSource.spans_of_shape {source : TableSource} {feature n rows columns : Nat}
    (h : (source.toTable feature).toOption.map (·.shape) = some [rows, columns])
    (hroom : n < rows ∧ n < columns) : source.Spans feature n := by
  obtain ⟨table, htable, hshape⟩ := Option.map_eq_some_iff.1 h
  exact ⟨table, rows, columns, toOption_eq_some htable, hshape, hroom⟩

variable {n : Nat}

theorem normalize_failsWithFault {source : TableSource} {feature : Nat}
    (h : source.Spans feature n) : FailsWithFault (normalize source feature) := by
  obtain ⟨table, rows, columns, htable, _⟩ := h
  unfold normalize
  rw [htable, ok_bind]
  refine (table.read_failsWithFault _).bind fun corner _ => ?_
  dsimp only
  split
  · exact .ok _
  · exact .error _

theorem normalizeFrom_failsWithFault {feature : Nat} {sources : List TableSource}
    (h : ∀ (i : Nat) (source : TableSource), sources[i]? = some source →
      source.Spans (feature + i) n) :
    FailsWithFault (normalizeFrom feature sources) := by
  induction sources generalizing feature with
  | nil => exact .ok _
  | cons source rest ih =>
      unfold normalizeFrom
      refine (normalize_failsWithFault (h 0 source rfl)).bind fun _ _ => ?_
      refine (ih fun i next hi => ?_).bind fun _ _ => .ok _
      rw [Nat.add_right_comm]
      exact h (i + 1) next hi

/-- Normalizing keeps the room. -/
theorem normalizeFrom_spacious {feature : Nat} {sources : List TableSource} {tables : List Tensor}
    {total : Int} (h : ∀ (i : Nat) (source : TableSource), sources[i]? = some source →
      source.Spans (feature + i) n)
    (hnormalized : normalizeFrom feature sources = .ok (tables, total)) :
    ∀ t ∈ tables, ∃ rows columns, t.shape = [rows, columns] ∧ n < rows ∧ n < columns := by
  induction sources generalizing feature tables total with
  | nil =>
      cases hnormalized
      simp
  | cons source rest ih =>
      unfold normalizeFrom at hnormalized
      obtain ⟨⟨t, offset⟩, hfirst, hnormalized⟩ := bind_eq_ok hnormalized
      obtain ⟨⟨tables', total'⟩, hrest, hnormalized⟩ := bind_eq_ok hnormalized
      cases hnormalized
      refine List.forall_mem_cons.2 ⟨?_, ih (fun i next hi => ?_) hrest⟩
      · obtain ⟨table, rows, columns, htable, hshape, hroom⟩ := h 0 source rfl
        obtain ⟨table', _, htable', _, _, rfl⟩ := normalize_eq_ok hfirst
        rw [Nat.add_zero, htable'] at htable
        cases htable
        exact ⟨rows, columns, hshape, hroom⟩
      · rw [Nat.add_right_comm]
        exact h (i + 1) next hi

/-! ### Accepting -/

namespace TemplateCompiler

variable {configuration : MatchPolicy} {tables : List TableSource} {c : TemplateCompiler}

/-- Preparing one accepted table for every feature refuses nothing. -/
theorem ofTables_failsWithFault (hcount : tables.length = configuration.featureCount)
    (h : ∀ (f : Nat) (source : TableSource), tables[f]? = some source →
      source.Spans f n) :
    FailsWithFault (ofTables configuration tables) := by
  unfold ofTables
  rw [if_neg (not_not.2 hcount)]
  have normalized : FailsWithFault (normalizeAll tables) := by
    refine normalizeFrom_failsWithFault (n := n) fun i source hi => ?_
    rw [Nat.zero_add]
    exact h i source hi
  refine normalized.bind fun _ _ => ?_
  refine (FailsWithFault.mapM (fun t => digitTable_failsWithFault t _ _) _).bind fun _ _ => ?_
  have counts : ∀ t, FailsWithFault (earlyStopCount t configuration.digitSystem) := fun t =>
    (t.read_failsWithFault _).bind fun _ _ => .ok _
  refine (FailsWithFault.mapM counts _).bind fun _ _ => ?_
  exact (CapacityCheck.ofTables_failsWithFault _ _ _).bind fun _ _ => .ok _

/-- Codes up to `n` are covered by tables with more than `n` rows and columns. -/
theorem covers_of_spans (hc : ofTables configuration tables = .ok c)
    (h : ∀ (f : Nat) (source : TableSource), tables[f]? = some source →
      source.Spans f n) {template probe : List Int}
    (htemplate : template.length = configuration.featureCount)
    (hprobe : probe.length = configuration.featureCount)
    (hrows : ∀ code ∈ template, 0 ≤ code ∧ code ≤ n)
    (hcolumns : ∀ code ∈ probe, 0 ≤ code ∧ code ≤ n) : c.Covers template probe := by
  obtain ⟨rfl, prepared⟩ := ofTables_eq_ok hc
  have count := prepared.length_normalized
  have spacious := normalizeFrom_spacious (fun i source hi => by
    rw [Nat.zero_add]
    exact h i source hi) prepared.normalized_eq
  refine ⟨htemplate.trans count.symm, hprobe.trans count.symm, ?_⟩
  intro f t code code' ht hcode hcode'
  obtain ⟨rows, columns, hshape, hroom⟩ := spacious t (List.mem_of_getElem? ht)
  have row := hrows code (List.mem_of_getElem? hcode)
  have column := hcolumns code' (List.mem_of_getElem? hcode')
  exact ⟨rows, columns, hshape, by omega, by omega⟩

/-- Quantized measurements violate no domain. The boundaries may come in any order, and neither they
nor the measurements need be comparable: whatever the vectors are, as long as they have a value for
every feature, the codes of the one are compiled and the codes of the other are laid out. -/
theorem accepts_quantized {α : Type} [LE α] [DecidableLE α] {boundaries : List α}
    (hfew : boundaries.length ≤ maxCode) (hcount : tables.length = configuration.featureCount)
    (h : ∀ (f : Nat) (source : TableSource), tables[f]? = some source →
      source.Spans f boundaries.length)
    {template probe : List α} (htemplate : template.length = configuration.featureCount)
    (hprobe : probe.length = configuration.featureCount) :
    ∃ enrolled presented, quantizeAll template boundaries = .ok enrolled ∧
      quantizeAll probe boundaries = .ok presented ∧
      FailsWithFault (ofTables configuration tables) ∧
      ∀ c, ofTables configuration tables = .ok c → ∀ earlyStop, ∃ compiled plan,
        c.compile (widenCodes enrolled) earlyStop = .ok compiled ∧
        LookupPlan.build (widenCodes presented) compiled = .ok plan := by
  obtain ⟨enrolled, henrolled, hlength, hrows⟩ := quantizeAll_ok hfew template
  obtain ⟨presented, hpresented, hlength', hcolumns⟩ := quantizeAll_ok hfew probe
  refine ⟨enrolled, presented, henrolled, hpresented, ofTables_failsWithFault hcount h,
    fun c hc earlyStop => ?_⟩
  have covers := covers_of_spans hc h (hlength.trans htemplate) (hlength'.trans hprobe) hrows
    hcolumns
  obtain ⟨compiled, plan, hcompile, hplan, _⟩ := accepted hc covers earlyStop
  exact ⟨compiled, plan, hcompile, hplan⟩

/-- One boundary that nothing can be compared with, and tables of two rows and three columns. -/
theorem accepts_quantized_sample :
    (ofTables samplePolicy sampleTables).isOk = true ∧
      ∃ enrolled presented,
        quantizeAll [1.5, 0.0 / 0.0] [(0.0 / 0.0 : Float)] = .ok enrolled ∧
        quantizeAll [1.0 / 0.0, -2.5] [(0.0 / 0.0 : Float)] = .ok presented ∧
        FailsWithFault (ofTables samplePolicy sampleTables) ∧
        ∀ c, ofTables samplePolicy sampleTables = .ok c → ∀ earlyStop, ∃ compiled plan,
          c.compile (widenCodes enrolled) earlyStop = .ok compiled ∧
          LookupPlan.build (widenCodes presented) compiled = .ok plan := by
  have spans : ∀ (f : Nat) (source : TableSource), sampleTables[f]? = some source →
      source.Spans f 1 := by
    intro f source hsource
    obtain ⟨hf, rfl⟩ := List.getElem?_eq_some_iff.1 hsource
    have shapes : ∀ f : Fin sampleTables.length,
        ((sampleTables.get f).toTable f).toOption.map (·.shape) = some [2, 3] := by
      decide +kernel
    exact TableSource.spans_of_shape (shapes ⟨f, hf⟩) (by decide)
  exact ⟨by decide +kernel, accepts_quantized (by decide) rfl spans rfl rfl⟩

end TemplateCompiler

end SealedMatch
