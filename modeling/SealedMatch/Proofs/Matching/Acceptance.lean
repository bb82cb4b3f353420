/-
Module: SealedMatch.Proofs.Matching.Acceptance
Purpose: Codes in range are accepted: the template compiles, the plan is laid out, and an engine
  with room for the tables hosts the template.
Trusted boundary: none
Main exports: TemplateCompiler.Covers, SimulatedEngine.Fits, TemplateCompiler.accepted
-/
import SealedMatch.Proofs.Matching.Independence
import SealedMatch.Proofs.Table.Capacity

namespace SealedMatch

/-! ### Preparing tables -/

/-- One table for every feature is prepared, if all of them are normalized and there is memory for
their digits. -/
theorem TemplateCompiler.ofTables_ok {configuration : MatchPolicy} {sources : List TableSource}
    {tables : List Tensor} {offset : Int} (hcount : sources.length = configuration.featureCount)
    (hnormalized : normalizeAll sources = .ok (tables, offset))
    (htables : ∀ t ∈ tables, ∃ rows columns, t.Grid rows columns ∧
      rows * columns * configuration.digitSystem.blockCount ≤ mostEntries) :
    ∃ c, ofTables configuration sources = .ok c ∧ c.configuration = configuration ∧
      c.normalized = tables := by
  have decomposed : tables.mapM (fun t => digitTable t configuration.digitSystem.blockLength
      configuration.digitSystem.blockCount) = .ok (tables.map fun t =>
        t.digitAxis configuration.digitSystem.radix configuration.digitSystem.blockCount) := by
    refine mapM_ok fun t ht => configuration.digitSystem.digitTable_eq_ok_iff.2 ⟨?_, rfl⟩
    obtain ⟨rows, columns, hgrid, hroom⟩ := htables t ht
    rw [hgrid.spread_eq configuration.digitSystem.blockCount_pos, hgrid.shape_eq]
    exact ⟨show 2 < mostAxes by decide, hroom⟩
  have counted : tables.mapM (fun t => earlyStopCount t configuration.digitSystem) =
      .ok (tables.map fun t => leadingDigitCount configuration.digitSystem.blockLength
        configuration.digitSystem.blockCount (t.cell 0 0)) := by
    refine mapM_ok fun t ht => ?_
    obtain ⟨rows, columns, hgrid, _⟩ := htables t ht
    have corner : t.read [0, 0] = .ok _ := hgrid.read_eq
      ⟨le_rfl, Int.natCast_pos.2 hgrid.rows_pos⟩ ⟨le_rfl, Int.natCast_pos.2 hgrid.columns_pos⟩
      (by decide)
    unfold earlyStopCount
    rw [corner, Tensor.cell_of_read corner]
    rfl
  have filled : ∀ t ∈ tables, 0 < t.size := by
    intro t ht
    obtain ⟨rows, columns, hgrid, _⟩ := htables t ht
    show 0 < t.entries.size
    rw [hgrid.size_eq]
    exact Nat.mul_pos hgrid.rows_pos hgrid.columns_pos
  obtain ⟨total, htotal⟩ := exists_totalOfMaxima filled
  obtain ⟨capacity, hcapacity⟩ : ∃ capacity, CapacityCheck.ofTables tables
      configuration.digitSystem.radix configuration.sumWidth = .ok capacity := by
    unfold CapacityCheck.ofTables
    rw [htotal, ok_bind, Capacity.ofPower_ok (Int.natCast_nonneg _)]
    exact ⟨_, rfl⟩
  unfold ofTables
  rw [if_neg (not_not.2 hcount), hnormalized]
  simp only [ok_bind, decomposed, counted, hcapacity]
  exact ⟨_, rfl, rfl, rfl⟩

/-! ### Compiling -/

/-- A code names a row of a table. -/
def RowOf (code : Int) (t : Tensor) : Prop :=
  ∃ rows columns, t.shape = [rows, columns] ∧ 0 ≤ code ∧ code < rows

theorem bindFeature_ok {feature : Nat} {code : Int} {t digits : Tensor} {counts : List Int}
    {d : DigitSystem} (hdigits : Decomposed d t digits) (hcode : RowOf code t)
    (hcount : feature < counts.length) :
    ∃ lookups, bindFeature feature code digits counts = .ok lookups := by
  obtain ⟨rows, columns, hgrid, rfl, _⟩ := hdigits
  obtain ⟨rows', columns', hshape, hrange⟩ := hcode
  rw [hgrid.shape_eq] at hshape
  cases hshape
  have shape : (t.digitAxis d.radix d.blockCount).shape = [rows, columns, d.blockCount] := by
    show t.shape ++ [d.blockCount] = _
    rw [hgrid.shape_eq]
    rfl
  have axis : (t.digitAxis d.radix d.blockCount).axisLength 0 = .ok rows := by
    unfold Tensor.axisLength
    rw [shape]
    rfl
  unfold bindFeature
  rw [axis, ok_bind, if_pos hrange, List.getElem?_eq_getElem hcount]
  exact ⟨_, rfl⟩

theorem bindFrom_ok {d : DigitSystem} {counts : List Int} {tables decomposed : List Tensor}
    (hdecomposed : List.Forall₂ (Decomposed d) tables decomposed) {template : List Int}
    (hcodes : List.Forall₂ RowOf template tables) {feature : Nat}
    (hcounts : feature + tables.length ≤ counts.length) :
    ∃ lookups, bindFrom counts feature (template.zip decomposed) = .ok lookups := by
  induction hdecomposed generalizing feature template with
  | nil =>
      cases hcodes
      exact ⟨[], rfl⟩
  | cons head tail ih =>
      cases hcodes with
      | cons hcode hrest =>
          rw [List.length_cons] at hcounts
          obtain ⟨here, hhere⟩ := bindFeature_ok head hcode
            (show feature < counts.length by omega)
          obtain ⟨there, hthere⟩ := ih hrest (show feature + 1 + _ ≤ counts.length by omega)
          refine ⟨here :: there, ?_⟩
          rw [List.zip_cons_cons]
          unfold bindFrom
          rw [hhere, ok_bind, hthere]
          rfl

namespace TemplateCompiler

variable {c : TemplateCompiler} {tables : List TableSource}

theorem Prepared.length_digitCounts (h : c.Prepared tables) (earlyStop : Bool) :
    (c.digitCounts earlyStop).length = c.normalized.length := by
  unfold digitCounts
  split
  · rw [List.length_map, h.shortCounts_eq.length_eq]
  · rw [List.length_map, h.decomposed_eq.length_eq]

/-- A template of rows of the tables compiles. -/
theorem Prepared.compile_ok (h : c.Prepared tables) {template : List Int}
    (hcodes : List.Forall₂ RowOf template c.normalized) (earlyStop : Bool) :
    ∃ compiled, c.compile template earlyStop = .ok compiled := by
  have counts := h.length_digitCounts earlyStop
  obtain ⟨lookups, hlookups⟩ := bindFrom_ok h.decomposed hcodes
    (show 0 + c.normalized.length ≤ (c.digitCounts earlyStop).length by omega)
  have length : template.length = c.decomposed.length :=
    hcodes.length_eq.trans h.decomposed_eq.length_eq
  unfold compile bindTemplate
  rw [if_neg (not_not.2 length), hlookups]
  exact ⟨_, rfl⟩

end TemplateCompiler

/-! ### Planning -/

namespace LookupPlan

theorem checkCode_ok {feature : Nat} {code : Int} {lookups : List DigitLookup}
    (h : Covers code lookups) : checkCode feature code lookups = .ok () := by
  induction lookups with
  | nil => rfl
  | cons l rest ih =>
      obtain ⟨size, hsize, hrange⟩ := h l (by simp)
      unfold checkCode
      rw [hsize, ok_bind, if_pos hrange]
      exact ih fun l' hl' => h l' (List.mem_cons_of_mem l hl')

theorem extendFrom_ok {p : LookupPlan} {feature : Nat} {features : List (Int × List DigitLookup)}
    (h : ∀ x ∈ features, Covers x.1 x.2) : ∃ plan, p.extendFrom feature features = .ok plan := by
  induction features generalizing p feature with
  | nil => exact ⟨p, rfl⟩
  | cons x rest ih =>
      obtain ⟨code, lookups⟩ := x
      have covers : Covers code lookups := h (code, lookups) (by simp)
      unfold extendFrom
      rw [checkCode_ok covers, ok_bind]
      exact ih fun x hx => h x (List.mem_cons_of_mem _ hx)

theorem build_ok {probe : List Int} {compiled : EnrolledTemplate}
    (hlength : probe.length = compiled.featureCount)
    (h : ∀ x ∈ probe.zip compiled.lookups, Covers x.1 x.2) :
    ∃ plan, build probe compiled = .ok plan := by
  unfold build
  rw [if_neg (not_not.2 hlength)]
  exact extendFrom_ok h

end LookupPlan

/-! ### Hosting -/

theorem Matcher.checkDomains_ok {total : Nat} {lookups : List DigitLookup}
    (h : ∀ l ∈ lookups, ∃ size, l.codeCount = .ok size ∧ size ≤ total) :
    checkDomains total lookups = .ok () := by
  induction lookups with
  | nil => rfl
  | cons l rest ih =>
      obtain ⟨size, hsize, hfits⟩ := h l (by simp)
      unfold checkDomains
      rw [hsize, ok_bind, if_neg (by omega)]
      exact ih fun l' hl' => h l' (List.mem_cons_of_mem l hl')

theorem Matcher.requireCompatible_ok {σ C B : Type} {m : Matcher σ C B}
    {compiled : EnrolledTemplate} (hradix : compiled.radix = m.engine.messageModulus)
    (h : ∀ l ∈ compiled.lookups.flatten,
      ∃ size, l.codeCount = .ok size ∧ size ≤ m.engine.totalModulus) :
    m.requireCompatible compiled = .ok () := by
  unfold requireCompatible
  rw [if_neg (not_not.2 hradix)]
  exact checkDomains_ok h

/-- With parameters like these an engine can be built. -/
theorem SimulatedEngine.ofTape_ok {p : LweParameters} (hsmall : 0 ≤ p.lweDimension)
    (hlarge : 0 ≤ p.polynomialSize) (htotal : p.totalModulus ≤ 2 ^ 31) (tape : Tape)
    (guard : EngineCall → Action Unit) :
    ∃ e, ofTape p tape guard = .ok e ∧ e.parameters = p := by
  have pos : 0 < p.totalModulus := Nat.mul_pos (Nat.two_pow_pos _) (Nat.two_pow_pos _)
  have row : requireRow p.totalModulus = .ok () := by
    unfold requireRow
    rw [if_neg (by omega), newAxis_row (by unfold mostEntries; omega)]
    rfl
  unfold ofTape
  rw [if_neg (by omega), row]
  exact ⟨_, rfl, rfl⟩

/-- A template whose digits are messages of an engine is compatible with it, if the engine has room
for a code of every table. -/
theorem SimulatedEngine.compatible_of_columns {e : SimulatedEngine} {d : DigitSystem}
    (hbits : e.parameters.messageBits = d.blockLength) {compiled : EnrolledTemplate} {width : Nat}
    {features : List EnrolledFeature} (holds : compiled.Holds d width features)
    {tables : List Tensor} (htables : features.map (·.table) = tables)
    (hcolumns : ∀ t ∈ tables, ∀ rows columns, t.shape = [rows, columns] →
      columns ≤ e.totalModulus) (s : Strategy) :
    (e.matcher s).requireCompatible compiled = .ok () := by
  refine Matcher.requireCompatible_ok ?_ ?_
  · rw [holds.radix_eq]
    show ((2 ^ d.blockLength : Nat) : Int) = ((2 ^ e.parameters.messageBits : Nat) : Int)
    rw [hbits]
  · intro l hl
    rw [← holds.lookups_eq] at hl
    obtain ⟨ls, hls, hl⟩ := List.mem_flatten.1 hl
    obtain ⟨x, hx, rfl⟩ := List.mem_map.1 hls
    obtain ⟨rows, columns, hsound⟩ := holds.sound x hx
    have listed : x.table ∈ tables := htables ▸ List.mem_map_of_mem hx
    exact ⟨columns, (hsound.bound l hl).codeCount_eq,
      hcolumns x.table listed rows columns hsound.grid.shape_eq⟩

/-- An engine whose digits are those of a compiler, with a carry bit, room for a code of every table
and noise small enough. -/
structure SimulatedEngine.Fits (e : SimulatedEngine) (c : TemplateCompiler) : Prop where
  faithful : e.Faithful 6
  messageBits_eq : e.parameters.messageBits = c.configuration.digitSystem.blockLength
  carryBits_pos : 1 ≤ e.parameters.carryBits
  columns_le : ∀ t ∈ c.normalized, ∀ rows columns, t.shape = [rows, columns] →
    columns ≤ e.totalModulus

/-- An engine that fits a compiler hosts the templates that it compiles. -/
theorem SimulatedEngine.Fits.hosts {e : SimulatedEngine} {c : TemplateCompiler} (h : e.Fits c)
    {compiled : EnrolledTemplate} {width : Nat} {features : List EnrolledFeature}
    (holds : compiled.Holds c.configuration.digitSystem width features)
    (htables : features.map (·.table) = c.normalized) {s : Strategy} (hstaffed : s.Staffed) :
    e.Hosts s compiled :=
  ⟨h.faithful, h.carryBits_pos, hstaffed,
    SimulatedEngine.compatible_of_columns h.messageBits_eq holds htables h.columns_le s⟩

/-! ### Refusing -/

/-- A check fails with other failures than those of engines. -/
def Refuses {α : Type} (x : Except Failure α) : Prop :=
  ∀ f, x = .error f → f.engineReport? = none

theorem Refuses.ok {α : Type} (a : α) : Refuses (.ok a) := by
  intro f hf
  cases hf

theorem Refuses.bind {α β : Type} {x : Except Failure α} {f : α → Except Failure β}
    (hx : Refuses x) (hf : ∀ a, Refuses (f a)) : Refuses (x >>= f) := by
  cases x with
  | ok a => exact hf a
  | error e =>
      intro e' he'
      cases he'
      exact hx e rfl

theorem Refuses.throw {α : Type} {f : Failure} (h : f.engineReport? = none) :
    Refuses (.error f : Except Failure α) := by
  intro f' hf'
  cases hf'
  exact h

theorem DigitLookup.codeCount_refuses (l : DigitLookup) : Refuses l.codeCount := by
  unfold codeCount Tensor.axisLength
  split
  · exact .ok _
  · exact .throw rfl

theorem Matcher.requireCompatible_refuses {σ C B : Type} (m : Matcher σ C B)
    (compiled : EnrolledTemplate) : Refuses (m.requireCompatible compiled) := by
  have domains : ∀ total lookups, Refuses (checkDomains total lookups) := by
    intro total lookups
    induction lookups with
    | nil => exact .ok ()
    | cons l rest ih =>
        refine .bind l.codeCount_refuses fun size => ?_
        split
        · exact .throw rfl
        · exact ih
  unfold requireCompatible
  split
  · exact .throw rfl
  · exact domains _ _

theorem LookupPlan.build_refuses (probe : List Int) (compiled : EnrolledTemplate) :
    Refuses (build probe compiled) := by
  have codes : ∀ feature code lookups, Refuses (checkCode feature code lookups) := by
    intro feature code lookups
    induction lookups with
    | nil => exact .ok ()
    | cons l rest ih =>
        refine .bind l.codeCount_refuses fun size => ?_
        split
        · exact ih
        · exact .throw rfl
  have extensions : ∀ (p : LookupPlan) feature features,
      Refuses (p.extendFrom feature features) := by
    intro p feature features
    induction features generalizing p feature with
    | nil => exact .ok p
    | cons x rest ih => exact .bind (codes _ _ _) fun _ => ih _ _
  unfold build
  split
  · exact .throw rfl
  · exact extensions _ _ _

/-- What is refused before anything is encrypted stays a failure. -/
theorem Matcher.verify_refused {σ C B : Type} {m : Matcher σ C B} {G : σ → σ → Prop}
    (hbegin : ∀ s, G s (m.instruments.begin s)) {probe : List Int} {compiled : EnrolledTemplate}
    {f : Failure} (h : (m.requireCompatible compiled >>= fun _ =>
      LookupPlan.build probe compiled) = .error f) (stamp : Stamp) (datasetName : String)
    (debug : Bool) (schedule : Schedule) :
    (m.verify stamp probe compiled datasetName debug schedule).Always G
      fun r => r = .error f := by
  have refused : f.engineReport? = none :=
    (m.requireCompatible_refuses compiled).bind (fun _ => LookupPlan.build_refuses probe compiled)
      f h
  have decided : (m.decide probe compiled debug schedule).Always G fun r => r = .error f := by
    refine ⟨hbegin, fun _ => ?_⟩
    cases hcompatible : m.requireCompatible compiled with
    | error f' =>
        rw [hcompatible] at h
        cases h
        rfl
    | ok u =>
        rw [hcompatible, ok_bind] at h
        rw [h]
        rfl
  have attempted : ((m.decide probe compiled debug schedule).attempt :
      Process σ Failure _).Always G fun r => r = .ok (.error f) :=
    Process.Always.attempt decided fun _ hr => congrArg Except.ok hr
  unfold verify
  refine Process.Always.bind attempted ?_ ?_
  · intro r hr
    cases hr
    simp only [refused]
    rfl
  · intro f' hf'
    cases hf'

namespace TemplateCompiler

/-- A template and a probe have a code for every table, each within its axis. -/
structure Covers (c : TemplateCompiler) (template probe : List Int) : Prop where
  template_length : template.length = c.normalized.length
  probe_length : probe.length = c.normalized.length
  codes : ∀ (f : Nat) (t : Tensor) (code code' : Int), c.normalized[f]? = some t →
    template[f]? = some code → probe[f]? = some code' → ∃ rows columns,
      t.shape = [rows, columns] ∧ (0 ≤ code ∧ code < rows) ∧ (0 ≤ code' ∧ code' < columns)

variable {configuration : MatchPolicy} {tables : List TableSource} {c : TemplateCompiler}
  {template probe : List Int}

theorem Covers.rows (h : c.Covers template probe) : List.Forall₂ RowOf template c.normalized := by
  refine List.forall₂_iff_get.2 ⟨h.template_length, fun f hf hf' => ?_⟩
  have hprobe : f < probe.length := by
    rw [h.probe_length]
    exact hf'
  obtain ⟨rows, columns, hshape, hrow, _⟩ := h.codes f _ _ _ (List.getElem?_eq_getElem hf')
    (List.getElem?_eq_getElem hf) (List.getElem?_eq_getElem hprobe)
  exact ⟨rows, columns, hshape, hrow⟩

/-- The lookups that a template is compiled to cover probe codes in range. -/
theorem Covers.lookups (h : c.Covers template probe) {compiled : EnrolledTemplate} {d : DigitSystem}
    {width : Nat} {features : List EnrolledFeature} (holds : compiled.Holds d width features)
    (htables : features.map (·.table) = c.normalized)
    (htemplate : features.map (·.template) = template) :
    ∀ x ∈ probe.zip compiled.lookups, LookupPlan.Covers x.1 x.2 := by
  rw [holds.pairs]
  intro x hx l hl
  obtain ⟨y, hy, rfl⟩ := List.mem_map.1 hx
  obtain ⟨f, hf, rfl⟩ := List.getElem_of_mem hy
  have hfeature : f < features.length := by
    rw [List.length_zip] at hf
    omega
  have hprobe : f < probe.length := by
    rw [List.length_zip] at hf
    omega
  rw [List.getElem_zip] at hl ⊢
  obtain ⟨rows, columns, hsound⟩ := holds.sound _ (List.getElem_mem hfeature)
  obtain ⟨rows', columns', hshape, _, hcolumn⟩ := h.codes f features[f].table
    features[f].template probe[f] (by rw [← htables]; simp [hfeature])
    (by rw [← htemplate]; simp [hfeature]) (List.getElem?_eq_getElem hprobe)
  rw [hsound.grid.shape_eq] at hshape
  cases hshape
  exact ⟨columns, (hsound.bound l hl).codeCount_eq, hcolumn⟩

/-- Codes in range are accepted all the way. -/
theorem accepted (hc : ofTables configuration tables = .ok c) (h : c.Covers template probe)
    (earlyStop : Bool) :
    ∃ compiled plan, c.compile template earlyStop = .ok compiled ∧
      LookupPlan.build probe compiled = .ok plan ∧
      ∀ (e : SimulatedEngine) (s : Strategy), e.Fits c → s.Staffed → e.Hosts s compiled := by
  obtain ⟨_, prepared⟩ := ofTables_eq_ok hc
  obtain ⟨compiled, hcompile⟩ := prepared.compile_ok h.rows earlyStop
  obtain ⟨features, holds, htables, htemplate, _⟩ := prepared.holds hcompile
  have count : compiled.lookups.length = c.normalized.length := by
    rw [← holds.lookups_eq, List.length_map, ← htables, List.length_map]
  obtain ⟨plan, hplan⟩ := LookupPlan.build_ok (h.probe_length.trans count.symm)
    (h.lookups holds htables htemplate)
  exact ⟨compiled, plan, hcompile, hplan, fun e s hfits hstaffed =>
    hfits.hosts holds htables hstaffed⟩

/-! ### A sample -/

/-- Evaluation shows what the compiler of tables is like. -/
theorem ofTables_evaluated {α : Type} {configuration : MatchPolicy} {tables : List TableSource}
    {view : TemplateCompiler → α} {seen : α}
    (h : (ofTables configuration tables).toOption.map view = some seen) :
    ∃ c, ofTables configuration tables = .ok c ∧ view c = seen := by
  cases hc : ofTables configuration tables with
  | error f =>
      rw [hc] at h
      cases h
  | ok c =>
      rw [hc] at h
      exact ⟨c, rfl, Option.some.inj h⟩

/-- Where all tables are of one size, codes are in range if each of them is within it. -/
theorem covers_of_shapes {c : TemplateCompiler} {template probe : List Int} {rows columns : Nat}
    (hshapes : c.normalized.map (·.shape) = template.map fun _ => [rows, columns])
    (hlength : probe.length = template.length)
    (htemplate : ∀ code ∈ template, 0 ≤ code ∧ code < rows)
    (hprobe : ∀ code ∈ probe, 0 ≤ code ∧ code < columns) : c.Covers template probe := by
  have length : c.normalized.length = template.length := by
    simpa using congrArg List.length hshapes
  refine ⟨length.symm, hlength.trans length.symm, fun f t code code' ht hcode hcode' => ?_⟩
  have shape : (c.normalized.map (·.shape))[f]? = some t.shape := by
    rw [List.getElem?_map, ht]
    rfl
  rw [hshapes, List.getElem?_map, hcode] at shape
  exact ⟨rows, columns, (Option.some.inj shape).symm, htemplate code (List.mem_of_getElem? hcode),
    hprobe code' (List.mem_of_getElem? hcode')⟩

/-- Where all tables are of one size, they have as many columns. -/
theorem columns_of_shapes {tables : List Tensor} {rows columns : Nat}
    (hshapes : ∀ shape ∈ tables.map (·.shape), shape = [rows, columns]) :
    ∀ t ∈ tables, ∀ rows' columns', t.shape = [rows', columns'] → columns' = columns := by
  intro t ht rows' columns' hshape
  have size := hshapes t.shape (List.mem_map_of_mem ht)
  rw [hshape] at size
  exact List.head_eq_of_cons_eq (List.tail_eq_of_cons_eq size)

theorem covers_sample {c : TemplateCompiler}
    (hshapes : c.normalized.map (·.shape) = [[2, 3], [2, 3]]) : c.Covers [0, 1] [1, 2] :=
  covers_of_shapes hshapes rfl (by decide) (by decide)

theorem fits_smallest {c : TemplateCompiler} (hpolicy : c.configuration = samplePolicy)
    (hshapes : c.normalized.map (·.shape) = [[2, 3], [2, 3]]) :
    SimulatedEngine.smallest.Fits c := by
  have sizes : ∀ shape ∈ c.normalized.map (·.shape), shape = [2, 3] := by
    rw [hshapes]
    decide
  refine ⟨SimulatedEngine.faithful_smallest, by rw [hpolicy]; rfl, by decide, ?_⟩
  intro t ht rows columns hshape
  rw [columns_of_shapes sizes t ht rows columns hshape]
  decide

end TemplateCompiler

end SealedMatch
