/-
Module: SealedMatch.Proofs.Matching.Refusal
Purpose: When leaving out leading zero digits changes which probes are refused.
Trusted boundary: none
Main exports: DigitLookup.firstDigits, EnrolledTemplate.Siblings, EnrolledTemplate.Siblings.screen,
  EnrolledTemplate.RefusesAlike, TemplateCompiler.refusesAlike_iff
-/
import SealedMatch.Proofs.Matching.Completion
import SealedMatch.Proofs.Matching.Correctness
import SealedMatch.Proofs.Matching.EarlyStop

namespace SealedMatch

/-! ### Rows of one feature -/

/-- The lookups of the first digits of a feature, one of whose lookups is given. -/
def DigitLookup.firstDigits (l : DigitLookup) (count : Nat) : List DigitLookup :=
  (List.range count).map fun (block : Nat) => { l with block := block }

/-- Two rows of lookups that belong to one feature and table, however many digits they have. -/
def OneFeature (row row' : List DigitLookup) : Prop :=
  ∃ l : DigitLookup, row = l.firstDigits row.length ∧ row' = l.firstDigits row'.length

/-- Two templates for the same features and tables, however many digits their features have. -/
structure EnrolledTemplate.Siblings (t t' : EnrolledTemplate) : Prop where
  radix_eq : t.radix = t'.radix
  rows : List.Forall₂ OneFeature t.lookups t'.lookups

/-- Lookups of one feature are checked alike. -/
theorem DigitLookup.of_mem_firstDigits {l l' : DigitLookup} {count : Nat}
    (h : l' ∈ l.firstDigits count) : l'.feature = l.feature ∧ l'.codeCount = l.codeCount := by
  obtain ⟨block, _, rfl⟩ := List.mem_map.1 h
  exact ⟨rfl, rfl⟩

namespace Matcher

/-- Checking the widths of lookups that are checked alike comes down to checking one of them. -/
theorem checkDomains_row {total : Nat} {l : DigitLookup} {row : List DigitLookup}
    (hrow : row ≠ []) (h : ∀ l' ∈ row, l'.feature = l.feature ∧ l'.codeCount = l.codeCount)
    (rest : List DigitLookup) :
    checkDomains total (row ++ rest) = checkDomains total (l :: rest) := by
  induction row with
  | nil => exact absurd rfl hrow
  | cons l' row ih =>
      obtain ⟨hfeature, hcount⟩ := h l' (by simp)
      by_cases last : row = []
      · subst last
        simp only [List.cons_append, List.nil_append, checkDomains, hfeature, hcount]
      · have again := ih last fun x hx => h x (List.mem_cons_of_mem _ hx)
        rw [List.cons_append, checkDomains, again, hfeature, hcount, checkDomains]
        cases l.codeCount with
        | error e => rfl
        | ok size =>
            by_cases wide : total < size
            · simp only [ok_bind, if_pos wide]
              rfl
            · simp only [ok_bind, if_neg wide]

/-- Widths are checked alike in rows of the same features that have a digit. -/
theorem checkDomains_oneFeature {total : Nat} {rows rows' : List (List DigitLookup)}
    (h : List.Forall₂ OneFeature rows rows') (hrows : ∀ row ∈ rows, row ≠ [])
    (hrows' : ∀ row ∈ rows', row ≠ []) :
    checkDomains total rows.flatten = checkDomains total rows'.flatten := by
  induction h with
  | nil => rfl
  | @cons row row' rows rows' head tail ih =>
      obtain ⟨l, heq, heq'⟩ := head
      rw [List.flatten_cons, List.flatten_cons]
      rw [checkDomains_row (l := l) (hrows row (by simp))
        fun x hx => DigitLookup.of_mem_firstDigits (heq ▸ hx)]
      rw [checkDomains_row (l := l) (hrows' row' (by simp))
        fun x hx => DigitLookup.of_mem_firstDigits (heq' ▸ hx)]
      rw [checkDomains, checkDomains, ih (fun x hx => hrows x (List.mem_cons_of_mem _ hx))
        fun x hx => hrows' x (List.mem_cons_of_mem _ hx)]

end Matcher

namespace LookupPlan

/-- Checking a code with lookups that are checked alike comes down to checking it with one. -/
theorem checkCode_row {feature : Nat} {code : Int} {l : DigitLookup} {row : List DigitLookup}
    (hrow : row ≠ []) (h : ∀ l' ∈ row, l'.codeCount = l.codeCount) :
    checkCode feature code row = checkCode feature code [l] := by
  induction row with
  | nil => exact absurd rfl hrow
  | cons l' row ih =>
      have hcount := h l' (by simp)
      by_cases last : row = []
      · subst last
        simp only [checkCode, hcount]
      · have again := ih last fun x hx => h x (List.mem_cons_of_mem _ hx)
        rw [checkCode, again, hcount, checkCode]
        cases l.codeCount with
        | error e => rfl
        | ok size =>
            by_cases inside : 0 ≤ code ∧ code < size
            · simp only [ok_bind, if_pos inside, checkCode]
            · simp only [ok_bind, if_neg inside]

/-- Features are refused alike as rows with a digit. -/
theorem extendFrom_oneFeature {rows rows' : List (List DigitLookup)}
    (h : List.Forall₂ OneFeature rows rows') (hrows : ∀ row ∈ rows, row ≠ [])
    (hrows' : ∀ row ∈ rows', row ≠ []) (probe : List Int) (p p' : LookupPlan) (first : Nat) :
    Agree (fun _ _ => True) (p.extendFrom first (probe.zip rows))
      (p'.extendFrom first (probe.zip rows')) := by
  induction h generalizing probe p p' first with
  | nil =>
      rw [List.zip_nil_right]
      exact .ok trivial
  | @cons row row' rows rows' head tail ih =>
      cases probe with
      | nil => exact .ok trivial
      | cons code probe =>
          obtain ⟨l, heq, heq'⟩ := head
          rw [List.zip_cons_cons, List.zip_cons_cons, extendFrom, extendFrom]
          rw [checkCode_row (l := l) (hrows row (by simp))
            fun x hx => (DigitLookup.of_mem_firstDigits (heq ▸ hx)).2]
          rw [checkCode_row (l := l) (hrows' row' (by simp))
            fun x hx => (DigitLookup.of_mem_firstDigits (heq' ▸ hx)).2]
          exact (Agree.refl _).bind fun _ _ _ =>
            ih (fun x hx => hrows x (List.mem_cons_of_mem _ hx))
              (fun x hx => hrows' x (List.mem_cons_of_mem _ hx)) _ _ _ _

end LookupPlan

namespace EnrolledTemplate

/-- Every feature has a digit. -/
def Visible (t : EnrolledTemplate) : Prop := ∀ n ∈ t.digitCounts, 0 < n

theorem Visible.rows {t : EnrolledTemplate} (h : t.Visible) : ∀ row ∈ t.lookups, row ≠ [] := by
  intro row hrow
  exact List.length_pos_iff.1 (h row.length (List.mem_map_of_mem hrow))

/-- Templates for the same features are refused alike if each of them has a digit of every
feature. -/
theorem Siblings.screen {t t' : EnrolledTemplate} (h : t.Siblings t') (ht : t.Visible)
    (ht' : t'.Visible) {σ C B : Type} (m : Matcher σ C B) (probe : List Int) :
    Agree (fun _ _ => True) (m.screen probe t) (m.screen probe t') := by
  have compatible : m.requireCompatible t = m.requireCompatible t' := by
    unfold Matcher.requireCompatible
    rw [h.radix_eq, Matcher.checkDomains_oneFeature h.rows ht.rows ht'.rows]
  have built : Agree (fun _ _ => True) (LookupPlan.build probe t) (LookupPlan.build probe t') := by
    unfold LookupPlan.build featureCount
    rw [h.rows.length_eq]
    by_cases equal : probe.length = t'.lookups.length
    · rw [if_neg (not_not.2 equal), if_neg (not_not.2 equal)]
      exact LookupPlan.extendFrom_oneFeature h.rows ht.rows ht'.rows probe _ _ 0
    · rw [if_pos equal, if_pos equal]
      exact .error _
  unfold Matcher.screen
  rw [compatible]
  exact (Agree.refl _).bind fun _ _ _ => built

end EnrolledTemplate

/-! ### Compiling with and without early stopping -/

/-- However many digits a feature is to have, its code is refused alike. -/
theorem bindFeature_oneFeature {counts counts' : List Int} (h : counts.length = counts'.length)
    (feature : Nat) (code : Int) (table : Tensor) :
    Agree OneFeature (bindFeature feature code table counts)
      (bindFeature feature code table counts') := by
  unfold bindFeature
  apply (Agree.refl _).bind
  rintro rows _ rfl
  by_cases inside : 0 ≤ code ∧ code < rows
  · rw [if_pos inside, if_pos inside]
    by_cases here : feature < counts.length
    · rw [List.getElem?_eq_getElem here, List.getElem?_eq_getElem (h ▸ here)]
      refine .ok ⟨⟨feature, code, 0, table⟩, ?_, ?_⟩ <;>
        rw [List.length_map, List.length_range] <;> rfl
    · rw [List.getElem?_eq_none (by omega), List.getElem?_eq_none (by omega)]
      exact .error _
  · rw [if_neg inside, if_neg inside]
    exact .error _

theorem bindFrom_oneFeature {counts counts' : List Int} (h : counts.length = counts'.length)
    (feature : Nat) (features : List (Int × Tensor)) :
    Agree (List.Forall₂ OneFeature) (bindFrom counts feature features)
      (bindFrom counts' feature features) := by
  induction features generalizing feature with
  | nil => exact .ok .nil
  | cons x rest ih =>
      obtain ⟨code, table⟩ := x
      unfold bindFrom
      apply (bindFeature_oneFeature h feature code table).bind
      intro here here' head
      apply (ih (feature + 1)).bind
      intro there there' tail
      exact .ok (.cons head tail)

namespace TemplateCompiler

variable {configuration : MatchPolicy} {tables : List TableSource} {c : TemplateCompiler}
  {template : List Int} {full short : EnrolledTemplate}

/-- A template is compiled with early stopping exactly if it is compiled without, for the same
features. -/
theorem Prepared.compile_siblings (h : c.Prepared tables) (template : List Int) :
    Agree EnrolledTemplate.Siblings (c.compile template true) (c.compile template false) := by
  have counts : (c.digitCounts true).length = (c.digitCounts false).length := by
    simp [digitCounts, ← h.decomposed_eq.length_eq, ← h.shortCounts_eq.length_eq]
  have bound : Agree (List.Forall₂ OneFeature)
      (bindTemplate template c.decomposed (c.digitCounts true))
      (bindTemplate template c.decomposed (c.digitCounts false)) := by
    unfold bindTemplate
    by_cases equal : template.length = c.decomposed.length
    · rw [if_neg (not_not.2 equal), if_neg (not_not.2 equal)]
      exact bindFrom_oneFeature counts 0 _
    · rw [if_pos equal, if_pos equal]
      exact .error _
  unfold compile
  apply bound.bind
  intro rows rows' related
  exact .ok ⟨rfl, related⟩

theorem Prepared.exists_siblings (h : c.Prepared tables) {earlyStop : Bool}
    {compiled : EnrolledTemplate} (hcompile : c.compile template earlyStop = .ok compiled) :
    ∃ full short, c.compile template false = .ok full ∧ c.compile template true = .ok short ∧
      short.Siblings full := by
  have agree := h.compile_siblings template
  cases earlyStop with
  | false =>
      rw [hcompile] at agree
      obtain ⟨short, hshort, related⟩ := agree.exists_ok
      exact ⟨compiled, short, hcompile, hshort, related⟩
  | true =>
      rw [hcompile] at agree
      cases hfull : c.compile template false with
      | ok full =>
          rw [hfull] at agree
          cases agree with
          | ok related => exact ⟨full, compiled, rfl, hcompile, related⟩
      | error e =>
          rw [hfull] at agree
          cases agree

/-- Without early stopping every feature has a digit. -/
theorem Prepared.visible_full (h : c.Prepared tables)
    (hcompile : c.compile template false = .ok full) : full.Visible := by
  intro n hn
  rw [digitCounts_full h hcompile n hn]
  exact c.configuration.digitSystem.blockCount_pos

/-- With early stopping every feature has the digits that were counted in its table. -/
theorem Prepared.digitCounts_short (h : c.Prepared tables)
    (hcompile : c.compile template true = .ok short) : short.digitCounts = c.shortCounts := by
  obtain ⟨features, holds, htables, _, hcounts⟩ := h.holds hcompile
  have length : features.length = c.shortCounts.length := by
    rw [← h.shortCounts_eq.length_eq, ← htables, List.length_map]
  rw [holds.digitCounts_eq]
  refine List.ext_getElem (by rw [List.length_map, length]) fun i hi hi' => ?_
  rw [List.length_map] at hi
  obtain ⟨n, hn, hcount⟩ := hcounts i features[i] (List.getElem?_eq_getElem hi)
  unfold digitCounts at hn
  rw [if_pos rfl, List.getElem?_map, List.getElem?_eq_getElem hi'] at hn
  cases hn
  rw [List.getElem_map, hcount]
  rfl

/-- With early stopping every feature has a digit exactly if no table begins with a zero. -/
theorem Prepared.visible_short_iff (h : c.Prepared tables)
    (hcompile : c.compile template true = .ok short) :
    short.Visible ↔ ∀ t ∈ c.normalized, t.cell 0 0 ≠ 0 := by
  have each : List.Forall₂ (fun n t => 0 < n ↔ Tensor.cell t 0 0 ≠ 0) c.shortCounts
      c.normalized := by
    refine (List.Forall₂.flip (R := flip _) h.shortCounts_eq).imp fun n t hn => ?_
    obtain ⟨largest, hread, rfl⟩ := earlyStopCount_eq_ok hn
    rw [Tensor.cell_of_read hread]
    exact leadingDigitCount_pos_iff c.configuration.digitSystem.blockCount_pos
  unfold EnrolledTemplate.Visible
  rw [h.digitCounts_short hcompile]
  constructor
  · intro visible
    have both := forall₂_and_right (List.Forall₂.flip (R := flip _) each) visible
    exact forall₂_left both fun t n hboth => hboth.1.1 hboth.2
  · intro nonzero
    exact forall₂_left (forall₂_and_right each nonzero) fun n t hboth => hboth.1.2 hboth.2

end TemplateCompiler

/-! ### A code that nothing covers -/

/-- Lookups cover the code zero, and no more codes than a table has entries. -/
theorem EnrolledTemplate.Holds.codeCount_range {t : EnrolledTemplate} {d : DigitSystem}
    {width : Nat} {features : List EnrolledFeature} (h : t.Holds d width features) :
    ∀ row ∈ t.lookups, ∀ l ∈ row, ∃ size, l.codeCount = .ok size ∧ 0 < size ∧
      size ≤ mostEntries := by
  intro row hrow l hl
  rw [← h.lookups_eq] at hrow
  obtain ⟨x, hx, rfl⟩ := List.mem_map.1 hrow
  obtain ⟨rows, columns, hsound⟩ := h.sound x hx
  have axes := DigitLookup.axes_le_mostEntries hsound.grid d.blockCount_pos hsound.room
  exact ⟨columns, (hsound.bound l hl).codeCount_eq, hsound.grid.columns_pos, axes.2.1⟩

/-- The code zero for all features, but minus one for one of them. -/
def strayProbe (count f : Nat) : List Int := (List.replicate count 0).set f (-1)

/-- Only where the stray code is does a feature meet a code outside of it. -/
theorem EnrolledTemplate.Holds.outside_strayProbe {t : EnrolledTemplate} {d : DigitSystem}
    {width : Nat} {features : List EnrolledFeature} (h : t.Holds d width features) {f : Nat}
    {row : List DigitLookup} (hrow : t.lookups[f]? = some row) :
    (∃ g code size, t.Outside (strayProbe t.featureCount f) g code size) ↔ row ≠ [] := by
  obtain ⟨inside, _⟩ := List.getElem?_eq_some_iff.1 hrow
  have stray : (strayProbe t.featureCount f)[f]? = some (-1) := by
    unfold strayProbe EnrolledTemplate.featureCount
    rw [List.getElem?_set_self (by simpa using inside)]
  constructor
  · rintro ⟨g, code, size, hcode, ⟨row', l, hrow', hl, hsize⟩, houtside⟩ rfl
    obtain ⟨size', hsize', pos, _⟩ := h.codeCount_range row' (List.mem_of_getElem? hrow') l hl
    cases hsize.symm.trans hsize'
    by_cases same : g = f
    · subst same
      cases hrow.symm.trans hrow'
      simp at hl
    · unfold strayProbe at hcode
      rw [List.getElem?_set_ne (Ne.symm same)] at hcode
      obtain ⟨_, rfl⟩ := List.getElem?_eq_some_iff.1 hcode
      rw [List.getElem_replicate] at houtside
      omega
  · intro hne
    obtain ⟨l, hl⟩ := List.exists_mem_of_ne_nil row hne
    obtain ⟨size, hsize, _⟩ := h.codeCount_range row (List.mem_of_getElem? hrow) l hl
    exact ⟨f, -1, size, stray, ⟨row, l, hrow, hl, hsize⟩, by omega⟩

/-- A matcher in the clear with room for every table. -/
def roomyMatcher (radix : Nat) : Matcher Unit ClearBlock ClearBatch :=
  ⟨ClearEngine.engine ⟨radix, mostEntries⟩, TemplateCompiler.placed .host, ⟨id, fun _ => 0, id⟩⟩

/-- Where every table has room, it is up to the codes whether a probe of the right length is
refused. -/
theorem EnrolledTemplate.Holds.screen_roomy {t : EnrolledTemplate} {d : DigitSystem}
    {width : Nat} {features : List EnrolledFeature} (h : t.Holds d width features)
    {probe : List Int} (hprobe : probe.length = t.featureCount) :
    (∃ failure, (roomyMatcher d.radix).screen probe t = .error failure) ↔
      ∃ g code size, t.Outside probe g code size := by
  have fits : ¬ t.Misfits d.radix mostEntries := by
    rintro (hradix | ⟨l, hl, size, hsize, hwide⟩)
    · exact hradix h.radix_eq
    · obtain ⟨row, hrow, hl⟩ := List.mem_flatten.1 hl
      obtain ⟨size', hsize', _, few⟩ := h.codeCount_range row hrow l hl
      cases hsize.symm.trans hsize'
      exact absurd hwide (not_lt.2 few)
  have ends : Admission t d.radix mostEntries probe ((roomyMatcher d.radix).screen probe t) :=
    Matcher.screen_admission h.measured (roomyMatcher d.radix) probe
  generalize (roomyMatcher d.radix).screen probe t = checks at ends
  cases ends with
  | misfit misfits cause => exact absurd misfits fits
  | unequal _ unequal => exact absurd hprobe unequal
  | outside _ _ first => exact ⟨fun _ => ⟨_, _, _, first.toOutside⟩, fun _ => ⟨_, rfl⟩⟩
  | admitted _ _ inside plan =>
      constructor
      · rintro ⟨_, ⟨⟩⟩
      · rintro ⟨g, code, size, outside⟩
        exact absurd outside (inside g code size)

/-! ### Templates that are refused alike -/

/-- If an authentication ends by its checks, their failures are its failures. -/
theorem EndsByChecks.error_iff {C : Type} {debug : Bool} {before : Session}
    {outcome : Except Failure (SealedDecision C) × Session} {checks : Except Failure LookupPlan}
    (h : EndsByChecks debug before outcome checks) (failure : Failure) :
    outcome.1 = .error failure ↔ checks = .error failure := by
  cases checks with
  | ok plan =>
      obtain ⟨decision, hdecision, _⟩ := h
      simp [hdecision]
  | error e =>
      cases h
      simp

/-- Probes are refused alike by two templates:

* on every engine the checks of both fail with one failure, or neither do;
* if a feature of either meets a code outside of it, an authentication by either fails with nothing
  done but to mark its beginning, and both with one failure;
* on engines that compute, authentications by both fail with one failure, or neither do. -/
structure EnrolledTemplate.RefusesAlike (t t' : EnrolledTemplate) : Prop where
  checks : ∀ {σ C B : Type} (m : Matcher σ C B) (probe : List Int) (failure : Failure),
    m.screen probe t = .error failure ↔ m.screen probe t' = .error failure
  outside : ∀ {σ C B : Type} (m : Matcher σ C B) {probe : List Int} {f : Nat} {code : Int}
    {size : Nat}, t.Outside probe f code size ∨ t'.Outside probe f code size →
      ∃ failure, ∀ (debug : Bool) (schedule : Schedule) (s : σ),
        (m.authenticate probe t debug schedule).run s = (.error failure, m.instruments.begin s) ∧
        (m.authenticate probe t' debug schedule).run s = (.error failure, m.instruments.begin s)
  outcomes : ∀ {p : LweParameters} {tape : Tape} {e : SimulatedEngine} {s : Strategy},
    SimulatedEngine.ofTape p tape SimulatedEngine.unguarded = .ok e →
    p.messageBits + p.carryBits ≤ 31 → s.Staffed →
    ∀ (probe : List Int) (debug : Bool) (schedule : Schedule) (session : Session)
      (failure : Failure),
      (((e.matcher s).authenticate probe t debug schedule).run session).1 = .error failure ↔
        (((e.matcher s).authenticate probe t' debug schedule).run session).1 = .error failure

/-- A code outside of a feature fails the checks. -/
theorem EnrolledTemplate.Measured.exists_error {t : EnrolledTemplate} (ht : t.Measured)
    {σ C B : Type} (m : Matcher σ C B) {probe : List Int} {f : Nat} {code : Int} {size : Nat}
    (h : t.Outside probe f code size) : ∃ failure, m.screen probe t = .error failure := by
  have ends := Matcher.screen_admission ht m probe
  generalize m.screen probe t = checks at ends
  cases ends with
  | admitted _ _ inside plan => exact absurd h (inside f code size)
  | _ => exact ⟨_, rfl⟩

namespace TemplateCompiler

section Alike

variable {configuration : MatchPolicy} {tables : List TableSource} {c : TemplateCompiler}
  {template : List Int} {full short compiled : EnrolledTemplate} {earlyStop : Bool}

/-- Templates with a digit for every feature are refused alike. -/
theorem refusesAlike_of_visible (hc : ofTables configuration tables = .ok c)
    (hfull : c.compile template false = .ok full) (hshort : c.compile template true = .ok short)
    (hsiblings : short.Siblings full) (hvisible : short.Visible) : short.RefusesAlike full := by
  obtain ⟨_, prepared⟩ := ofTables_eq_ok hc
  have alike : ∀ {σ C B : Type} (m : Matcher σ C B) (probe : List Int) (failure : Failure),
      m.screen probe short = .error failure ↔ m.screen probe full = .error failure := by
    intro σ C B m probe failure
    exact (hsiblings.screen hvisible (prepared.visible_full hfull) m probe).error_iff failure
  refine ⟨alike, ?_, ?_⟩
  · intro σ C B m probe f code size houtside
    have refused : ∃ failure, m.screen probe short = .error failure := by
      rcases houtside with hshort' | hfull'
      · obtain ⟨_, holds, _⟩ := prepared.holds hshort
        exact holds.measured.exists_error m hshort'
      · obtain ⟨_, holds, _⟩ := prepared.holds hfull
        obtain ⟨failure, hfailure⟩ := holds.measured.exists_error m hfull'
        exact ⟨failure, (alike m probe failure).2 hfailure⟩
    obtain ⟨failure, hfailure⟩ := refused
    refine ⟨failure, fun debug schedule s => ⟨?_, ?_⟩⟩
    · exact Matcher.authenticate_run_of_refused hfailure debug schedule s
    · exact Matcher.authenticate_run_of_refused ((alike m probe failure).1 hfailure) debug
        schedule s
  · intro p tape e s he hbits hstaffed probe debug schedule session failure
    rw [(authenticate_outcome hc hshort he hbits hstaffed probe debug schedule session).error_iff,
      (authenticate_outcome hc hfull he hbits hstaffed probe debug schedule session).error_iff]
    exact alike _ probe failure

/-- A feature without a digit lets a stray code pass that the same feature with digits refuses. -/
theorem visible_of_refusesAlike (h : c.Prepared tables)
    (hfull : c.compile template false = .ok full) (hshort : c.compile template true = .ok short)
    (hsiblings : short.Siblings full) (halike : short.RefusesAlike full) : short.Visible := by
  intro n hn
  rw [Nat.pos_iff_ne_zero]
  rintro rfl
  obtain ⟨row, hmem, hempty⟩ := List.mem_map.1 hn
  obtain ⟨f, hf, hrow⟩ := List.getElem_of_mem hmem
  have same : short.featureCount = full.featureCount := hsiblings.rows.length_eq
  have hf' : f < full.lookups.length := hsiblings.rows.length_eq ▸ hf
  obtain ⟨_, holds, _⟩ := h.holds hshort
  obtain ⟨_, holds', _⟩ := h.holds hfull
  have length : (strayProbe full.featureCount f).length = full.featureCount := by
    simp [strayProbe]
  have caught : ∃ failure, (roomyMatcher c.configuration.digitSystem.radix).screen
      (strayProbe full.featureCount f) full = .error failure := by
    rw [holds'.screen_roomy length, holds'.outside_strayProbe (List.getElem?_eq_getElem hf')]
    exact (h.visible_full hfull).rows _ (List.getElem_mem hf')
  obtain ⟨failure, hfailure⟩ := caught
  have missed := (halike.checks _ _ failure).2 hfailure
  rw [← same] at missed length
  have digits := (holds.outside_strayProbe (List.getElem?_eq_getElem hf)).1
    ((holds.screen_roomy length).1 ⟨failure, missed⟩)
  exact digits (hrow ▸ List.length_eq_zero_iff.1 hempty)

/-- Leaving out leading zero digits changes no refusal exactly if no normalized table begins with a
zero. A table that does gets no lookup, and with it go the checks of its width and of its codes. -/
theorem refusesAlike_iff (hc : ofTables configuration tables = .ok c)
    (hcompile : c.compile template earlyStop = .ok compiled) :
    ∃ full short, c.compile template false = .ok full ∧ c.compile template true = .ok short ∧
      ((∀ t ∈ c.normalized, t.cell 0 0 ≠ 0) ↔ short.RefusesAlike full) := by
  obtain ⟨_, prepared⟩ := ofTables_eq_ok hc
  obtain ⟨full, short, hfull, hshort, siblings⟩ := prepared.exists_siblings hcompile
  refine ⟨full, short, hfull, hshort, ?_⟩
  rw [← prepared.visible_short_iff hshort]
  constructor
  · exact refusesAlike_of_visible hc hfull hshort siblings
  · exact visible_of_refusesAlike prepared hfull hshort siblings

end Alike

/-- Both sample tables begin with a number other than zero. -/
theorem refusesAlike_iff_sample :
    ∃ c compiled, ofTables samplePolicy sampleTables = .ok c ∧
      c.compile [0, 1] true = .ok compiled ∧
      ∃ full short, c.compile [0, 1] false = .ok full ∧ c.compile [0, 1] true = .ok short ∧
        (∀ t ∈ c.normalized, t.cell 0 0 ≠ 0) ∧ short.RefusesAlike full := by
  have evaluated : ((ofTables samplePolicy sampleTables).toOption.map fun c =>
      ((c.compile [0, 1] true).isOk, c.normalized.map fun t => t.cell 0 0)) =
        some (true, [3, 3]) := by
    decide +kernel
  obtain ⟨c, hc, seen⟩ := ofTables_evaluated evaluated
  obtain ⟨compiles, corners⟩ := Prod.mk.inj seen
  obtain ⟨compiled, hcompile⟩ := exists_of_isOk compiles
  have nonzero : ∀ t ∈ c.normalized, t.cell 0 0 ≠ 0 := by
    intro t ht
    have corner : t.cell 0 0 ∈ [3, 3] := corners ▸ List.mem_map_of_mem ht
    have : t.cell 0 0 = 3 := by simpa using corner
    omega
  obtain ⟨full, short, hfull, hshort, same⟩ := refusesAlike_iff hc hcompile
  exact ⟨c, compiled, hc, hcompile, full, short, hfull, hshort, nonzero, same.1 nonzero⟩

/-- Where a table holds nothing but zeros, a code outside of it is refused with all digits and comes
to a decision without leading zero digits. -/
theorem refusesAlike_fails_shallow :
    ∃ c full short e, ofTables samplePolicy shallowTables = .ok c ∧
      c.compile [0, 1] false = .ok full ∧ c.compile [0, 1] true = .ok short ∧
      SimulatedEngine.ofTape SimulatedEngine.smallest.parameters wildTape
        SimulatedEngine.unguarded = .ok e ∧
      (((e.matcher (placed .host)).authenticate [1, 5] full false []).run Session.start).1 =
        .error (.domain (.probeCode 1 5 3)) ∧
      (∃ decision, (((e.matcher (placed .host)).authenticate [1, 5] short false []).run
        Session.start).1 = .ok decision) ∧
      ¬ short.RefusesAlike full := by
  have evaluated : (do
      let c ← ofTables samplePolicy shallowTables
      let full ← c.compile [0, 1] false
      let short ← c.compile [0, 1] true
      let e ← SimulatedEngine.ofTape SimulatedEngine.smallest.parameters wildTape
        SimulatedEngine.unguarded
      let _ ← (e.matcher (placed .host)).screen [1, 5] short
      match (e.matcher (placed .host)).screen [1, 5] full with
      | .error (.domain (.probeCode 1 5 3)) => Except.ok ()
      | _ => Except.error (Failure.fault .noRoom)).isOk = true := by
    decide +kernel
  obtain ⟨u, hu⟩ := exists_of_isOk evaluated
  obtain ⟨c, hc, hu⟩ := bind_eq_ok hu
  obtain ⟨full, hfull, hu⟩ := bind_eq_ok hu
  obtain ⟨short, hshort, hu⟩ := bind_eq_ok hu
  obtain ⟨e, he, hu⟩ := bind_eq_ok hu
  obtain ⟨plan, hplan, hu⟩ := bind_eq_ok hu
  have refused : (e.matcher (placed .host)).screen [1, 5] full =
      .error (.domain (.probeCode 1 5 3)) := by
    split at hu
    · assumption
    · cases hu
  have ends := authenticate_outcome hc hfull he (by decide) (staffed_placed .host) [1, 5] false []
    Session.start
  have ends' := authenticate_outcome hc hshort he (by decide) (staffed_placed .host) [1, 5] false
    [] Session.start
  rw [hplan] at ends'
  obtain ⟨decision, hdecision, _⟩ := ends'
  refine ⟨c, full, short, e, hc, hfull, hshort, he, (ends.error_iff _).2 refused,
    ⟨decision, hdecision⟩, fun alike => ?_⟩
  have missed := (alike.checks _ _ _).2 refused
  rw [hplan] at missed
  cases missed

end TemplateCompiler

end SealedMatch
