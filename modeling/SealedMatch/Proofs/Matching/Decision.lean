/-
Module: SealedMatch.Proofs.Matching.Decision
Purpose: An authentication decides by the sum of its feature values, in whatever order they come.
Trusted boundary: none
Main exports: EnrolledTemplate.Holds, Matcher.addFeature_takes, Matcher.decide_yields,
  Matcher.verify_yields
-/
import Mathlib.Algebra.BigOperators.Group.List.Basic
import Mathlib.Data.List.Zip
import SealedMatch.Proofs.Matching.Evaluations

namespace SealedMatch

open Process hiding bind bind_assoc

/-! ### Values in the clear -/

/-- The value of a feature for a code: the part of the score that its digits hold. -/
def EnrolledFeature.value (radix : Int) (x : EnrolledFeature) (code : Int) : Int :=
  x.score code % radix ^ x.count

/-- As many digits as the sum has hold a value. -/
theorem EnrolledFeature.value_emod {radix : Int} (hradix : 0 < radix) {x : EnrolledFeature}
    {width : Nat} (hwidth : x.count ≤ width) (code : Int) :
    x.value radix code % radix ^ width = x.value radix code := by
  have low := Int.emod_nonneg (x.score code) (pow_pos hradix x.count).ne'
  have high := Int.emod_lt_of_pos (x.score code) (pow_pos hradix x.count)
  have wider : radix ^ x.count ≤ radix ^ width := pow_le_pow_right₀ (by omega) hwidth
  unfold value
  exact Int.emod_eq_of_lt low (by omega)

/-- The values of encounters. -/
def encounterValues (radix : Int) (encounters : List Encounter) : List Int :=
  encounters.map fun x => x.1.value radix x.2

/-- What a list has at its places. -/
theorem map_getD_range {α : Type} (xs : List α) (default : α) :
    (List.range xs.length).map (fun i => xs.getD i default) = xs := by
  apply List.ext_getElem (by simp)
  intro i hi hi'
  simp [hi']

/-- All places in any order give the list in some order. -/
theorem map_getD_perm {α : Type} {xs : List α} {places : List Nat}
    (h : places.Perm (List.range xs.length)) (default : α) :
    (places.map fun i => xs.getD i default).Perm xs := by
  have moved := h.map fun i => xs.getD i default
  rwa [map_getD_range] at moved

/-- The sum of the values at some places of a list. -/
def sumAt (values : List Int) (places : List Nat) : Int :=
  (places.map fun f => values.getD f 0).sum

theorem sumAt_cons (values : List Int) (f : Nat) (places : List Nat) :
    sumAt values (f :: places) = sumAt values places + values.getD f 0 := by
  unfold sumAt
  rw [List.map_cons, List.sum_cons, add_comm]

/-- All places in any order give the sum of the list. -/
theorem sumAt_perm {values : List Int} {places : List Nat}
    (h : places.Perm (List.range values.length)) : sumAt values places = values.sum :=
  (map_getD_perm h 0).sum_eq

/-- What an authentication reveals when it is asked to. -/
def Trace.ofValues (radix : Int) (width : Nat) (values : List Int) : Trace :=
  ⟨values, values.sum % radix ^ width⟩

/-- A template compiled of features that fit a digit system and the width of the sum. -/
structure EnrolledTemplate.Holds (t : EnrolledTemplate) (d : DigitSystem) (width : Nat)
    (features : List EnrolledFeature) : Prop where
  lookups_eq : features.map (·.lookups) = t.lookups
  sound : ∀ x ∈ features, ∃ rows columns, x.Sound d rows columns
  radix_eq : t.radix = d.radix
  sumWidth_eq : t.sumWidth = width
  blockCount_le : d.blockCount ≤ width

/-- Probe codes meet the lookups of the features in order. -/
theorem EnrolledTemplate.Holds.pairs {t : EnrolledTemplate} {d : DigitSystem} {width : Nat}
    {features : List EnrolledFeature} (h : t.Holds d width features) (probe : List Int) :
    probe.zip t.lookups = (features.zip probe).map fun x => (x.2, x.1.lookups) := by
  rw [← h.lookups_eq, List.zip_map_right, ← List.zip_swap, List.map_map]
  rfl

/-- Plans of a template run the evaluations of its features. -/
theorem EnrolledTemplate.Holds.runs {t : EnrolledTemplate} {d : DigitSystem} {width : Nat}
    {features : List EnrolledFeature} (h : t.Holds d width features) {probe : List Int}
    {plan : LookupPlan} (hplan : LookupPlan.build probe t = .ok plan) (radix : Int) :
    plan.Runs (encounterRows radix (features.zip probe)) := by
  obtain ⟨_, hlays, _⟩ := LookupPlan.build_eq_ok hplan
  rw [h.pairs] at hlays
  exact LookupPlan.runs_of_lays hlays

theorem EnrolledTemplate.Holds.digitCounts_eq {t : EnrolledTemplate} {d : DigitSystem}
    {width : Nat} {features : List EnrolledFeature} (h : t.Holds d width features) :
    t.digitCounts = features.map (·.count) := by
  unfold EnrolledTemplate.digitCounts
  rw [← h.lookups_eq, List.map_map]
  exact List.map_congr_left fun x _ => x.length_lookups

theorem TemplateCompiler.Prepared.holds {c : TemplateCompiler} {tables : List TableSource}
    (h : c.Prepared tables) {template : List Int} {earlyStop : Bool} {compiled : EnrolledTemplate}
    (hcompile : c.compile template earlyStop = .ok compiled) :
    ∃ features, compiled.Holds c.configuration.digitSystem c.configuration.sumWidth features ∧
      features.map (·.table) = c.normalized ∧ features.map (·.template) = template ∧
      ∀ (i : Nat) (x : EnrolledFeature), features[i]? = some x →
        ∃ n, (c.digitCounts earlyStop)[i]? = some n ∧ x.count = n.toNat := by
  obtain ⟨_, hwidth, hradix, features, htables, htemplate, hlookups, hsound, hcounts⟩ :=
    h.compile_eq_ok hcompile
  exact ⟨features, ⟨hlookups, hsound, hradix, hwidth, c.configuration.blockCount_le_sumWidth⟩,
    htables, htemplate, hcounts⟩

/-- Somebody said how many workers the host has, and there is one. -/
def Strategy.Staffed (s : Strategy) : Prop := ∃ n, s.maxWorkers? = some n ∧ 1 ≤ n

/-- Work on the host is done by the workers of the strategy. -/
theorem Strategy.workers_eq {s : Strategy} (hhost : s.arrangement ≠ .accelerator) :
    s.arrangement.workers? = s.maxWorkers? := by
  unfold Strategy.arrangement at hhost ⊢
  split
  · rfl
  · rename_i hkeyswitch hlookup
    rw [hkeyswitch, hlookup] at hhost
    exact absurd rfl hhost
  · rfl

theorem Strategy.Staffed.workers {s : Strategy} (h : s.Staffed)
    (hhost : s.arrangement ≠ .accelerator) :
    ∃ n, s.arrangement.workers? = some n ∧ 1 ≤ n := by
  rw [Strategy.workers_eq hhost]
  exact h

namespace Matcher

variable {σ C B : Type} {m : Matcher σ C B} {G : σ → σ → Prop} {k : ClearEngine}
  {RC : C → ClearBlock → Prop} {RB : B → ClearBatch → Prop}

theorem during_yields {α : Type} {Q : α → Prop} {p : Process σ Failure α} (h : p.Yields G Q)
    (step : String) : (m.during step p).Yields G Q :=
  h.mapError _

/-! ### Summing up -/

/-- The features taken so far, the last one first, are in the sum with their values. -/
structure Sums (RC : C → ClearBlock → Prop) (k : ClearEngine) (width : Nat) (values : List Int)
    (debug : Bool) (done : List Nat) (sum : Sum C) : Prop where
  total : RadixInteger.Each RC sum.total (k.ofInteger width (sumAt values done))
  values_eq : sum.values =
    if debug then done.reverse.map fun f => (f, values.getD f 0) else []

/-- Zero is the sum of no values. -/
theorem publicZero_sums (hE : m.engine.Implements G k RC RB) (width : Nat) (values : List Int)
    (debug : Bool) :
    (m.engine.publicZero width).Yields G fun zero =>
      Sums RC k width values debug [] ⟨zero, []⟩ := by
  apply ((hE.publicZero width).yields rfl).mono
  intro zero hzero
  rw [ClearEngine.publicZero_eq (k := k), Int.toNat_natCast] at hzero
  refine ⟨hzero, ?_⟩
  cases debug with
  | true => rfl
  | false => rfl

/-- What comes in at a place are the digits of the score of the encounter there. -/
theorem exists_encounter {encounters : List Encounter} {f : Nat} {row : List ClearBlock}
    (hrow : (answers (encounterRows k.messageModulus encounters))[f]? = some row) {cs : List C}
    (hcs : List.Forall₂ RC cs row) :
    ∃ x ∈ encounters,
      (encounterValues k.messageModulus encounters).getD f 0 = x.1.value k.messageModulus x.2 ∧
      RadixInteger.Each RC ⟨cs⟩ (k.ofInteger x.1.count (x.1.score x.2)) := by
  unfold answers encounterRows at hrow
  rw [List.map_map, List.getElem?_map, Option.map_eq_some_iff] at hrow
  obtain ⟨x, hx, rfl⟩ := hrow
  refine ⟨x, List.mem_of_getElem? hx, by simp [encounterValues, hx], ?_⟩
  unfold RadixInteger.Each ClearEngine.ofInteger
  rw [← x.1.answers_evaluations (Int.natCast_nonneg _)]
  exact hcs

/-- Each feature adds its value to the sum. -/
theorem addFeature_takes (hE : m.engine.Implements G k RC RB) (hk : k.Roomy)
    {encounters : List Encounter} {width : Nat} (hcount : ∀ x ∈ encounters, x.1.count ≤ width)
    (debug : Bool) :
    Takes G RC (answers (encounterRows k.messageModulus encounters))
      (Sums RC k width (encounterValues k.messageModulus encounters) debug)
      (m.addFeature width debug) := by
  intro done sum f cs row hsum _ hrow hcs
  obtain ⟨x, hx, value, digits⟩ := exists_encounter hrow hcs
  have few := hcount x hx
  -- A value is below the capacity of the sum, so decrypting the widened digits gives it back.
  have residue := x.1.value_emod hk.pos_int few x.2
  have total : sumAt (encounterValues k.messageModulus encounters) done +
      x.1.value k.messageModulus x.2 =
        sumAt (encounterValues k.messageModulus encounters) (f :: done) := by
    rw [sumAt_cons, value]
  unfold addFeature
  refine during_yields ?_ _
  refine ((hE.widen digits width).yields (ClearEngine.widen_ofInteger hk.pos few _)).bind
    fun wide hwide => ?_
  have added := (hE.add hsum.total hwide).yields (ClearEngine.add_ofInteger hk width _ _)
  have shown := hsum.values_eq
  cases debug with
  | true =>
      simp only [if_true] at shown ⊢
      apply ((hE.decryptInteger hwide).yields rfl).bind
      intro score hscore
      apply added.bind
      intro total' htotal
      refine Yields.done ⟨?_, ?_⟩
      · rw [← total]
        exact htotal
      · rw [hscore, ClearEngine.decryptInteger_ofInteger hk, shown]
        simp only [if_true, List.reverse_cons, List.map_append, List.map_cons, List.map_nil, value]
        exact congrArg (fun v => _ ++ [(f, v)]) residue
  | false =>
      simp only [Bool.false_eq_true, if_false] at shown ⊢
      apply added.bind
      intro total' htotal
      refine Yields.done ⟨?_, ?_⟩
      · rw [← total]
        exact htotal
      · simpa using shown

section Authentication

variable {compiled : EnrolledTemplate} {d : DigitSystem} {width : Nat}
  {encounters : List Encounter} {plan : LookupPlan}

/-- Whatever the sum keeps from feature to feature, it keeps for all features of a plan. -/
theorem sumFeatures_keeps (hE : m.engine.Evaluates G k RC RB) (hk : k.Sized)
    (hstaffed : m.strategy.Staffed) {rows : List (List Evaluation)} (hplan : plan.Runs rows)
    (hsound : ∀ x ∈ rows.flatten, x.Sound k) {debug : Bool} {J : List Nat → Sum C → Prop}
    (htakes : Takes G RC (answers rows) J (m.addFeature width debug))
    (hzero : (m.engine.publicZero width).Yields G fun zero => J [] ⟨zero, []⟩)
    (schedule : Schedule) :
    (m.sumFeatures plan width debug schedule).Yields G fun sum =>
      ∃ done, done.Perm (List.range rows.length) ∧ J done sum := by
  unfold sumFeatures
  apply (during_yields (m.strategy.encrypt_yields hE hk (hplan.codes_inside hsound)) _).bind
  intro encrypted henc
  refine during_yields ?_ _
  apply hzero.bind
  intro zero hstart
  exact Arrangement.fold_yields hE hplan hsound htakes _ hstaffed.workers schedule henc hstart

/-- All features of a plan end up in the sum. -/
theorem sumFeatures_yields (hE : m.engine.Implements G k RC RB) (hk : k.Roomy)
    (hstaffed : m.strategy.Staffed) (hplan : plan.Runs (encounterRows k.messageModulus encounters))
    (hsound : ∀ x ∈ (encounterRows k.messageModulus encounters).flatten, x.Sound k)
    (hcount : ∀ x ∈ encounters, x.1.count ≤ width) (debug : Bool) (schedule : Schedule) :
    (m.sumFeatures plan width debug schedule).Yields G fun sum =>
      ∃ done, done.Perm (List.range encounters.length) ∧
        Sums RC k width (encounterValues k.messageModulus encounters) debug done sum := by
  have count : (encounterRows k.messageModulus encounters).length = encounters.length := by
    simp [encounterRows]
  rw [← count]
  exact sumFeatures_keeps hE.toEvaluates hk.sized hstaffed hplan hsound
    (addFeature_takes hE hk hcount debug) (publicZero_sums hE width _ debug) schedule

/-- The trace shows the values of the features in their order, whatever order they came in. -/
theorem traceOf_yields (hE : m.engine.Implements G k RC RB) (hk : k.Roomy)
    (hplan : plan.featureCount = encounters.length) {done : List Nat}
    (hdone : done.Perm (List.range encounters.length)) {sum : Sum C}
    (hsum : Sums RC k width (encounterValues k.messageModulus encounters) true done sum) :
    (m.traceOf plan sum).Yields G fun trace =>
      trace = .ofValues k.messageModulus width
        (encounterValues k.messageModulus encounters) := by
  have count : (encounterValues k.messageModulus encounters).length = encounters.length := by
    simp [encounterValues]
  have shown : ((List.range plan.featureCount).map fun f => (sum.values.lookup f).getD 0) =
      encounterValues k.messageModulus encounters := by
    rw [hsum.values_eq, hplan, ← count]
    apply List.ext_getElem (by simp)
    intro f hf hf'
    have hmem : f ∈ done.reverse :=
      List.mem_reverse.2 (hdone.mem_iff.2 (List.mem_range.2 (count ▸ hf')))
    rw [List.getElem_map, List.getElem_range, if_pos rfl,
      List.lookup_graph (fun f => (encounterValues k.messageModulus encounters).getD f 0) hmem,
      Option.getD_some, List.getD_eq_getElem?_getD, List.getElem?_eq_getElem hf', Option.getD_some]
  unfold traceOf
  apply ((hE.decryptInteger hsum.total).yields rfl).bind
  intro total htotal
  refine Yields.done ?_
  rw [shown, htotal, ClearEngine.decryptInteger_ofInteger hk, sumAt_perm (count ▸ hdone)]
  rfl

/-- What an authentication of a template against a probe comes to: the truth value stands for
whether the sum of the values reaches the threshold, and the trace shows the values if it was asked
for. -/
structure Resolves (RC : C → ClearBlock → Prop) (compiled : EnrolledTemplate) (width : Nat)
    (values : List Int) (debug : Bool) (decision : SealedDecision C) : Prop where
  ciphertext : RC decision.ciphertext
    ⟨.large, if compiled.threshold ≤ values.sum % compiled.radix ^ width then 1 else 0⟩
  trace_eq : decision.trace? =
    if debug then some (.ofValues compiled.radix width values) else none

/-- The plan of a compatible template runs through evaluations that are sound, with no more digits
for a feature than the sum has. -/
theorem plan_runs (hk : k.Sized) {features : List EnrolledFeature}
    (hcompiled : compiled.Holds d width features) (hradix : compiled.radix = k.messageModulus)
    (hdomains : ∀ l ∈ compiled.lookups.flatten,
      ∃ size, l.codeCount = .ok size ∧ size ≤ k.totalModulus) {probe : List Int}
    (hplan : LookupPlan.build probe compiled = .ok plan) :
    plan.Runs (encounterRows k.messageModulus (features.zip probe)) ∧
      (∀ y ∈ (encounterRows k.messageModulus (features.zip probe)).flatten, y.Sound k) ∧
      (∀ x ∈ features.zip probe, x.1.count ≤ width) ∧
      plan.featureCount = (features.zip probe).length := by
  obtain ⟨_, hlays, hcovers⟩ := LookupPlan.build_eq_ok hplan
  have mem : ∀ x ∈ features.zip probe, x.1 ∈ features := fun x hx => (List.of_mem_zip hx).1
  rw [hcompiled.pairs] at hlays hcovers
  refine ⟨hcompiled.runs hplan _, ?_, ?_, ?_⟩
  · intro y hy
    obtain ⟨row, hrow, hy⟩ := List.mem_flatten.1 hy
    obtain ⟨x, hx, rfl⟩ := List.mem_map.1 hrow
    obtain ⟨rows, columns, hx'⟩ := hcompiled.sound x.1 (mem x hx)
    have radix : (d.radix : Int) = k.messageModulus := hcompiled.radix_eq.symm.trans hradix
    refine x.1.sound_evaluations hk hx' radix (hcovers _ (List.mem_map_of_mem hx)) ?_ y
      (radix ▸ hy)
    intro l hl
    refine hdomains l (List.mem_flatten.2 ⟨_, ?_, hl⟩)
    rw [← hcompiled.lookups_eq]
    exact List.mem_map_of_mem (mem x hx)
  · intro x hx
    obtain ⟨rows, columns, hx'⟩ := hcompiled.sound x.1 (mem x hx)
    exact hx'.count_le.trans hcompiled.blockCount_le
  · rw [hlays.featureCount_eq, List.length_map]

/-- An authentication whose inputs are admitted ends with what the sum, the comparison and the trace
make of it. -/
theorem authenticate_keeps (hbegin : ∀ s, G s (m.instruments.begin s))
    (htick : ∀ s, G s (m.instruments.tick s))
    (hcompatible : m.requireCompatible compiled = .ok ()) {probe : List Int}
    (hplan : LookupPlan.build probe compiled = .ok plan) {debug : Bool} {schedule : Schedule}
    {S : Sum C → Prop} {P : C → Prop} {T : Trace → Prop}
    (hsum : (m.sumFeatures plan compiled.sumWidth debug schedule).Yields G S)
    (hcompare : ∀ sum, S sum → (m.engine.atLeast sum.total compiled.threshold).Yields G P)
    (htrace : debug = true → ∀ sum, S sum → (m.traceOf plan sum).Yields G T) :
    (m.authenticate probe compiled debug schedule).Yields G fun decision =>
      P decision.ciphertext ∧
        if debug then ∃ trace, decision.trace? = some trace ∧ T trace
        else decision.trace? = none := by
  unfold authenticate readClock
  apply (Yields.act (Q := fun _ => True) hbegin trivial).bind
  intro _ _
  apply (Yields.ofExcept (Q := fun _ => True) hcompatible trivial).bind
  intro _ _
  apply (Yields.ofExcept (Q := fun p => p = plan) hplan rfl).bind
  intro _ hsame
  subst hsame
  apply (Yields.fetch (Q := fun _ => True) htick fun _ => trivial).bind
  intro started _
  apply hsum.bind
  intro sum hkept
  apply (during_yields (hcompare sum hkept) _).bind
  intro c hc
  apply (Yields.fetch (Q := fun _ => True) htick fun _ => trivial).bind
  intro stopped _
  cases debug with
  | true =>
      apply (htrace rfl sum hkept).bind
      intro trace htrace
      exact Yields.done ⟨hc, trace, rfl, htrace⟩
  | false => exact Yields.done ⟨hc, rfl⟩

theorem authenticate_yields (hE : m.engine.Implements G k RC RB) (hk : k.Roomy)
    (hbegin : ∀ s, G s (m.instruments.begin s)) (htick : ∀ s, G s (m.instruments.tick s))
    (hstaffed : m.strategy.Staffed) {features : List EnrolledFeature}
    (hcompiled : compiled.Holds d width features)
    (hcompatible : m.requireCompatible compiled = .ok ()) {probe : List Int}
    (hplan : LookupPlan.build probe compiled = .ok plan) (debug : Bool) (schedule : Schedule) :
    (m.authenticate probe compiled debug schedule).Yields G
      (Resolves RC compiled width (encounterValues compiled.radix (features.zip probe)) debug) := by
  obtain ⟨hradix, hdomains⟩ := requireCompatible_eq_ok hcompatible
  rw [hE.messageModulus_eq] at hradix
  rw [hE.totalModulus_eq] at hdomains
  obtain ⟨runs, sound, few, count⟩ := plan_runs hk.sized hcompiled hradix hdomains hplan
  have total : (encounterValues (k.messageModulus : Int) (features.zip probe)).length =
      (features.zip probe).length := by simp [encounterValues]
  have summed := sumFeatures_yields hE hk hstaffed runs sound few debug schedule
  rw [← hcompiled.sumWidth_eq] at summed
  refine (authenticate_keeps hbegin htick hcompatible hplan
    (P := fun c => RC c ⟨.large, if compiled.threshold ≤ (encounterValues k.messageModulus
      (features.zip probe)).sum % (k.messageModulus : Int) ^ width then 1 else 0⟩)
    (T := fun trace => trace = .ofValues k.messageModulus width
      (encounterValues k.messageModulus (features.zip probe))) summed ?_ ?_).mono ?_
  · rintro sum ⟨done, hdone, hsum⟩
    have reached := ClearEngine.atLeast_ofInteger hk width
      (sumAt (encounterValues k.messageModulus (features.zip probe)) done) compiled.threshold
    have compared := (hE.atLeast hsum.total compiled.threshold).yields reached
    rwa [sumAt_perm (total ▸ hdone)] at compared
  · rintro rfl sum ⟨done, hdone, hsum⟩
    exact traceOf_yields hE hk count hdone hsum
  · rintro decision ⟨hciphertext, htrace⟩
    refine ⟨by rw [hradix]; exact hciphertext, ?_⟩
    rw [hradix]
    cases debug with
    | true =>
        obtain ⟨trace, htrace, rfl⟩ := htrace
        exact htrace
    | false => exact htrace

/-- A decision with its truth value decrypted. -/
theorem decide_yields (hE : m.engine.Implements G k RC RB) (hk : k.Roomy)
    (hbegin : ∀ s, G s (m.instruments.begin s)) (htick : ∀ s, G s (m.instruments.tick s))
    (hstaffed : m.strategy.Staffed) {features : List EnrolledFeature}
    (hcompiled : compiled.Holds d width features)
    (hcompatible : m.requireCompatible compiled = .ok ()) {probe : List Int}
    (hplan : LookupPlan.build probe compiled = .ok plan) (debug : Bool) (schedule : Schedule) :
    (m.decide probe compiled debug schedule).Yields G fun x =>
      Resolves RC compiled width (encounterValues compiled.radix (features.zip probe)) debug x.1 ∧
      x.2 = Decidable.decide (compiled.threshold ≤
        (encounterValues compiled.radix (features.zip probe)).sum % compiled.radix ^ width) := by
  have settled := authenticate_yields hE hk hbegin htick hstaffed hcompiled hcompatible hplan debug
    schedule
  unfold Matcher.decide
  apply settled.bind
  intro decision hdecision
  apply ((hE.decryptTruth hdecision.ciphertext).yields rfl).bind
  intro accepted haccepted
  exact Yields.done ⟨hdecision, by rw [haccepted, ClearEngine.decryptTruth_bit hk]⟩

/-- A verification accepts if the sum of the values reaches the threshold, and reveals them if it
was asked to. -/
structure Concludes (compiled : EnrolledTemplate) (width : Nat) (values : List Int) (debug : Bool)
    (r : Verification) : Prop where
  status_eq : r.status =
    if compiled.threshold ≤ values.sum % compiled.radix ^ width then .accept else .reject
  trace_eq : r.trace? = if debug then some (.ofValues compiled.radix width values) else none

theorem verify_yields (hE : m.engine.Implements G k RC RB) (hk : k.Roomy)
    (hbegin : ∀ s, G s (m.instruments.begin s)) (htick : ∀ s, G s (m.instruments.tick s))
    (hstaffed : m.strategy.Staffed) {features : List EnrolledFeature}
    (hcompiled : compiled.Holds d width features)
    (hcompatible : m.requireCompatible compiled = .ok ()) {probe : List Int}
    (hplan : LookupPlan.build probe compiled = .ok plan) (stamp : Stamp) (datasetName : String)
    (debug : Bool) (schedule : Schedule) :
    (m.verify stamp probe compiled datasetName debug schedule).Yields G
      (Concludes compiled width (encounterValues compiled.radix (features.zip probe)) debug) := by
  have decided := decide_yields hE hk hbegin htick hstaffed hcompiled hcompatible hplan debug
    schedule
  unfold verify
  apply (Yields.attempt decided).bind
  intro r hr
  obtain ⟨⟨decision, accepted⟩, rfl, hdecision, haccepted⟩ := hr
  simp only at haccepted
  refine Yields.done ⟨?_, hdecision.trace_eq⟩
  unfold resultOf
  rw [haccepted]
  simp only [decide_eq_true_eq]

end Authentication

end Matcher

end SealedMatch
