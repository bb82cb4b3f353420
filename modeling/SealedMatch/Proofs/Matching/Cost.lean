/-
Module: SealedMatch.Proofs.Matching.Cost
Purpose: The exact cost of an authentication, by the digits of its template and by the order in
  which its features are added.
Trusted boundary: none
Main exports: Strategy.paidFeatures, EnrolledTemplate.refreshCount, Strategy.stream,
  Strategy.stream_charges, authenticate_cost
-/
import SealedMatch.Proofs.Matching.Arrivals
import SealedMatch.Proofs.Matching.Completion
import SealedMatch.Proofs.Matching.Concurrency

namespace SealedMatch

open Process hiding bind bind_assoc
open SimulatedEngine (Live)

/-! ### Closed forms -/

/-- How many features are added at a cost: those with digits, if tables are looked up on the host,
and all from the first one with digits on, if they are looked up on an accelerator. -/
def Strategy.paidFeatures (s : Strategy) (counts : List Nat) : Nat :=
  if s.lookupOn = .host then counts.countP (· != 0)
  else counts.length - counts.findIdx (· != 0)

/-- How many key switches, and how many bootstraps, an authentication takes that adds so many
features at a cost: one for each lookup, and two for each digit of the sum in every addition, and in
the comparison if the template does not decide it in advance. -/
def EnrolledTemplate.refreshCount (t : EnrolledTemplate) (paid : Nat) : Nat :=
  let width := t.sumWidth.toNat
  let compared :=
    if 0 < t.lookupCount ∧ 0 < t.threshold ∧ t.threshold < t.radix ^ width then 1 else 0
  t.lookupCount + 2 * width * paid + 2 * width * compared

theorem Strategy.looksUpOnHost_iff (s : Strategy) :
    s.arrangement.looksUpOnHost = true ↔ s.lookupOn = .host := by
  unfold Strategy.arrangement Arrangement.looksUpOnHost
  cases s.keyswitchOn with
  | host => cases s.lookupOn <;> simp
  | accelerator => cases s.lookupOn <;> simp

theorem Strategy.additions_eq (s : Strategy) (counts : List Nat) :
    s.arrangement.additions counts = s.paidFeatures counts := by
  unfold Arrangement.additions paidFeatures
  simp only [s.looksUpOnHost_iff]
  split
  · rw [List.countP_eq_length_filter]
  · rw [List.dropWhile_eq_drop_findIdx_not, List.length_drop]
    rfl

/-- Features are added at a cost if and only if there are lookups. -/
theorem Strategy.paidFeatures_ne_zero_iff (s : Strategy) (t : EnrolledTemplate) :
    s.paidFeatures t.digitCounts ≠ 0 ↔ 0 < t.lookupCount := by
  rw [← s.additions_eq, Ne, Arrangement.additions_eq_zero_iff, EnrolledTemplate.lookupCount,
    ← List.sum_eq_foldl, Nat.pos_iff_ne_zero, Ne, List.sum_eq_zero_iff_forall_eq_nat]

theorem Strategy.bill_eq_refreshes (s : Strategy) (t : EnrolledTemplate) :
    s.bill t = Bill.of .encrypt t.lookupCount +
      Bill.refreshes (t.refreshCount (s.paidFeatures t.digitCounts)) := by
  unfold Strategy.bill EnrolledTemplate.comparisons EnrolledTemplate.refreshCount
  simp only [s.additions_eq, s.paidFeatures_ne_zero_iff, Nat.mul_add, ← Nat.add_assoc]

/-! ### The order of the features -/

/-- The features with their digits, in the order in which a strategy hands them over. -/
def Strategy.stream (s : Strategy) (e : SimulatedEngine) (schedule : Schedule) (plan : LookupPlan) :
    Process Session Failure (List (Nat × List LweBlock)) := do
  let encrypted ← s.encrypt e.engine plan.codes
  s.arrangement.fold e.engine schedule plan encrypted LookupPlan.collect []

/-- The features handed over, the last one first, each with as many digits as it should have. -/
structure Streamed (counts : List Nat) (done : List Nat) (features : List (Nat × List LweBlock)) :
    Prop where
  names_eq : features.map Prod.fst = done.reverse
  sizes : ∀ x ∈ features, x.2.length = counts.getD x.1 0

theorem Streamed.push {counts done : List Nat} {features : List (Nat × List LweBlock)}
    (h : Streamed counts done features) {f : Nat} {cs : List LweBlock}
    (hcs : cs.length = counts.getD f 0) :
    Streamed counts (f :: done) (features ++ [(f, cs)]) := by
  refine ⟨by rw [List.map_append, h.names_eq, List.reverse_cons]; rfl, ?_⟩
  intro x hx
  rcases List.mem_append.1 hx with hx | hx
  · exact h.sizes x hx
  · obtain rfl := List.mem_singleton.1 hx
    exact hcs

/-- Features are paid for from the first one with digits on. -/
theorem Streamed.paid_eq {counts done : List Nat} {features : List (Nat × List LweBlock)}
    (h : Streamed counts done features) :
    (features.dropWhile (·.2.isEmpty)).length = chargedOf counts done := by
  unfold chargedOf
  rw [← h.names_eq]
  have sizes := h.sizes
  clear h
  induction features with
  | nil => rfl
  | cons x features ih =>
      have same : x.2.isEmpty = (counts.getD x.1 0 == 0) := by
        rw [← sizes x (by simp)]
        cases x.2 <;> rfl
      rw [List.dropWhile_cons, List.map_cons, List.dropWhile_cons, same]
      split
      · exact ih fun y hy => sizes y (List.mem_cons_of_mem x hy)
      · rw [List.length_cons, List.length_cons, List.length_map]

theorem collect_streamed {G : Session → Session → Prop} {R : LweBlock → ClearBlock → Prop}
    (rows : List (List ClearBlock)) :
    Takes G R rows (Streamed (rows.map List.length)) LookupPlan.collect := by
  intro done features f cs row hfeatures _ hrow hcs
  exact Yields.done (hfeatures.push (length_of_row hrow hcs))

/-! ### From the first step to the decision -/

section Authentication

variable {e : SimulatedEngine} {s : Strategy} {plan : LookupPlan} {compiled : EnrolledTemplate}
  {probe : List Int}

/-- Whatever the schedule, from the first feature with digits on there are as many features as are
paid for. -/
theorem Strategy.stream_charges {rows : List (List Evaluation)}
    (h : e.guard = SimulatedEngine.unguarded) (hplan : plan.Runs rows) (schedule : Schedule) :
    Charges (Bill.of .encrypt plan.lookupCount + Bill.refreshes plan.lookupCount)
      (fun stream => (stream.dropWhile (·.2.isEmpty)).length = s.paidFeatures plan.digitCounts)
      (s.stream e schedule plan) := by
  have absorbs : Absorbs Session.Counted (fun c (_ : ClearBlock) => Live c) (answers rows)
      (fun m done stream => m = 0 ∧ Streamed plan.digitCounts done stream) (fun _ => True)
      LookupPlan.collect := by
    rintro m done stream f cs row ⟨rfl, hstream⟩ _ hrow hcs
    show 0 = 0 ∧ Streamed plan.digitCounts (f :: done) (stream ++ [(f, cs)])
    refine ⟨rfl, hstream.push ?_⟩
    rw [length_of_row hrow hcs, hplan.digitCounts_eq]
  have encrypted := Strategy.encrypt_charges h (s := s) plan.codes
  rw [hplan.length_codes] at encrypted
  unfold Strategy.stream
  refine encrypted.bind fun encrypted hencrypted => ?_
  have folded := s.arrangement.fold_charges h hplan absorbs schedule hencrypted
    (show 0 = 0 ∧ Streamed plan.digitCounts [] [] from ⟨rfl, rfl, by simp⟩)
  rw [← add_zero (Bill.refreshes _)]
  refine folded.charges ?_
  rintro m stream ⟨done, _, hdone, rfl, streamed⟩
  exact ⟨rfl, by rw [streamed.paid_eq, hdone, s.additions_eq]⟩

/-- With workers on the host, a strategy hands over every feature once, with its digits. -/
theorem Strategy.stream_completes {d : DigitSystem} {width : Nat} {features : List EnrolledFeature}
    (h : e.Faithful 0) (hstaffed : s.Staffed) (hcompiled : compiled.Holds d width features)
    (hscreen : (e.matcher s).screen probe compiled = .ok plan) (schedule : Schedule) :
    (s.stream e schedule plan).Yields Session.Silent fun stream =>
      (stream.map Prod.fst).Perm (List.range compiled.featureCount) ∧
        ∀ x ∈ stream, x.2.length = compiled.digitCounts.getD x.1 0 := by
  obtain ⟨_, hcompatible, hplan⟩ := bind_eq_ok hscreen
  obtain ⟨sized, runs, sound, _, _⟩ :=
    SimulatedEngine.runs_of_compatible h hcompiled hcompatible hplan
  have counts : (answers (encounterRows e.messageModulus (features.zip probe))).map List.length =
      compiled.digitCounts := by
    rw [← runs.digitCounts_eq, counts_of_plan hplan]
  have count : (encounterRows e.messageModulus (features.zip probe)).length =
      compiled.featureCount := by
    have lengths := congrArg List.length counts
    unfold answers EnrolledTemplate.digitCounts at lengths
    rwa [List.length_map, List.length_map, List.length_map] at lengths
  have encrypted := Strategy.encrypt_yields h.evaluates sized s (runs.codes_inside sound)
  unfold Strategy.stream
  apply encrypted.bind
  intro encrypted hencrypted
  have folded := Arrangement.fold_yields h.evaluates runs sound (collect_streamed _)
    s.arrangement hstaffed.workers schedule hencrypted
    (⟨rfl, by simp⟩ : Streamed _ [] [])
  refine folded.mono ?_
  rintro stream ⟨done, perm, streamed⟩
  rw [counts] at streamed
  rw [count] at perm
  refine ⟨?_, streamed.sizes⟩
  rw [streamed.names_eq]
  exact (List.reverse_perm done).trans perm

theorem SimulatedEngine.guard_ofTape {p : LweParameters} {tape : Tape}
    {guard : EngineCall → SimulatedEngine.Action Unit}
    (he : SimulatedEngine.ofTape p tape guard = .ok e) : e.guard = guard := by
  unfold SimulatedEngine.ofTape at he
  split at he
  · cases he
  · obtain ⟨_, _, he⟩ := bind_eq_ok he
    cases he
    rfl

/-- An authentication that comes to a decision has encrypted a code for each lookup, and has
switched keys and bootstrapped so often as the digits of its template and the features paid for say.
These are the features that the strategy hands over from the first one with digits on. A probe that
is accepted comes to a decision, and all features are handed over, if the words of the engine have
room for its blocks and the host has workers. -/
theorem authenticate_cost {p : LweParameters} {tape : Tape}
    (he : SimulatedEngine.ofTape p tape SimulatedEngine.unguarded = .ok e)
    (hcompiled : compiled.Compiled) (s : Strategy) (probe : List Int) (debug : Bool)
    (schedule : Schedule) (session : Session) :
    (∀ decision after,
      ((e.matcher s).authenticate probe compiled debug schedule).run session =
        (.ok decision, after) →
      after.billed .encrypt = session.billed .encrypt + compiled.lookupCount ∧
      after.billed .keyswitch = session.billed .keyswitch +
        compiled.refreshCount (s.paidFeatures compiled.digitCounts) ∧
      after.billed .bootstrap = session.billed .bootstrap +
        compiled.refreshCount (s.paidFeatures compiled.digitCounts)) ∧
    ∀ plan, (e.matcher s).screen probe compiled = .ok plan →
      (∀ stream, ((s.stream e schedule plan).run session).1 = .ok stream →
        (stream.dropWhile (·.2.isEmpty)).length = s.paidFeatures compiled.digitCounts) ∧
      (p.messageBits + p.carryBits ≤ 31 → s.Staffed →
        (∃ decision,
          (((e.matcher s).authenticate probe compiled debug schedule).run session).1 =
            .ok decision) ∧
        ∃ stream, ((s.stream e schedule plan).run session).1 = .ok stream ∧
          (stream.map Prod.fst).Perm (List.range compiled.featureCount) ∧
          ∀ x ∈ stream, x.2.length = compiled.digitCounts.getD x.1 0) := by
  obtain ⟨d, width, features, holds⟩ := hcompiled.holds
  have unguarded := SimulatedEngine.guard_ofTape he
  refine ⟨?_, fun plan hscreen => ⟨?_, ?_⟩⟩
  · intro decision after hrun
    obtain ⟨m, moved, settled⟩ :=
      (authenticate_charges unguarded holds (s := s) probe debug schedule).spends.run_counted
        session
    rw [hrun] at moved settled
    obtain ⟨rfl, _⟩ := settled
    rw [s.bill_eq_refreshes] at moved
    rw [moved]
    simp [Bill.refreshes, Bill.of]
  · intro stream hstream
    obtain ⟨_, hcompatible, hplan⟩ := bind_eq_ok hscreen
    have charges := Strategy.stream_charges unguarded (holds.runs hplan compiled.radix) (s := s)
      schedule
    obtain ⟨m, _, settled⟩ := charges.spends.run_counted session
    rw [hstream, counts_of_plan hplan] at settled
    exact settled.2
  · intro hbits hstaffed
    have faithful := SimulatedEngine.faithful_of_bits he hbits
    obtain ⟨decision, hdecision, _⟩ :=
      (SimulatedEngine.authenticate_completes faithful hstaffed holds hscreen debug schedule).run
        session
    exact ⟨⟨decision, hdecision⟩,
      (Strategy.stream_completes faithful hstaffed holds hscreen schedule).run session⟩

open TemplateCompiler (samplePolicy sampleTables placed staffed_placed) in
/-- Four lookups, two features with digits, a sum of three digits, and a comparison. -/
theorem authenticate_cost_sample :
    SimulatedEngine.ofTape SimulatedEngine.smallest.parameters SimulatedEngine.smallest.tape
        SimulatedEngine.unguarded = .ok SimulatedEngine.smallest ∧
      ∃ compiled plan decision after, compiled.Compiled ∧
        (SimulatedEngine.smallest.matcher (placed .host)).screen [1, 2] compiled = .ok plan ∧
        ((SimulatedEngine.smallest.matcher (placed .host)).authenticate [1, 2] compiled true
          [1, 0]).run Session.start = (.ok decision, after) ∧
        after.billed .encrypt = 4 ∧ after.billed .keyswitch = 4 + 2 * 3 * 2 + 2 * 3 * 1 ∧
        after.billed .bootstrap = 4 + 2 * 3 * 2 + 2 * 3 * 1 := by
  have built : SimulatedEngine.ofTape SimulatedEngine.smallest.parameters
      SimulatedEngine.smallest.tape SimulatedEngine.unguarded = .ok SimulatedEngine.smallest := rfl
  have accepted : (do
      let c ← TemplateCompiler.ofTables samplePolicy sampleTables
      let compiled ← c.compile [0, 1] true
      let _ ← (SimulatedEngine.smallest.matcher (placed .host)).screen [1, 2] compiled
      pure (compiled.lookupCount,
        compiled.refreshCount ((placed .host).paidFeatures compiled.digitCounts))).toOption =
          some (4, 22) := by
    decide +kernel
  obtain ⟨c, hc, accepted⟩ := bind_eq_ok (toOption_eq_some accepted)
  obtain ⟨compiled, hcompile, accepted⟩ := bind_eq_ok accepted
  obtain ⟨plan, hscreen, accepted⟩ := bind_eq_ok accepted
  have amounts := Except.ok.inj accepted
  have made : compiled.Compiled := ⟨_, _, c, _, _, hc, hcompile⟩
  obtain ⟨cost, completes⟩ :=
    authenticate_cost built made (placed .host) [1, 2] true [1, 0] Session.start
  obtain ⟨⟨decision, hdecision⟩, _⟩ :=
    (completes plan hscreen).2 (by decide) (staffed_placed .host)
  obtain ⟨encrypted, switched, bootstrapped⟩ := cost decision _ (Prod.ext hdecision rfl)
  rw [(Prod.mk.inj amounts).1] at encrypted
  rw [(Prod.mk.inj amounts).2] at switched bootstrapped
  exact ⟨built, compiled, plan, decision, _, made, hscreen, Prod.ext hdecision rfl, encrypted,
    switched, bootstrapped⟩

end Authentication

end SealedMatch
