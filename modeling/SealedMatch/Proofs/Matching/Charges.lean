/-
Module: SealedMatch.Proofs.Matching.Charges
Purpose: What an authentication counts depends on its strategy and its template alone.
Trusted boundary: none
Main exports: Arrangement.additions, Strategy.bill, Arrangement.fold_charges, addFeature_absorbs,
  sumFeatures_charges, authenticate_charges
-/
import Mathlib.Algebra.BigOperators.Group.List.Basic
import Mathlib.Data.List.TakeWhile
import SealedMatch.Matching.Provision
import SealedMatch.Proofs.Engine.Charges
import SealedMatch.Proofs.Matching.Decision

namespace SealedMatch

open Process hiding bind bind_assoc
open SimulatedEngine (Live Filled PublicInteger LiveInteger LeadsLive)

/-! ### Which additions are counted

As long as only features without digits have been taken, the total is a public zero, and adding
another one is free. Every addition from the first digits on is counted. -/

/-- How many of the features taken, the last one first, have been added at a cost. -/
def chargedOf (counts : List Nat) (done : List Nat) : Nat :=
  (done.reverse.dropWhile fun f => counts.getD f 0 == 0).length

/-- Another feature is added at a cost, unless neither it nor any before it has digits. -/
theorem chargedOf_cons (counts : List Nat) (f : Nat) (done : List Nat) :
    chargedOf counts (f :: done) =
      if chargedOf counts done = 0 ∧ counts.getD f 0 = 0 then 0 else chargedOf counts done + 1 := by
  unfold chargedOf
  rw [List.reverse_cons, List.dropWhile_append]
  cases done.reverse.dropWhile fun f => counts.getD f 0 == 0 with
  | nil =>
      have single : ([f].dropWhile fun f => counts.getD f 0 == 0).length =
          if counts.getD f 0 = 0 then 0 else 1 := by
        by_cases hf : counts.getD f 0 = 0
        · rw [List.dropWhile_cons_of_pos (by rw [hf]; rfl), if_pos hf]
          rfl
        · rw [List.dropWhile_cons_of_neg (by rw [beq_iff_eq]; exact hf), if_neg hf]
          rfl
      simpa using single
  | cons g rest => simp

/-- As long as no feature has digits, all additions are free. -/
theorem chargedOf_eq_zero {counts done : List Nat} (h : ∀ f ∈ done, counts.getD f 0 = 0) :
    chargedOf counts done = 0 := by
  unfold chargedOf
  rw [List.length_eq_zero_iff, List.dropWhile_eq_nil_iff]
  intro f hf
  rw [h f (List.mem_reverse.1 hf)]
  rfl

/-- A feature has as many digits as its row. -/
theorem length_of_row {C γ : Type} {R : C → γ → Prop} {rows : List (List γ)} {f : Nat}
    {row : List γ} {cs : List C} (hrow : rows[f]? = some row) (hcs : List.Forall₂ R cs row) :
    cs.length = (rows.map List.length).getD f 0 := by
  rw [List.getD_eq_getElem?_getD, List.getElem?_map, hrow, hcs.length_eq]
  rfl

namespace Arrangement

/-- Tables are evaluated by the workers of the host, one by one. -/
def looksUpOnHost : Arrangement → Bool
  | .host _ => true
  | .accelerator => false
  | .mixed keyswitchOn _ _ => keyswitchOn = .accelerator

/-- How many additions are counted for features of so many digits. Workers of the host start with
the features that have none; an accelerator takes all features in their order. -/
def additions (a : Arrangement) (counts : List Nat) : Nat :=
  if a.looksUpOnHost then (counts.filter (· != 0)).length
  else (counts.dropWhile (· == 0)).length

end Arrangement

/-- In the order of the features, the leading ones without digits are free. -/
theorem chargedOf_range (counts : List Nat) :
    chargedOf counts (List.range counts.length).reverse =
      (counts.dropWhile (· == 0)).length := by
  unfold chargedOf
  rw [List.reverse_reverse]
  conv_rhs => rw [← map_getD_range counts 0, List.dropWhile_map, List.length_map]
  rfl

/-- After features without digits, all others are added at a cost. -/
theorem chargedOf_append {counts late early : List Nat} (hearly : ∀ f ∈ early, counts.getD f 0 = 0)
    (hlate : ∀ f ∈ late, counts.getD f 0 ≠ 0) :
    chargedOf counts (late ++ early) = late.length := by
  have free : ∀ f ∈ early.reverse, (counts.getD f 0 == 0) = true :=
    fun f hf => beq_iff_eq.2 (hearly f (List.mem_reverse.1 hf))
  have size : late.reverse.length = late.length := List.length_reverse
  unfold chargedOf
  rw [List.reverse_append, List.dropWhile_append_of_pos free, ← size]
  cases hreverse : late.reverse with
  | nil => rfl
  | cons f rest =>
      have here := hlate f (List.mem_reverse.1 (hreverse ▸ List.mem_cons_self))
      rw [List.dropWhile_cons_of_neg (by rw [beq_iff_eq]; exact here)]

/-- With the features without digits first, exactly the others are added at a cost. -/
theorem chargedOf_digits_last {counts empties done : List Nat}
    (hempties : ∀ f, f ∈ empties ↔ counts[f]? = some 0)
    (perm : done.Perm (List.range counts.length)) (hearly : empties.reverse <:+ done) :
    chargedOf counts done = (counts.filter (· != 0)).length := by
  obtain ⟨late, rfl⟩ := hearly
  have apart := List.nodup_append.1 (perm.nodup_iff.2 List.nodup_range)
  have early : ∀ f ∈ empties.reverse, counts.getD f 0 = 0 := by
    intro f hf
    rw [List.getD_eq_getElem?_getD, (hempties f).1 (List.mem_reverse.1 hf)]
    rfl
  have inside : ∀ f ∈ late, f < counts.length :=
    fun f hf => List.mem_range.1 (perm.subset (List.mem_append_left _ hf))
  have paid : ∀ f ∈ late, counts.getD f 0 ≠ 0 := by
    intro f hf hzero
    rw [List.getD_eq_getElem?_getD, List.getElem?_eq_getElem (inside f hf),
      Option.getD_some] at hzero
    have free := (hempties f).2 (by rw [List.getElem?_eq_getElem (inside f hf), hzero])
    exact apart.2.2 f hf f (List.mem_reverse.2 free) rfl
  -- filtering keeps all of `late` and nothing of the features before it
  have filtered : late.Perm ((List.range counts.length).filter fun f => counts.getD f 0 != 0) := by
    have all := perm.filter fun f => counts.getD f 0 != 0
    rwa [List.filter_append, List.filter_eq_self.2 (fun f hf => bne_iff_ne.2 (paid f hf)),
      List.filter_eq_nil_iff.2 (fun f hf => by rw [early f hf]; decide), List.append_nil] at all
  rw [chargedOf_append early paid, filtered.length_eq]
  conv_rhs => rw [← map_getD_range counts 0, List.filter_map, List.length_map]
  rfl

/-- Where no feature has digits, no addition is counted. -/
theorem Arrangement.additions_eq_zero_iff {a : Arrangement} {counts : List Nat} :
    a.additions counts = 0 ↔ ∀ n ∈ counts, n = 0 := by
  unfold additions
  cases a.looksUpOnHost with
  | true => simp
  | false => simp [List.dropWhile_eq_nil_iff]

/-! ### Plans -/

section Plans

variable {plan : LookupPlan} {rows : List (List Evaluation)}

theorem LookupPlan.Runs.digitCounts_eq (hplan : plan.Runs rows) :
    plan.digitCounts = (answers rows).map List.length :=
  hplan.numbers.digitCounts_eq

theorem LookupPlan.Runs.length_lookups (hplan : plan.Runs rows) :
    plan.lookups.length = (answers rows).flatten.length := by
  rw [hplan.lookups_eq, flatten_answers, List.length_map, List.length_map]

theorem LookupPlan.Runs.length_codes (hplan : plan.Runs rows) :
    plan.codes.length = plan.lookupCount := by
  unfold LookupPlan.lookupCount
  rw [hplan.codes_eq, hplan.lookups_eq, List.length_map, List.length_map]

/-- A plan has the lookups of its template. -/
theorem counts_of_plan {compiled : EnrolledTemplate} {probe : List Int}
    (hplan : LookupPlan.build probe compiled = .ok plan) :
    plan.digitCounts = compiled.digitCounts := by
  obtain ⟨size, hlays, _⟩ := LookupPlan.build_eq_ok hplan
  have rows : (probe.zip compiled.lookups).map Prod.snd = compiled.lookups :=
    List.map_snd_zip size.ge
  unfold EnrolledTemplate.digitCounts
  rw [hlays.digitCounts_eq, ← congrArg (List.map List.length) rows, List.map_map]
  rfl

theorem LookupPlan.Runs.lookupCount_eq (hplan : plan.Runs rows) {compiled : EnrolledTemplate}
    (counts : plan.digitCounts = compiled.digitCounts) :
    plan.lookupCount = compiled.lookupCount := by
  rw [EnrolledTemplate.lookupCount, ← List.sum_eq_foldl, ← counts, hplan.digitCounts_eq,
    ← List.length_flatten, ← hplan.length_lookups]
  rfl

end Plans

/-! ### Features in the order of their additions -/

/-- All features have been received, in an order for which so many additions are counted. -/
def Received {β : Type} (J : Bill → List Nat → β → Prop) (counts : List Nat) (additions : Nat)
    (m : Bill) (b : β) : Prop :=
  ∃ done, done.Perm (List.range counts.length) ∧ chargedOf counts done = additions ∧ J m done b

section Folds

variable {β : Type} {plan : LookupPlan} {rows : List (List Evaluation)}
  {J : Bill → List Nat → β → Prop}
  {receive : β → Nat × List LweBlock → Process Session Failure β}

/-- Features cut from the outputs of a batch come in their order. -/
theorem cutOutputs_charges (hplan : plan.Runs rows)
    (habsorbs : Absorbs Session.Counted (fun c (_ : ClearBlock) => Live c) (answers rows) J
      (fun _ => True) receive) {outputs : List LweBlock}
    (hlength : outputs.length = plan.lookupCount) (hlive : ∀ c ∈ outputs, Live c) {b : β}
    (hb : J 0 [] b) :
    ChargesBeside 0
      (Received J plan.digitCounts (Arrangement.accelerator.additions plan.digitCounts))
      (foldFeatures receive b (plan.cutOutputs outputs)) := by
  have related : List.Forall₂ (fun c (_ : ClearBlock) => Live c) outputs
      (answers rows).flatten := by
    refine List.forall₂_iff_get.2 ⟨hlength.trans hplan.length_lookups, fun i hi hi' => ?_⟩
    exact hlive _ (List.get_mem _ _)
  have count : (answers rows).length = plan.digitCounts.length := by
    rw [hplan.digitCounts_eq, List.length_map]
  have folded := foldFeatures_cutOutputs_spends habsorbs hplan.cutOutputs_eq related hb
  refine ⟨folded.mono fun m r hr => ?_⟩
  cases r with
  | error e => trivial
  | ok b =>
      exact ⟨m, (zero_add m).symm, _, count ▸ List.reverse_perm _, count ▸ chargedOf_range _, hr⟩

/-- Without lookups there is nothing to evaluate, and every addition is free. -/
theorem foldNothing_charges (a : Arrangement) (hplan : plan.Runs rows)
    (habsorbs : Absorbs Session.Counted (fun c (_ : ClearBlock) => Live c) (answers rows) J
      (fun _ => True) receive) (hnone : plan.lookupCount = 0) {b : β} (hb : J 0 [] b) :
    ChargesBeside (Bill.refreshes plan.lookupCount)
      (Received J plan.digitCounts (a.additions plan.digitCounts))
      (foldFeatures receive b (plan.cutOutputs [])) := by
  have empty : ∀ n ∈ plan.digitCounts, n = 0 := by
    have sum : plan.digitCounts.sum = 0 := by
      rw [hplan.digitCounts_eq, ← List.length_flatten, ← hplan.length_lookups]
      exact hnone
    exact List.sum_eq_zero_iff_forall_eq_nat.1 sum
  have folded := cutOutputs_charges hplan habsorbs
    (show ([] : List LweBlock).length = plan.lookupCount from hnone.symm) (by simp) hb
  rw [hnone, Bill.refreshes_zero, Arrangement.additions_eq_zero_iff.2 empty]
  rwa [Arrangement.additions_eq_zero_iff.2 empty] at folded

theorem requireWorkers_charges (workers? : Option Int) :
    Charges 0 (fun _ => True) (requireWorkers workers?) := by
  unfold requireWorkers
  split
  · exact .fail _
  · split
    · exact .done trivial
    · exact .fail _

/-- On the host, every position has a task, and features without digits come first. -/
theorem foldOnHost_charges (hplan : plan.Runs rows)
    (habsorbs : Absorbs Session.Counted (fun c (_ : ClearBlock) => Live c) (answers rows) J
      (fun _ => True) receive) (schedule : Schedule) (workers? : Option Int) {bill : Bill}
    {task : LweBlock → DigitLookup → Process Session Failure LweBlock}
    (htask : ∀ c lookup, Charges bill Live (task c lookup)) {cs : List LweBlock}
    (hcs : cs.length = plan.lookupCount) {b : β} (hb : J 0 [] b) :
    ChargesBeside (plan.lookupCount • bill)
      (Received J plan.digitCounts (plan.digitCounts.filter (· != 0)).length)
      (foldOnHost plan schedule workers? task cs receive b) := by
  have tasks : List.Forall₂ (fun (x : LweBlock × DigitLookup) (_ : ClearBlock) =>
      (task x.1 x.2).Spends Session.Counted
        (fun m => Settles (fun c => m = bill ∧ Live c) fun _ => True) 0)
      (cs.zip plan.lookups) (answers rows).flatten := by
    refine List.forall₂_iff_get.2 ⟨?_, fun i hi hi' => (htask _ _).spends⟩
    rw [List.length_zip, hcs, ← hplan.length_lookups]
    exact Nat.min_self _
  have count : (answers rows).length = plan.digitCounts.length := by
    rw [hplan.digitCounts_eq, List.length_map]
  refine ⟨(foldOnHost_spends hplan.numbers habsorbs schedule (fun _ _ => trivial) hcs tasks
    hb).mono fun m r hr => ?_⟩
  cases r with
  | error e => trivial
  | ok b =>
      obtain ⟨m', done, rfl, perm, hearly, hJ⟩ := hr
      refine ⟨m', ?_, done, count ▸ perm, ?_, hJ⟩
      · rw [← hplan.length_lookups, add_comm]
        rfl
      · exact chargedOf_digits_last (fun f => LookupPlan.mem_emptyFeatures) (count ▸ perm) hearly

end Folds

/-! ### Bills -/

/-- Ciphertexts of so many codes. -/
inductive Encrypted.Counts (n : Nat) : Encrypted LweBlock LweBatch → Prop where
  | singles {cs : List LweBlock} (h : cs.length = n) : Counts n (.singles cs)
  | batch {b : LweBatch} (h : Filled n b) : Counts n (.batch b)

/-- The total while features are taken: public until the first digits have been added, and paid for
from then on, two tables a digit. -/
structure Running (width : Nat) (counts : List Nat) (m : Bill) (done : List Nat)
    (sum : Matcher.Sum LweBlock) : Prop where
  bill_eq : m = Bill.refreshes (2 * width * chargedOf counts done)
  total : if chargedOf counts done = 0 then PublicInteger width sum.total
    else LiveInteger width sum.total

theorem Running.start {width : Nat} (counts : List Nat) {zero : RadixInteger LweBlock}
    (hzero : PublicInteger width zero) : Running width counts 0 [] ⟨zero, []⟩ :=
  ⟨by rw [show chargedOf counts [] = 0 from rfl, Nat.mul_zero, Bill.refreshes_zero], hzero⟩

/-- How many comparisons are counted: none with a public total, and none with a threshold that no
sum or every sum reaches. -/
def EnrolledTemplate.comparisons (t : EnrolledTemplate) (additions : Nat) : Nat :=
  if additions ≠ 0 ∧ 0 < t.threshold ∧ t.threshold < t.radix ^ t.sumWidth.toNat then 1 else 0

/-- What an authentication counts: its codes are encrypted, each of their tables is a key switch and
a bootstrap, and so are two tables a digit of the sum for every addition and comparison that is not
free. -/
def Strategy.bill (s : Strategy) (t : EnrolledTemplate) : Bill :=
  let additions := s.arrangement.additions t.digitCounts
  Bill.of .encrypt t.lookupCount +
    Bill.refreshes (t.lookupCount + 2 * t.sumWidth.toNat * (additions + t.comparisons additions))

theorem Strategy.bill_eq (s : Strategy) (t : EnrolledTemplate) :
    s.bill t =
      Bill.of .encrypt t.lookupCount + (Bill.refreshes t.lookupCount +
        Bill.refreshes (2 * t.sumWidth.toNat * s.arrangement.additions t.digitCounts)) +
      Bill.refreshes (2 * t.sumWidth.toNat *
        t.comparisons (s.arrangement.additions t.digitCounts)) := by
  unfold bill
  simp only
  rw [add_assoc, add_assoc, ← Bill.refreshes_add, ← Bill.refreshes_add, ← Nat.mul_add]

section Authentication

variable {e : SimulatedEngine} {s : Strategy}

theorem readClock_charges : Charges 0 (fun _ => True) (e.matcher s).readClock := by
  refine .fetch (fun session => ?_) fun _ => trivial
  rfl

variable (h : e.guard = SimulatedEngine.unguarded)

include h

/-! ### Encrypted codes -/

theorem encryptSingly_charges (codes : List Int) :
    Charges (Bill.of .encrypt codes.length) (fun cs => cs.length = codes.length)
      (Strategy.encryptSingly e.engine codes) := by
  induction codes with
  | nil =>
      rw [List.length_nil, Bill.of_zero]
      exact .done rfl
  | cons code rest ih =>
      rw [List.length_cons, Nat.add_comm, Bill.of_add]
      unfold Strategy.encryptSingly
      refine (SimulatedEngine.encrypt_charges h code).bind fun c _ => ?_
      exact ih.bind_free fun cs hcs => .done (by rw [List.length_cons, hcs, Nat.add_comm])

theorem Strategy.encrypt_charges (codes : List Int) :
    Charges (Bill.of .encrypt codes.length) (Encrypted.Counts codes.length)
      (s.encrypt e.engine codes) := by
  unfold Strategy.encrypt
  cases s.encryptOn with
  | accelerator =>
      exact (SimulatedEngine.encryptAll_charges h codes).bind_free fun b hb => .done (.batch hb)
  | host => exact (encryptSingly_charges h codes).bind_free fun cs hcs => .done (.singles hcs)

theorem Encrypted.onHost_charges {n : Nat} {encrypted : Encrypted LweBlock LweBatch}
    (hn : encrypted.Counts n) : Charges 0 (·.length = n) (encrypted.onHost e.engine) := by
  cases hn with
  | singles hcs => exact .done hcs
  | batch hb => exact (SimulatedEngine.download_charges h hb).mono fun cs hcs => hcs.1

theorem Encrypted.onAccelerator_charges {n : Nat} {encrypted : Encrypted LweBlock LweBatch}
    (hn : encrypted.Counts n) : Charges 0 (Filled n) (encrypted.onAccelerator e.engine) := by
  cases hn with
  | singles hcs =>
      have uploaded := SimulatedEngine.upload_charges h ‹_›
      rwa [hcs] at uploaded
  | batch hb => exact .done hb

/-! ### Arrangements -/

section Folds

variable {β : Type} {plan : LookupPlan} {rows : List (List Evaluation)}
  {J : Bill → List Nat → β → Prop}
  {receive : β → Nat × List LweBlock → Process Session Failure β}

/-- The tables of a batch are evaluated at once. -/
theorem evaluateBatch_charges (hplan : plan.Runs rows)
    (habsorbs : Absorbs Session.Counted (fun c (_ : ClearBlock) => Live c) (answers rows) J
      (fun _ => True) receive) {batch : LweBatch} (hbatch : Filled plan.lookupCount batch) {b : β}
    (hb : J 0 [] b) :
    ChargesBeside (Bill.of .bootstrap plan.lookupCount)
      (Received J plan.digitCounts (Arrangement.accelerator.additions plan.digitCounts))
      (do
        let evaluated ← e.engine.bootstrapAll batch plan.lookups
        let outputs ← e.engine.download evaluated
        foldFeatures receive b (plan.cutOutputs outputs)) := by
  rw [← add_zero (Bill.of _ _)]
  refine .bind (SimulatedEngine.bootstrapAll_charges h hbatch plan.lookups)
    fun evaluated hevaluated => ?_
  refine .free_bind (SimulatedEngine.download_charges h hevaluated) fun outputs houtputs => ?_
  exact cutOutputs_charges hplan habsorbs houtputs.1 houtputs.2 hb

/-- Wherever the steps run and under every schedule, folding counts a key switch and a bootstrap for
every lookup, beside what the receiving step counts. -/
theorem Arrangement.fold_charges (hplan : plan.Runs rows)
    (habsorbs : Absorbs Session.Counted (fun c (_ : ClearBlock) => Live c) (answers rows) J
      (fun _ => True) receive) (a : Arrangement) (schedule : Schedule)
    {encrypted : Encrypted LweBlock LweBatch} (hencrypted : encrypted.Counts plan.lookupCount)
    {b : β} (hb : J 0 [] b) :
    ChargesBeside (Bill.refreshes plan.lookupCount)
      (Received J plan.digitCounts (a.additions plan.digitCounts))
      (a.fold e.engine schedule plan encrypted receive b) := by
  cases a with
  | host workers? =>
      rw [← Bill.nsmul_refreshes]
      refine .free_bind (encrypted.onHost_charges h hencrypted) fun cs hcs => ?_
      exact foldOnHost_charges hplan habsorbs schedule workers?
        (SimulatedEngine.evaluateTable_charges h) hcs hb
  | accelerator =>
      unfold Arrangement.fold
      simp only
      split
      · rename_i hnone
        exact foldNothing_charges _ hplan habsorbs hnone hb
      · refine .free_bind (encrypted.onAccelerator_charges h hencrypted) fun batch hbatch => ?_
        refine .bind (SimulatedEngine.keyswitchAll_charges h hbatch) fun switched hswitched => ?_
        exact evaluateBatch_charges h hplan habsorbs hswitched hb
  | mixed keyswitchOn lookupOn workers? =>
      unfold Arrangement.fold
      simp only
      split
      · rename_i hnone
        exact foldNothing_charges _ hplan habsorbs hnone hb
      · cases keyswitchOn with
        | accelerator =>
            refine .free_bind (encrypted.onAccelerator_charges h hencrypted) fun batch hbatch => ?_
            refine .bind (SimulatedEngine.keyswitchAll_charges h hbatch)
              fun switched hswitched => ?_
            refine .free_bind (SimulatedEngine.download_charges h hswitched) fun cs hcs => ?_
            rw [← Bill.nsmul_of .bootstrap]
            exact foldOnHost_charges hplan habsorbs schedule workers?
              (SimulatedEngine.bootstrap_charges h) hcs.1 hb
        | host =>
            refine .free_bind (encrypted.onHost_charges h hencrypted) fun cs hcs => ?_
            refine .free_bind (requireWorkers_charges workers?) fun _ _ => ?_
            have each : ∀ p ∈ cs.map e.keyswitch, Charges (Bill.of .keyswitch 1) Live p := by
              intro p hp
              obtain ⟨c, _, rfl⟩ := List.mem_map.1 hp
              exact SimulatedEngine.keyswitch_charges h c
            have switches := Charges.interleave each schedule
            rw [List.length_map, hcs, Bill.nsmul_of] at switches
            -- the bill is known of the switches together with what gathers their results
            have regrouped := ChargesBeside.bind switches fun switched hswitched =>
              ChargesBeside.free_bind (SimulatedEngine.upload_charges h switched)
                fun batch hbatch => evaluateBatch_charges h hplan habsorbs
                  (hswitched.1 ▸ hbatch) hb
            rwa [Process.bind_assoc] at regrouped

end Folds

/-! ### Sums -/

/-- A feature is added at the cost of the addition. -/
theorem addFeature_charges (width : Int) (debug : Bool) (sum : Matcher.Sum LweBlock) (f : Nat)
    {cs : List LweBlock} {bill : Bill} {P : RadixInteger LweBlock → Prop}
    (hadd : ∀ value : RadixInteger LweBlock, value.blocks.length = width.toNat →
      ∀ zeros, (∀ c ∈ zeros, c.trivial = true) → value.blocks = cs ++ zeros →
        Charges bill P (e.add sum.total value)) :
    Charges bill (fun sum => P sum.total)
      ((e.matcher s).addFeature width debug sum (f, cs)) := by
  unfold Matcher.addFeature Matcher.during
  refine .mapError ?_ _
  refine .free_bind (SimulatedEngine.widen_charges h ⟨cs⟩ width) fun value hvalue => ?_
  obtain ⟨hlength, zeros, hzeros, hblocks⟩ := hvalue
  have added := hadd value hlength zeros hzeros hblocks
  cases debug with
  | true =>
      refine .free_bind (SimulatedEngine.decryptInteger_charges h value) fun score _ => ?_
      exact added.bind_free fun total htotal => .done htotal
  | false => exact added.bind_free fun total htotal => .done htotal

/-- Nothing is added to a public total for nothing. -/
theorem addFeature_free (width : Int) (debug : Bool) {sum : Matcher.Sum LweBlock}
    (htotal : PublicInteger width.toNat sum.total) (f : Nat) :
    Charges 0 (fun sum => PublicInteger width.toNat sum.total)
      ((e.matcher s).addFeature width debug sum (f, [])) :=
  addFeature_charges h width debug sum f fun _ hlength _ hzeros hblocks =>
    SimulatedEngine.add_public h htotal ⟨hlength, fun c hc => hzeros c (by rwa [hblocks] at hc)⟩

/-- Digits, or anything added to a total that is not public, are paid for. -/
theorem addFeature_paid (width : Int) (debug : Bool) {sum : Matcher.Sum LweBlock}
    (htotal : sum.total.blocks.length = width.toNat) (f : Nat) {cs : List LweBlock}
    (hlive : LeadsLive sum.total ∨ cs ≠ [] ∧ ∀ c ∈ cs, Live c) :
    Charges (Bill.refreshes (2 * width.toNat)) (fun sum => LiveInteger width.toNat sum.total)
      ((e.matcher s).addFeature width debug sum (f, cs)) := by
  refine addFeature_charges h width debug sum f fun value hlength zeros _ hblocks => ?_
  refine SimulatedEngine.add_live h htotal hlength (hlive.imp_right ?_)
  rintro ⟨hne, hcs⟩ c hc
  cases cs with
  | nil => exact absurd rfl hne
  | cons c' cs =>
      rw [hblocks] at hc
      cases hc
      exact hcs _ (by simp)

/-- Adding a feature keeps count of what has been paid for. -/
theorem addFeature_absorbs {γ : Type} (rows : List (List γ)) (width : Int) (debug : Bool) :
    Absorbs Session.Counted (fun c (_ : γ) => Live c) rows
      (Running width.toNat (rows.map List.length)) (fun _ => True)
      ((e.matcher s).addFeature width debug) := by
  rintro m done sum f cs row ⟨rfl, htotal⟩ _ hrow hcs
  have count := (length_of_row hrow hcs).symm
  have live : ∀ c ∈ cs, Live c := by
    intro c hc
    obtain ⟨i, hi, rfl⟩ := List.getElem_of_mem hc
    exact (List.forall₂_iff_get.1 hcs).2 i hi (hcs.length_eq ▸ hi)
  have charged := chargedOf_cons (rows.map List.length) f done
  rw [count] at charged
  -- a feature is free as long as neither it nor one before it has digits
  by_cases hfree : chargedOf (rows.map List.length) done = 0 ∧ cs.length = 0
  · obtain ⟨hpublic, hnone⟩ := hfree
    rw [if_pos ⟨hpublic, hnone⟩] at charged
    rw [if_pos hpublic] at htotal
    rw [List.length_eq_zero_iff.1 hnone]
    refine ((addFeature_free h width debug htotal f).after _).mono fun m r hr => ?_
    cases r with
    | error e => trivial
    | ok sum =>
        refine ⟨by rw [hr.1, hpublic, charged, add_zero], ?_⟩
        rw [if_pos charged]
        exact hr.2
  · rw [if_neg hfree] at charged
    have size : sum.total.blocks.length = width.toNat := by
      split at htotal
      · exact htotal.length_eq
      · exact htotal.length_eq
    have leads : LeadsLive sum.total ∨ cs ≠ [] ∧ ∀ c ∈ cs, Live c := by
      by_cases hpublic : chargedOf (rows.map List.length) done = 0
      · exact Or.inr ⟨fun hnil => hfree ⟨hpublic, by rw [hnil]; rfl⟩, live⟩
      · rw [if_neg hpublic] at htotal
        exact Or.inl htotal.leads
    refine ((addFeature_paid h width debug size f leads).after _).mono fun m r hr => ?_
    cases r with
    | error e => trivial
    | ok sum =>
        refine ⟨by rw [hr.1, ← Bill.refreshes_add, charged, Nat.mul_succ], ?_⟩
        rw [if_neg (by omega)]
        exact hr.2

/-- What a sum has come to when all features are in it. -/
theorem sumFeatures_charges {plan : LookupPlan} {rows : List (List Evaluation)}
    (hplan : plan.Runs rows) (width : Int) (debug : Bool) (schedule : Schedule) :
    Charges
      (Bill.of .encrypt plan.lookupCount + (Bill.refreshes plan.lookupCount +
        Bill.refreshes (2 * width.toNat * s.arrangement.additions plan.digitCounts)))
      (fun sum => if s.arrangement.additions plan.digitCounts = 0
        then PublicInteger width.toNat sum.total else LiveInteger width.toNat sum.total)
      ((e.matcher s).sumFeatures plan width debug schedule) := by
  unfold Matcher.sumFeatures Matcher.during
  have encrypted := Strategy.encrypt_charges h (s := s) plan.codes
  rw [hplan.length_codes] at encrypted
  refine (Charges.mapError encrypted _).bind fun encrypted hencrypted => ?_
  refine Charges.mapError ?_ _
  refine .free_bind (SimulatedEngine.publicZero_charges h width) fun zero hzero => ?_
  have absorbs := addFeature_absorbs h (s := s) (answers rows) width debug
  rw [← hplan.digitCounts_eq] at absorbs
  refine (s.arrangement.fold_charges h hplan absorbs schedule hencrypted
    (Running.start plan.digitCounts hzero)).charges ?_
  rintro m sum ⟨done, _, hdone, running⟩
  rw [← hdone]
  exact ⟨running.bill_eq, running.total⟩

/-! ### Authentications -/

/-- A comparison is counted if neither the total nor the threshold decides it in advance. -/
theorem compare_charges {t : EnrolledTemplate} (radix : t.radix = e.messageModulus)
    {additions : Nat} {total : RadixInteger LweBlock}
    (htotal : if additions = 0 then PublicInteger t.sumWidth.toNat total
      else LiveInteger t.sumWidth.toNat total) :
    Charges (Bill.refreshes (2 * t.sumWidth.toNat * t.comparisons additions)) (fun _ => True)
      (e.atLeast total t.threshold) := by
  unfold EnrolledTemplate.comparisons
  split at htotal
  · rename_i hfree
    rw [if_neg (by simp [hfree]), Nat.mul_zero, Bill.refreshes_zero]
    exact SimulatedEngine.atLeast_public h htotal _
  · rename_i hpaid
    have live := SimulatedEngine.atLeast_live h htotal t.threshold
    rw [← radix] at live
    by_cases inside : 0 < t.threshold ∧ t.threshold < t.radix ^ t.sumWidth.toNat
    · rw [if_pos ⟨hpaid, inside⟩, Nat.mul_one]
      rwa [if_pos inside] at live
    · rw [if_neg fun both => inside both.2, Nat.mul_zero, Bill.refreshes_zero]
      rwa [if_neg inside] at live

/-- An authentication that comes to a decision has counted what its strategy and its template say,
whatever the probe and the schedule. -/
theorem authenticate_charges {compiled : EnrolledTemplate} {d : DigitSystem} {width : Nat}
    {features : List EnrolledFeature} (hcompiled : compiled.Holds d width features)
    (probe : List Int) (debug : Bool) (schedule : Schedule) :
    Charges (s.bill compiled) (fun _ => True)
      ((e.matcher s).authenticate probe compiled debug schedule) := by
  rw [Strategy.bill_eq]
  unfold Matcher.authenticate
  refine .free_bind (.act fun _ => rfl) fun _ _ => ?_
  refine .check fun _ hcompatible => ?_
  have radix := (Matcher.requireCompatible_eq_ok hcompatible).1
  refine .check fun plan hplan => ?_
  have runs := hcompiled.runs hplan compiled.radix
  have counts := counts_of_plan hplan
  have summed := sumFeatures_charges h (s := s) runs compiled.sumWidth debug schedule
  rw [counts, runs.lookupCount_eq counts] at summed
  refine .free_bind readClock_charges fun started _ => ?_
  refine summed.bind fun sum hsum => ?_
  refine ((compare_charges h radix hsum).mapError _).bind_free fun decision _ => ?_
  refine .free_bind readClock_charges fun stopped _ => ?_
  cases debug with
  | true =>
      refine .free_bind (P := fun _ => True) ?_ fun trace _ => .done trivial
      unfold Matcher.traceOf
      exact .free_bind (SimulatedEngine.decryptInteger_charges h sum.total) fun total _ =>
        .done trivial
  | false => exact .done trivial

end Authentication

end SealedMatch
