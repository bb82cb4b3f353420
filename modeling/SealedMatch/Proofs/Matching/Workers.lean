/-
Module: SealedMatch.Proofs.Matching.Workers
Purpose: What an authentication comes to on a host without workers.
Trusted boundary: none
Main exports: Strategy.staffed_or_refused, SimulatedEngine.authenticate_hiring,
  SimulatedEngine.Hosts.authenticate_aborts
-/
import SealedMatch.Proofs.Matching.Charges
import SealedMatch.Proofs.Matching.Independence

namespace SealedMatch

open Process hiding bind bind_assoc

/-! ### Work without workers

Workers are asked for only when tables are to be evaluated, or keys to be switched, on the host.
Otherwise their number does not matter. If there is none when they are asked for, the authentication
fails there, after what could be done without them. -/

namespace Strategy

/-- The strategy with one worker. -/
def hiring (s : Strategy) : Strategy := { s with maxWorkers? := some 1 }

theorem staffed_hiring (s : Strategy) : s.hiring.Staffed := ⟨1, rfl, by decide⟩

/-- There are workers, or a pool of them is refused for a reason. -/
theorem staffed_or_refused (s : Strategy) :
    s.Staffed ∨
      ∃ failure, (requireWorkers s.maxWorkers? : Process Session Failure Unit) = .fail failure := by
  unfold Staffed requireWorkers
  cases s.maxWorkers? with
  | none => exact Or.inr ⟨_, rfl⟩
  | some n =>
      by_cases hn : 1 ≤ n
      · exact Or.inl ⟨n, rfl, hn⟩
      · exact Or.inr ⟨_, if_neg hn⟩

/-- No worker is asked for on an accelerator, nor without a lookup. -/
theorem fold_hiring {σ C B β : Type} (s : Strategy) (E : CipherEngine σ C B) (schedule : Schedule)
    {plan : LookupPlan} (hidle : s.arrangement = .accelerator ∨ plan.lookupCount = 0)
    (encrypted : Encrypted C B) (receive : β → Nat × List C → Process σ Failure β) (b : β) :
    s.arrangement.fold E schedule plan encrypted receive b =
      s.hiring.arrangement.fold E schedule plan encrypted receive b := by
  obtain ⟨name, primitive, encryptOn, keyswitchOn, lookupOn, earlyStop, workers?⟩ := s
  cases keyswitchOn with
  | host =>
      cases lookupOn with
      | host =>
          have hnone : plan.lookupCount = 0 := hidle.resolve_left (by simp [arrangement])
          simp [arrangement, hiring, Arrangement.fold, foldOnHost, hnone]
      | accelerator =>
          have hnone : plan.lookupCount = 0 := hidle.resolve_left (by simp [arrangement])
          simp [arrangement, hiring, Arrangement.fold, hnone]
  | accelerator =>
      cases lookupOn with
      | host =>
          have hnone : plan.lookupCount = 0 := hidle.resolve_left (by simp [arrangement])
          simp [arrangement, hiring, Arrangement.fold, hnone]
      | accelerator => rfl

end Strategy

namespace SimulatedEngine

variable {e : SimulatedEngine} {s : Strategy} {compiled : EnrolledTemplate} {probe : List Int}
  {plan : LookupPlan}

/-- Where no worker is asked for, an authentication is the one of a strategy with a worker. -/
theorem authenticate_hiring (hplan : LookupPlan.build probe compiled = .ok plan)
    (hidle : s.arrangement = .accelerator ∨ plan.lookupCount = 0) (debug : Bool)
    (schedule : Schedule) :
    (e.matcher s).authenticate probe compiled debug schedule =
      (e.matcher s.hiring).authenticate probe compiled debug schedule := by
  have sums : (e.matcher s).sumFeatures plan compiled.sumWidth debug schedule =
      (e.matcher s.hiring).sumFeatures plan compiled.sumWidth debug schedule := by
    unfold Matcher.sumFeatures
    simp only [show (e.matcher s).strategy = s from rfl, s.fold_hiring _ _ hidle]
    rfl
  unfold Matcher.authenticate
  simp only [hplan, Process.ofExcept, Process.bind_eq, Process.bind_done, sums]
  rfl

end SimulatedEngine

/-! ### Failing for want of a worker -/

section Aborting

variable {e : SimulatedEngine} {s : Strategy} {failure : Failure} {G : Session → Session → Prop}
  {k : ClearEngine} {RC : LweBlock → ClearBlock → Prop} {RB : LweBatch → ClearBatch → Prop}
  {plan : LookupPlan} {rows : List (List Evaluation)}

/-- What has been counted for so many codes before workers are asked for. -/
def Arrangement.wasted (n : Nat) : Arrangement → Bill
  | .host _ => 0
  | .accelerator => 0
  | .mixed .host _ _ => 0
  | .mixed .accelerator _ _ => Bill.of .keyswitch n

/-- On the host, features without digits are taken before workers are asked for. -/
theorem foldOnHost_aborts {β : Type} {receive : β → Nat × List LweBlock → Process Session Failure β}
    {b : β} {workers? : Option Int}
    (hworkers : (requireWorkers workers? : Process Session Failure Unit) = .fail failure)
    (hsome : plan.lookupCount ≠ 0)
    (hempty : (foldFeatures receive b (plan.emptyFeatures.map fun f => (f, []))).Pays
      Session.Counted (fun m _ => m = 0 ∧ True) 0) (schedule : Schedule)
    (task : LweBlock → DigitLookup → Process Session Failure LweBlock) (cs : List LweBlock) :
    Aborts 0 failure (foldOnHost plan schedule workers? task cs receive b) := by
  unfold foldOnHost
  refine .free_bind hempty fun b _ => ?_
  rw [if_neg hsome, hworkers]
  exact .fail failure

theorem Arrangement.fold_aborts (h : e.guard = SimulatedEngine.unguarded)
    (hE : e.engine.Evaluates G k RC RB) {β : Type}
    {receive : β → Nat × List LweBlock → Process Session Failure β} {b : β} {a : Arrangement}
    (hhost : a ≠ .accelerator)
    (hworkers : (requireWorkers a.workers? : Process Session Failure Unit) = .fail failure)
    (hsome : plan.lookupCount ≠ 0) (hcodes : plan.codes.length = plan.lookupCount)
    (hempty : (foldFeatures receive b (plan.emptyFeatures.map fun f => (f, []))).Pays
      Session.Counted (fun m _ => m = 0 ∧ True) 0) (schedule : Schedule)
    {encrypted : Encrypted LweBlock LweBatch} (hcounts : encrypted.Counts plan.lookupCount)
    (hholds : encrypted.Holds RC RB plan.codes) :
    Aborts (a.wasted plan.lookupCount) failure
      (a.fold e.engine schedule plan encrypted receive b) := by
  have nonempty : plan.codes ≠ [] := by
    intro hnil
    rw [hnil] at hcodes
    exact hsome hcodes.symm
  have toHost := (encrypted.onHost_charges h hcounts).pays (encrypted.onHost_yields hE hholds)
  cases a with
  | accelerator => exact absurd rfl hhost
  | host workers? =>
      refine .free_bind toHost fun cs _ => ?_
      exact foldOnHost_aborts hworkers hsome hempty schedule _ cs
  | mixed keyswitchOn lookupOn workers? =>
      unfold Arrangement.fold
      simp only
      rw [if_neg hsome]
      cases keyswitchOn with
      | host =>
          refine .free_bind toHost fun cs _ => ?_
          rw [show requireWorkers workers? = _ from hworkers]
          exact .fail failure
      | accelerator =>
          refine .free_bind ((encrypted.onAccelerator_charges h hcounts).pays
            (encrypted.onAccelerator_yields hE nonempty hholds)) fun batch hbatch => ?_
          rw [show Arrangement.wasted plan.lookupCount (.mixed .accelerator lookupOn workers?) =
            Bill.of .keyswitch plan.lookupCount + 0 from (add_zero _).symm]
          refine .bind ((SimulatedEngine.keyswitchAll_charges h hbatch.1).pays
            ((hE.keyswitchAll hbatch.2).yields rfl)) fun switched hswitched => ?_
          refine .free_bind ((SimulatedEngine.download_charges h hswitched.1).pays
            ((hE.download hswitched.2).yields rfl)) fun cs _ => ?_
          exact foldOnHost_aborts hworkers hsome hempty schedule _ cs

end Aborting

namespace SimulatedEngine

variable {e : SimulatedEngine} {s : Strategy} {failure : Failure} {compiled : EnrolledTemplate}
  {d : DigitSystem} {width : Nat} {features : List EnrolledFeature} {probe : List Int}
  {plan : LookupPlan}

/-- Features without digits are added to a public zero for nothing. -/
theorem addEmpty_pays (h : e.guard = unguarded) {G : Session → Session → Prop} {k : ClearEngine}
    {RC : LweBlock → ClearBlock → Prop} {RB : LweBatch → ClearBatch → Prop}
    (hE : e.engine.Implements G k RC RB) (hk : k.Roomy) {encounters : List Encounter}
    (hplan : plan.Runs (encounterRows k.messageModulus encounters))
    (hcount : ∀ x ∈ encounters, x.1.count ≤ width) (debug : Bool)
    {zero : RadixInteger LweBlock} (hpublic : PublicInteger width zero)
    (hzero : Matcher.Sums RC k width (encounterValues k.messageModulus encounters) debug []
      ⟨zero, []⟩) :
    (foldFeatures ((e.matcher s).addFeature width debug) ⟨zero, []⟩
      (plan.emptyFeatures.map fun f => (f, []))).Pays Session.Counted (fun m _ => m = 0 ∧ True)
        0 := by
  have absorbs := addFeature_absorbs h (s := s)
    (answers (encounterRows k.messageModulus encounters)) width debug
  rw [← hplan.digitCounts_eq, Int.toNat_natCast] at absorbs
  have counted := foldEmpty_spends hplan.numbers absorbs (Running.start plan.digitCounts hpublic)
  refine (counted.and_always (foldEmpty_yields hplan.numbers
    (Matcher.addFeature_takes (m := e.matcher s) hE hk hcount debug) hzero)).mono ?_
  rintro m _ ⟨running, sum, rfl, _⟩
  have free : chargedOf plan.digitCounts plan.emptyFeatures.reverse = 0 := by
    refine chargedOf_eq_zero fun f hf => ?_
    rw [List.getD_eq_getElem?_getD, LookupPlan.mem_emptyFeatures.1 (List.mem_reverse.1 hf)]
    rfl
  refine ⟨sum, rfl, ?_, trivial⟩
  rw [running.bill_eq, free, Nat.mul_zero, Bill.refreshes_zero]

/-- Where workers are asked for and there is none, summing up fails after the codes have been
encrypted. -/
theorem sumFeatures_aborts (h : e.guard = unguarded) {G : Session → Session → Prop}
    {k : ClearEngine} {RC : LweBlock → ClearBlock → Prop} {RB : LweBatch → ClearBatch → Prop}
    (hE : e.engine.Implements G k RC RB) (hk : k.Roomy) {encounters : List Encounter}
    (hplan : plan.Runs (encounterRows k.messageModulus encounters))
    (hsound : ∀ x ∈ (encounterRows k.messageModulus encounters).flatten, x.Sound k)
    (hcount : ∀ x ∈ encounters, x.1.count ≤ width) (hhost : s.arrangement ≠ .accelerator)
    (hworkers : (requireWorkers s.maxWorkers? : Process Session Failure Unit) = .fail failure)
    (hsome : plan.lookupCount ≠ 0) (debug : Bool) (schedule : Schedule) :
    Aborts (Bill.of .encrypt plan.lookupCount + s.arrangement.wasted plan.lookupCount)
      ((e.matcher s).containFailure "evaluate" failure)
      ((e.matcher s).sumFeatures plan width debug schedule) := by
  have encrypted := (s.encrypt_charges h plan.codes).pays
    (s.encrypt_yields hE.toEvaluates hk.sized (hplan.codes_inside hsound))
  rw [hplan.length_codes] at encrypted
  rw [← Strategy.workers_eq hhost] at hworkers
  unfold Matcher.sumFeatures Matcher.during
  refine .bind (encrypted.mapError _) fun encrypted hencrypted => ?_
  refine Aborts.mapError ?_ _
  refine .free_bind ((publicZero_charges h width).pays (Matcher.publicZero_sums (m := e.matcher s)
    hE width (encounterValues k.messageModulus encounters) debug)) fun zero hzero => ?_
  rw [Int.toNat_natCast] at hzero
  exact Arrangement.fold_aborts h hE.toEvaluates hhost hworkers hsome hplan.length_codes
    (addEmpty_pays h hE hk hplan hcount debug hzero.1 hzero.2) schedule hencrypted.1 hencrypted.2

/-- Where workers are asked for and there is none, an authentication fails for that reason, whatever
the schedule, and has counted the encryption of its codes and the key switches of the
accelerator. -/
theorem Hosts.authenticate_aborts (h : e.Hosts s.hiring compiled)
    (hcompiled : compiled.Holds d width features)
    (hplan : LookupPlan.build probe compiled = .ok plan) (hhost : s.arrangement ≠ .accelerator)
    (hworkers : (requireWorkers s.maxWorkers? : Process Session Failure Unit) = .fail failure)
    (hsome : plan.lookupCount ≠ 0) (debug : Bool) (schedule : Schedule) :
    Aborts (Bill.of .encrypt plan.lookupCount + s.arrangement.wasted plan.lookupCount)
      ((e.matcher s).containFailure "evaluate" failure)
      ((e.matcher s).authenticate probe compiled debug schedule) := by
  have implements : e.engine.Implements Session.Silent e.clear (e.Encodes 6) (e.EncodesAll 6) :=
    h.implements hcompiled.radix_eq
  have roomy := h.roomy hcompiled.radix_eq
  have compatible : (e.matcher s).requireCompatible compiled = .ok () := h.compatible
  obtain ⟨hradix, hdomains⟩ := Matcher.requireCompatible_eq_ok compatible
  obtain ⟨runs, sound, few, _⟩ := Matcher.plan_runs roomy.sized hcompiled hradix hdomains hplan
  have begun : (Process.act (e.matcher s).instruments.begin : Process Session Failure Unit).Pays
      Session.Counted (fun m _ => m = 0 ∧ True ∧ True) 0 :=
    (Charges.act fun _ => rfl).pays (Yields.act (G := Session.Silent) silent_begin trivial)
  have clock : (e.matcher s).readClock.Pays Session.Counted (fun m _ => m = 0 ∧ True ∧ True) 0 :=
    readClock_charges.pays (Yields.fetch (G := Session.Silent) silent_tick fun _ => trivial)
  unfold Matcher.authenticate
  simp only [compatible, hplan, hcompiled.sumWidth_eq, Process.ofExcept, Process.bind_eq,
    Process.bind_done]
  refine .free_bind begun fun _ _ => ?_
  refine .free_bind clock fun started _ => ?_
  exact (sumFeatures_aborts h.faithful.unguarded implements roomy runs sound few hhost hworkers
    hsome debug schedule).cut

end SimulatedEngine

end SealedMatch
