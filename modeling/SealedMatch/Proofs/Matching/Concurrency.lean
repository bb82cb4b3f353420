/-
Module: SealedMatch.Proofs.Matching.Concurrency
Purpose: Authentications that share an engine end and count as they do alone.
Trusted boundary: none
Main exports: SimulatedEngine.reading, Attempt, Attempt.spends, Attempt.together_independent
-/
import SealedMatch.Proofs.Matching.Admission
import SealedMatch.Proofs.Matching.Workers

namespace SealedMatch

open Process hiding bind bind_assoc

/-- What an authentication has come to for whoever holds the keys: its failure, or the truth value
under its decision and the trace if there is one. Masks, noise and the time taken do not show. -/
def SimulatedEngine.reading (e : SimulatedEngine)
    (r : Except Failure (SealedDecision LweBlock)) : Except Failure (Bool × Option Trace) := do
  let decision ← r
  let message ← e.decode decision.ciphertext
  pure ((message : Int) % e.messageModulus != 0, decision.trace?)

/-- A template that a compiler has made of some tables. -/
def EnrolledTemplate.Compiled (t : EnrolledTemplate) : Prop :=
  ∃ configuration tables compiler template earlyStop,
    TemplateCompiler.ofTables configuration tables = .ok compiler ∧
      compiler.compile template earlyStop = .ok t

theorem EnrolledTemplate.Compiled.holds {t : EnrolledTemplate} (h : t.Compiled) :
    ∃ d width features, t.Holds d width features := by
  obtain ⟨configuration, tables, compiler, template, earlyStop, hc, hcompile⟩ := h
  obtain ⟨_, prepared⟩ := TemplateCompiler.ofTables_eq_ok hc
  obtain ⟨features, holds, _⟩ := prepared.holds hcompile
  exact ⟨_, _, features, holds⟩

/-- The arguments of an authentication. -/
structure Attempt where
  probe : List Int
  compiled : EnrolledTemplate
  debug : Bool

namespace Attempt

variable {e : SimulatedEngine} {s : Strategy} {a : Attempt}

/-- The authentication of an attempt, with an order for the actions of its own workers. -/
def process (e : SimulatedEngine) (s : Strategy) (a : Attempt) (schedule : Schedule) :
    Process Session Failure (SealedDecision LweBlock) :=
  (e.matcher s).authenticate a.probe a.compiled a.debug schedule

/-- Attempts at once on one engine: each goes its own way, and `turns` says whose action is next. -/
def together (e : SimulatedEngine) (s : Strategy) (turns : Schedule)
    (calls : List (Attempt × Schedule)) :
    Process Session Failure (List (Except Failure (SealedDecision LweBlock))) :=
  Process.interleave turns (calls.map fun x => x.1.process e s x.2)

/-- What an attempt comes to alone on a new engine. -/
def outcome (e : SimulatedEngine) (s : Strategy) (a : Attempt) :
    Except Failure (Bool × Option Trace) :=
  e.reading ((a.process e s []).run Session.start).1

/-- What an attempt counts alone on a new engine. -/
def bill (e : SimulatedEngine) (s : Strategy) (a : Attempt) : Bill :=
  ((a.process e s []).run Session.start).2.billed

/-- An attempt that is refused fails before anything is counted. -/
theorem aborts_of_refused {failure : Failure}
    (h : (e.matcher s).screen a.probe a.compiled = .error failure) (schedule : Schedule) :
    Aborts 0 failure (a.process e s schedule) := by
  have begun : (Process.act (e.matcher s).instruments.begin : Process Session Failure Unit).Pays
      Session.Counted (fun m _ => m = 0 ∧ True ∧ True) 0 :=
    (Charges.act fun _ => rfl).pays
      (Yields.act (G := Session.Silent) SimulatedEngine.silent_begin trivial)
  unfold Matcher.screen at h
  unfold process Matcher.authenticate
  refine .free_bind begun fun _ _ => ?_
  cases hcompatible : (e.matcher s).requireCompatible a.compiled with
  | error failure' =>
      rw [hcompatible] at h
      cases h
      exact .fail failure
  | ok _ =>
      rw [hcompatible, ok_bind] at h
      rw [h]
      exact .fail failure

/-- An attempt that an engine hosts is read as the values of its features say, and counts what its
strategy and its template say. -/
theorem spends_of_hosts {d : DigitSystem} {width : Nat} {features : List EnrolledFeature}
    {plan : LookupPlan} (h : e.Hosts s a.compiled) (hcompiled : a.compiled.Holds d width features)
    (hplan : LookupPlan.build a.probe a.compiled = .ok plan) (schedule : Schedule) :
    (a.process e s schedule).Spends Session.Counted (fun m r => m = s.bill a.compiled ∧
      e.reading r = .ok
        (decide (a.compiled.threshold ≤ (encounterValues a.compiled.radix
          (features.zip a.probe)).sum % a.compiled.radix ^ width),
        if a.debug then some (.ofValues a.compiled.radix width
          (encounterValues a.compiled.radix (features.zip a.probe))) else none)) 0 := by
  have charges : Charges _ _ (a.process e s schedule) :=
    authenticate_charges h.faithful.unguarded hcompiled a.probe a.debug schedule
  have yields : (a.process e s schedule).Yields Session.Silent _ :=
    h.authenticate_yields hcompiled hplan a.debug schedule
  refine Spends.mono (charges.pays yields) ?_
  rintro m _ ⟨decision, rfl, rfl, _, resolved⟩
  have decoded := (resolved.ciphertext.decodes (by decide) h.faithful.bits_le).decode_eq
  have truth := ClearEngine.decryptTruth_bit (h.roomy hcompiled.radix_eq)
    (a.compiled.threshold ≤ (encounterValues a.compiled.radix
      (features.zip a.probe)).sum % a.compiled.radix ^ width)
  refine ⟨rfl, ?_⟩
  unfold SimulatedEngine.reading
  rw [ok_bind, decoded, ok_bind, resolved.trace_eq]
  exact congrArg (fun accepted => Except.ok (accepted, _)) truth

open TemplateCompiler (samplePolicy sampleTables placed) in
example : (do
    let c ← TemplateCompiler.ofTables samplePolicy sampleTables
    let compiled ← c.compile [0, 1] true
    pure ([CountedOperation.encrypt, .keyswitch, .bootstrap].map
      ((placed .host).bill compiled))).toOption = some [4, 22, 22] := by
  decide +kernel

/-- What an attempt comes to and what it counts depend on nothing else than the engine, the strategy
and the attempt itself: not on the states that its actions find, and not on the order of its
workers. -/
theorem exists_spends (he : e.Faithful 6) (hcarry : 1 ≤ e.parameters.carryBits) (s : Strategy)
    (ha : a.compiled.Compiled) :
    ∃ outcome bill, ∀ schedule, (a.process e s schedule).Spends Session.Counted
      (fun m r => m = bill ∧ e.reading r = outcome) 0 := by
  obtain ⟨d, width, features, holds⟩ := ha.holds
  have aborted : ∀ {bill failure}, (∀ schedule, Aborts bill failure (a.process e s schedule)) →
      ∃ outcome bill, ∀ schedule, (a.process e s schedule).Spends Session.Counted
        (fun m r => m = bill ∧ e.reading r = outcome) 0 := by
    intro bill failure h
    refine ⟨.error failure, bill, fun schedule => (h schedule).spends.mono ?_⟩
    rintro m _ ⟨rfl, rfl⟩
    exact ⟨rfl, rfl⟩
  -- refused before anything is encrypted, or no worker is asked for, or there are some, or not
  cases hscreen : (e.matcher s).screen a.probe a.compiled with
  | error failure => exact aborted (aborts_of_refused hscreen)
  | ok plan =>
      unfold Matcher.screen at hscreen
      obtain ⟨_, hcompatible, hplan⟩ := bind_eq_ok hscreen
      have hosts : e.Hosts s.hiring a.compiled := ⟨he, hcarry, s.staffed_hiring, hcompatible⟩
      by_cases hidle : s.arrangement = .accelerator ∨ plan.lookupCount = 0
      · have alike : ∀ schedule, a.process e s schedule = a.process e s.hiring schedule :=
          SimulatedEngine.authenticate_hiring hplan hidle a.debug
        simp only [alike]
        exact ⟨_, _, spends_of_hosts hosts holds hplan⟩
      · rcases s.staffed_or_refused with staffed | ⟨failure, hworkers⟩
        · exact ⟨_, _, spends_of_hosts ⟨he, hcarry, staffed, hcompatible⟩ holds hplan⟩
        · obtain ⟨hhost, hsome⟩ := not_or.1 hidle
          exact aborted (hosts.authenticate_aborts holds hplan hhost hworkers hsome a.debug)

/-- Whatever states its actions find and whatever the order of its workers, an attempt ends and
counts as it does alone on a new engine. -/
theorem spends (he : e.Faithful 6) (hcarry : 1 ≤ e.parameters.carryBits) (s : Strategy)
    (ha : a.compiled.Compiled) (schedule : Schedule) :
    (a.process e s schedule).Spends Session.Counted
      (fun m r => m = a.bill e s ∧ e.reading r = a.outcome e s) 0 := by
  obtain ⟨outcome, bill, h⟩ := exists_spends he hcarry s ha
  obtain ⟨_, hcounts, rfl, hreading⟩ := (h []).run_counted Session.start
  have fresh : Session.start.billed = 0 := rfl
  rw [fresh, zero_add] at hcounts
  have counted : a.bill e s = _ := hcounts
  have read : a.outcome e s = outcome := hreading
  rw [counted, read]
  exact h schedule

/-- Attempts at once end as they end one by one, and count what they count one by one. -/
theorem together_pays {calls : List (Attempt × Schedule)} (turns : Schedule)
    (h : ∀ x ∈ calls, (x.1.process e s x.2).Spends Session.Counted
      (fun m r => m = x.1.bill e s ∧ e.reading r = x.1.outcome e s) 0) :
    (together e s turns calls).Pays Session.Counted (fun m rs =>
      m = (calls.map fun x => x.1.bill e s).sum ∧
        rs.map e.reading = calls.map fun x => x.1.outcome e s) 0 := by
  have each : List.Forall₂ (fun p (y : Attempt × Schedule) => p.Spends Session.Counted
      (fun m r => m = y.1.bill e s ∧ e.reading r = y.1.outcome e s) 0)
      (calls.map fun x => x.1.process e s x.2) calls := by
    rw [List.forall₂_map_left_iff, List.forall₂_same]
    exact h
  have bills : (together e s turns calls).Pays _ _ _ :=
    interleave_pays (R := fun m r (y : Attempt × Schedule) =>
      m = y.1.bill e s ∧ e.reading r = y.1.outcome e s) turns each
  refine bills.mono ?_
  rintro m _ ⟨ys, rfl, rfl, hys⟩
  clear each bills h
  rw [zero_add]
  -- on the attempts, each with its outcome and its amount
  induction hys with
  | nil => exact ⟨rfl, rfl⟩
  | cons head tail ih =>
      obtain ⟨sum, readings⟩ := ih
      constructor
      · rw [List.map_cons, List.map_cons, List.sum_cons, List.sum_cons, sum, head.1]
      · rw [List.map_cons, List.map_cons, List.map_cons, readings, head.2]

/-- Any authentications at once on one engine, by one strategy: whatever the templates and probes,
whatever the order of all their actions and of those of the workers of each, and whatever has
happened before, each comes to the truth value and the trace (or the failure) to which it comes
alone, in whatever session and with whatever order of its workers, and the counters move by the sum
of what each of them counts alone. -/
theorem together_independent (he : e.Faithful 6) (hcarry : 1 ≤ e.parameters.carryBits)
    (s : Strategy) {calls : List (Attempt × Schedule)}
    (hcalls : ∀ x ∈ calls, x.1.compiled.Compiled) (turns : Schedule) (session : Session) :
    (∃ rs, ((together e s turns calls).run session).1 = .ok rs ∧
      rs.map e.reading = calls.map fun x => x.1.outcome e s) ∧
    ((together e s turns calls).run session).2.billed =
      session.billed + (calls.map fun x => x.1.bill e s).sum ∧
    ∀ x ∈ calls, ∀ (schedule : Schedule) (alone : Session),
      e.reading ((x.1.process e s schedule).run alone).1 = x.1.outcome e s ∧
      ((x.1.process e s schedule).run alone).2.billed =
        alone.billed + x.1.bill e s := by
  have alone : ∀ x ∈ calls, ∀ schedule, (x.1.process e s schedule).Spends Session.Counted
      (fun m r => m = x.1.bill e s ∧ e.reading r = x.1.outcome e s) 0 :=
    fun x hx => spends he hcarry s (hcalls x hx)
  obtain ⟨m, hcounts, rs, hrs, rfl, hreadings⟩ :=
    Spends.run_counted (together_pays turns fun x hx => alone x hx x.2) session
  refine ⟨⟨rs, hrs, hreadings⟩, hcounts, fun x hx schedule before => ?_⟩
  obtain ⟨m, hcounts, rfl, hreading⟩ := (alone x hx schedule).run_counted before
  exact ⟨hreading, hcounts⟩

open TemplateCompiler (samplePolicy sampleTables placed staffed_placed) in
theorem together_independent_sample :
    ∃ compiled : EnrolledTemplate, compiled.Compiled ∧
      SimulatedEngine.smallest.Hosts (placed .host) compiled ∧
      (let e := SimulatedEngine.smallest
       let s := placed .host
       let first : Attempt := ⟨[1, 2], compiled, true⟩
       let second : Attempt := ⟨[0, 0], compiled, false⟩
       let both := together e s [0, 1, 1, 0, 1] [(first, [1, 2]), (second, [])]
       (∃ rs, (both.run Session.start).1 = .ok rs ∧
         rs.map e.reading = [first.outcome e s, second.outcome e s]) ∧
       (both.run Session.start).2.billed =
         Session.start.billed + (first.bill e s + (second.bill e s + 0))) := by
  have accepted : (do
      let c ← TemplateCompiler.ofTables samplePolicy sampleTables
      let compiled ← c.compile [0, 1] true
      (SimulatedEngine.smallest.matcher (placed .host)).requireCompatible compiled).isOk =
        true := by
    decide +kernel
  obtain ⟨u, hu⟩ := exists_of_isOk accepted
  obtain ⟨c, hc, hu⟩ := bind_eq_ok hu
  obtain ⟨compiled, hcompile, hu⟩ := bind_eq_ok hu
  have made : compiled.Compiled := ⟨_, _, c, _, _, hc, hcompile⟩
  have calls : ∀ x ∈ [((⟨[1, 2], compiled, true⟩ : Attempt), ([1, 2] : Schedule)),
      (⟨[0, 0], compiled, false⟩, [])], x.1.compiled.Compiled := by
    simpa using made
  obtain ⟨ends, counts, _⟩ := together_independent SimulatedEngine.faithful_smallest
    (by decide) (placed .host) calls [0, 1, 1, 0, 1] Session.start
  exact ⟨compiled, made, ⟨SimulatedEngine.faithful_smallest, by decide, staffed_placed _, hu⟩,
    ends, counts⟩

end Attempt

end SealedMatch
