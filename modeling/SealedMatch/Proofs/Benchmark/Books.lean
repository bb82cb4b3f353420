/-
Module: SealedMatch.Proofs.Benchmark.Books
Purpose: What a benchmark of a strategy accounts for, whichever of its runs fail.
Trusted boundary: none
Main exports: Session.Progress, Benchmarker.Trail, Benchmarker.runPairs_run, Benchmarker.Accounts,
  Benchmarker.runStrategy_accounts
-/
import SealedMatch.Benchmark.Benchmarker
import SealedMatch.Engine.FaultPlan
import SealedMatch.Proofs.Benchmark.Agreement
import SealedMatch.Proofs.Engine.Charges
import SealedMatch.Proofs.Matching.Conduct
import SealedMatch.Proofs.Matching.Cost

namespace SealedMatch

open Process hiding bind bind_assoc

/-! ### Sessions that go on -/

namespace Session

/-- Nothing is logged, and nothing that has been counted is taken back. -/
def Progress (s s' : Session) : Prop := s'.events = s.events ∧ ∃ bill, Counted bill s s'

theorem progress_of_counts {s s' : Session} (events : s'.events = s.events)
    (counts : s'.counts = s.counts) : s.Progress s' :=
  ⟨events, 0, by rw [Counted, billed_eq counts, add_zero]⟩

theorem progress_refl (s : Session) : s.Progress s := progress_of_counts rfl rfl

theorem Progress.trans {s t u : Session} (h : s.Progress t) (h' : t.Progress u) : s.Progress u := by
  obtain ⟨events, bill, counted⟩ := h
  obtain ⟨events', bill', counted'⟩ := h'
  exact ⟨events'.trans events, bill + bill', by rw [Counted, counted', counted, add_assoc]⟩

theorem progress_count (op : CountedOperation) (n : Nat) (s : Session) :
    s.Progress (s.count op n) := by
  refine ⟨rfl, Bill.of op n, ?_⟩
  funext k
  exact Tally.count_add s.counts op k n

@[simp] theorem warn_nil (s : Session) : s.warn [] = s := by
  simp [warn]

end Session

/-- A guard that records calls and injects failures logs nothing and counts nothing. -/
theorem FaultPlan.guard_heeds (plan : List PlannedFault) (call : EngineCall) :
    (FaultPlan.guard plan call).Heeds Session.Progress := by
  unfold FaultPlan.guard
  split
  · exact .done ()
  · refine ⟨fun s => Session.progress_of_counts rfl rfl, fun s => ?_⟩
    dsimp only
    split
    · exact Heeds.fail _
    · exact Heeds.done ()

/-- The engine of a strategy has the guard that it was asked for, and its counters are new. -/
theorem Strategy.provide_fresh {s : Strategy} {c : MatchPolicy} {seed : Int} {allow : Bool}
    {guard : EngineCall → Process Session Failure Unit} {tapeOf : LweParameters → UInt64 → Tape}
    {session fresh : Session} {e : SimulatedEngine}
    (h : (s.provide c seed allow guard tapeOf).run session = (.ok e, fresh)) :
    e.guard = guard ∧ fresh.counts = .empty := by
  obtain ⟨events, session₁, -, h⟩ := run_bind_eq_ok h
  obtain ⟨_, session₂, -, h⟩ := run_bind_eq_ok h
  obtain ⟨p, session₃, -, h⟩ := run_bind_eq_ok h
  unfold SimulatedEngine.launch at h
  split at h
  · cases h
  · obtain ⟨e', session₄, built, h⟩ := run_bind_eq_ok h
    obtain ⟨_, session₅, renewed, h⟩ := run_bind_eq_ok h
    obtain ⟨_, session₆, warned, h⟩ := run_bind_eq_ok h
    rw [run_ofExcept] at built
    cases renewed
    cases warned
    cases h
    exact ⟨SimulatedEngine.guard_ofTape (Prod.mk.inj built).1, rfl⟩

/-! ### Runs -/

/-- Memory readings between which a process runs. -/
theorem MemoryProfile.around_heeds {α : Type} {G : Session → Session → Prop}
    (readings : ∀ s, G s s.pastMemory) {p : Process Session Failure α} (hp : p.Heeds G) :
    (around p).Heeds G := by
  have read : reading.Heeds G := (Heeds.fetch readings _).bind fun _ => Heeds.ofExcept _
  refine (read.bind fun _ => Heeds.done _).bind fun m => hp.attempt.bind fun outcome => ?_
  refine (read.bind fun _ => Heeds.done _).bind fun m' => ?_
  exact (Heeds.ofExcept outcome).bind fun _ => Heeds.done _

namespace Benchmarker

/-- A run of a benchmark: the session that it finds, what it comes to with the peak of the memory in
use meanwhile, and the session that it leaves. -/
structure Run where
  before : Session
  result : Verification
  peak : Float
  after : Session

/-- What a run has counted. -/
def Run.work (run : Run) : Bill := fun op => run.after.billed op - run.before.billed op

/-- What is logged of a run: a warning with its index if it failed. -/
def notes (s : Strategy) (index : Nat) (r : Verification) : List Event :=
  if r.isFailed then [failedRun s index r.errorDetails?] else []

variable (b : Benchmarker) (s : Strategy) (e : SimulatedEngine)

/-- The runs of pairs from an index on. Each finds the session that the one before it has left, with
the warning of that one if it failed. -/
inductive Trail : Nat → Session → List Comparison → List Run → Session → Prop where
  | nil (index : Nat) (session : Session) : Trail index session [] [] session
  | cons {index : Nat} {pair : Comparison} {pairs : List Comparison} {runs : List Run}
      {final : Session} (run : Run)
      (ran : (b.profilePair s e index pair).run run.before =
        (.ok (run.result, run.peak), run.after))
      (others : Trail (index + 1) (run.after.warn (notes s index run.result)) pairs runs final) :
      Trail index run.before (pair :: pairs) (run :: runs) final

variable {b s e}

theorem runPairs_cons (index : Nat) (pair : Comparison) (pairs : List Comparison)
    (session : Session) :
    (b.runPairs s e index (pair :: pairs)).run session =
      match (b.profilePair s e index pair).run session with
      | (.error f, after) => (.error f, after)
      | (.ok here, after) =>
        match (b.runPairs s e (index + 1) pairs).run (after.warn (notes s index here.1)) with
        | (.error f, final) => (.error f, final)
        | (.ok there, final) => (.ok (here :: there), final) := by
  rw [runPairs, bind_eq, run_bind]
  rcases (b.profilePair s e index pair).run session with ⟨f | here, after⟩
  · rfl
  · have others : ∀ session', ((b.runPairs s e (index + 1) pairs).bind fun there =>
        done (here :: there)).run session' =
          match (b.runPairs s e (index + 1) pairs).run session' with
          | (.error f, final) => (.error f, final)
          | (.ok there, final) => (.ok (here :: there), final) := by
      intro session'
      rw [run_bind]
      rcases (b.runPairs s e (index + 1) pairs).run session' with ⟨f | there, final⟩ <;> rfl
    dsimp only
    unfold notes
    split
    · exact others _
    · rw [Session.warn_nil]
      exact others after

/-- Runs leave a trail, or the first one that raises a failure ends them with it. -/
theorem runPairs_run (index : Nat) (pairs : List Comparison) (session : Session) :
    (∃ runs final, b.Trail s e index session pairs runs final ∧
      (b.runPairs s e index pairs).run session =
        (.ok (runs.map fun run => (run.result, run.peak)), final)) ∨
    ∃ done pair rest runs before f after, pairs = done ++ pair :: rest ∧
      b.Trail s e index session done runs before ∧
      (b.profilePair s e (index + done.length) pair).run before = (.error f, after) ∧
      (b.runPairs s e index pairs).run session = (.error f, after) := by
  -- on the pairs, for every session: the next run finds the warning of the one before it
  induction pairs generalizing index session with
  | nil => exact .inl ⟨[], session, .nil index session, rfl⟩
  | cons pair pairs ih =>
      rw [runPairs_cons]
      rcases ran : (b.profilePair s e index pair).run session with ⟨f | ⟨result, peak⟩, after⟩
      · exact .inr ⟨[], pair, pairs, [], session, f, after, rfl, .nil index session, ran, rfl⟩
      · let run : Run := ⟨session, result, peak, after⟩
        rcases ih (index + 1) (after.warn (notes s index result)) with
          ⟨runs, final, trail, there⟩ |
          ⟨done, pair', rest, runs, before, f, after', rfl, trail, raised, there⟩
        · exact .inl ⟨run :: runs, final, .cons run ran trail, by simp only [there]; rfl⟩
        · refine .inr ⟨pair :: done, pair', rest, run :: runs, before, f, after', rfl,
            .cons run ran trail, ?_, by simp only [there]⟩
          rw [List.length_cons, show index + (done.length + 1) = index + 1 + done.length by omega]
          exact raised

/-! ### Books -/

namespace Trail

variable {index : Nat} {session final : Session} {pairs : List Comparison} {runs : List Run}

theorem length_eq (h : b.Trail s e index session pairs runs final) :
    runs.length = pairs.length := by
  induction h with
  | nil index session => rfl
  | cons run ran others ih => rw [List.length_cons, List.length_cons, ih]

variable (progress : ∀ index pair, (b.profilePair s e index pair).Heeds Session.Progress)

include progress

/-- Between the beginning and the end of a run nothing is logged, and its work is counted. -/
theorem progress_of_ran {run : Run} {pair : Comparison}
    (ran : (b.profilePair s e index pair).run run.before =
      (.ok (run.result, run.peak), run.after)) :
    run.after.events = run.before.events ∧ Session.Counted run.work run.before run.after := by
  have moved := (progress index pair).run Session.progress_refl
    (fun _ _ _ => Session.Progress.trans) run.before
  rw [ran] at moved
  obtain ⟨events, bill, counted⟩ := moved
  refine ⟨events, ?_⟩
  -- counts only grow, so that their difference is what has been billed
  have work : run.work = bill := by
    funext op
    rw [Run.work, counted, Bill.add_apply]
    omega
  rw [work]
  exact counted

theorem counted (h : b.Trail s e index session pairs runs final) :
    ∀ run ∈ runs, Session.Counted run.work run.before run.after := by
  induction h with
  | nil index session => simp
  | cons run ran others ih => exact List.forall_mem_cons.2 ⟨(progress_of_ran progress ran).2, ih⟩

/-- All that is counted is the work of the runs. -/
theorem billed_eq (h : b.Trail s e index session pairs runs final) :
    final.billed = session.billed + (runs.map Run.work).sum := by
  induction h with
  | nil index session => rw [List.map_nil, List.sum_nil, add_zero]
  | cons run ran others ih =>
      have here := (progress_of_ran progress ran).2
      rw [ih, List.map_cons, List.sum_cons, ← add_assoc, ← here]
      rfl

/-- All that is logged are the warnings of the failed runs, in order. -/
theorem events_eq (h : b.Trail s e index session pairs runs final) :
    final.events = session.events ++
      (runs.zipIdx index).flatMap fun x => notes s x.2 x.1.result := by
  induction h with
  | nil index session => simp
  | cons run ran others ih =>
      have here := (progress_of_ran progress ran).1
      rw [ih, List.zipIdx_cons, List.flatMap_cons, ← List.append_assoc, ← here]
      rfl

end Trail

/-- What a result reports of the runs. -/
structure Reports (r : StrategyResult) (runs : List Run) : Prop where
  /-- There is one outcome for each run, in order. -/
  length_eq : r.outcomes.length = runs.length
  /-- It is missing just if the run failed, and else says whether the run accepted. -/
  outcome_eq : ∀ {i : Nat} {run : Run}, runs[i]? = some run →
    r.outcomes[i]? = some (if run.result.isFailed then none else some run.result.accepted)
  runs_add_failures : r.runs + r.failures = runs.length
  failures_eq : r.failures = r.outcomes.count none
  /-- Times are those of the runs that succeeded. -/
  times_eq : TimeStatistics.ofTimes? ((runs.filter fun run => !run.result.isFailed).map
    fun run => run.result.elapsedMs) = some r.times
  /-- Operations are those of all runs. -/
  work_eq : ∀ op : CountedOperation,
    (r.operationCounts.lookup op.name).getD 0 = ((runs.map Run.work).sum op : Nat)

/-- What a strategy that is benchmarked without interruption accounts for: the outcome and the
session at the end, given its runs and the session in which they begin. -/
structure Accounts (s : Strategy) (fresh : Session) (runs : List Run)
    (ended : Except Failure StrategyResult × Session) : Prop where
  /-- It is refused just if no run succeeded. -/
  refused_iff : ended.1 = .error (.benchmark s.name) ↔ ∀ run ∈ runs, run.result.isFailed = true
  /-- Otherwise the runs are reported. -/
  reported : (∃ run ∈ runs, run.result.isFailed = false) → ∃ r, ended.1 = .ok r ∧ Reports r runs
  /-- Each failed run is logged with its own index, and nothing else is logged. -/
  logged : ended.2.events = fresh.events ++ runs.zipIdx.flatMap fun x => notes s x.2 x.1.result
  /-- No run takes back what has been counted. -/
  counted : ∀ run ∈ runs, Session.Counted run.work run.before run.after

/-- What is not refused reports the runs. -/
theorem Accounts.reports {fresh : Session} {runs : List Run} {r : StrategyResult}
    {ended : Except Failure StrategyResult × Session} (h : Accounts s fresh runs ended)
    (reached : ended.1 = .ok r) : Reports r runs := by
  have succeeded : ∃ run ∈ runs, run.result.isFailed = false := by
    by_contra none
    have refused := h.refused_iff.2 fun run member =>
      Bool.eq_true_of_not_eq_false fun here => none ⟨run, member, here⟩
    cases reached.symm.trans refused
  obtain ⟨r', reported, reports⟩ := h.reported succeeded
  cases reached.symm.trans reported
  exact reports

theorem lookup_namedCounts (counts : Tally CountedOperation) (op : CountedOperation) :
    ((namedCounts counts).lookup op.name).getD 0 = counts.count op := by
  obtain ⟨entries⟩ := counts
  simp only [namedCounts, Tally.count]
  induction entries with
  | nil => rfl
  | cons entry rest ih =>
      obtain ⟨op', n⟩ := entry
      have names : (op.name == op'.name) = (op == op') := by
        cases op <;> cases op' <;> decide
      simp only [List.map_cons, List.lookup_cons, names]
      cases op == op' with
      | true => rfl
      | false => exact ih

/-- Outcomes are missing where runs failed. -/
theorem count_none_outcomes (runs : List Run) :
    (runs.map (outcome ∘ Run.result)).count none =
      ((runs.map Run.result).filter fun r => r.isFailed).length := by
  rw [List.count_eq_countP, List.countP_map, List.filter_map, List.length_map,
    List.countP_eq_length_filter]
  congr 1
  refine List.filter_congr fun run _ => ?_
  simp only [Function.comp_apply, outcome]
  cases run.result.isFailed <;> rfl

/-- Runs of which one succeeded are reported, and others are refused. -/
theorem resultOf_cases (s : Strategy) (runs : List Run) {counts : Tally CountedOperation}
    (counted : counts.count = (runs.map Run.work).sum) :
    ((∀ run ∈ runs, run.result.isFailed = true) ∧
        b.resultOf s (runs.map fun run => (run.result, run.peak)) counts =
          .error (.benchmark s.name)) ∨
      (∃ run ∈ runs, run.result.isFailed = false) ∧ ∃ r,
        b.resultOf s (runs.map fun run => (run.result, run.peak)) counts = .ok r ∧
          Reports r runs := by
  have results : (runs.map fun run => (run.result, run.peak)).map Prod.fst =
      runs.map Run.result := by
    rw [List.map_map]
    rfl
  have succeeded : ((runs.map Run.result).filter fun r => !r.isFailed) =
      (runs.filter fun run => !run.result.isFailed).map Run.result := by
    rw [List.filter_map]
    rfl
  unfold resultOf
  simp only [results, succeeded, List.map_map]
  split
  · next none =>
      refine .inl ⟨fun run member => ?_, rfl⟩
      have empty := (TimeStatistics.ofTimes?_eq_none_iff _).1 none
      rw [List.map_eq_nil_iff, List.filter_eq_nil_iff] at empty
      simpa using empty run member
  · next times some =>
      refine .inr ⟨?_, _, rfl, ?_⟩
      · by_contra none
        have empty : (runs.filter fun run => !run.result.isFailed) = [] := by
          refine List.filter_eq_nil_iff.2 fun run member succeeded => ?_
          exact none ⟨run, member, by simpa using succeeded⟩
        rw [empty] at some
        cases some
      · refine ⟨by simp, fun place => ?_, ?_, ?_, some, fun op => ?_⟩
        · rw [List.getElem?_map, place]
          rfl
        · have parts := List.length_eq_length_filter_add (l := runs) fun run =>
            !run.result.isFailed
          simp only [List.filter_map, List.length_map, Bool.not_not] at parts ⊢
          rw [parts]
          push_cast
          rfl
        · rw [count_none_outcomes]
        · rw [lookup_namedCounts, counted]

/-- A benchmark of a strategy comes to a result if an engine is provided and the runs end. -/
theorem runStrategy_run (s : Strategy) (pairs : List Comparison) (session : Session) :
    (b.runStrategy s pairs).run session =
      match (s.provide b.configuration b.seed b.allowReduced b.guard (b.tapeOf s)).run session with
      | (.error f, after) => (.error f, after)
      | (.ok e, fresh) =>
        match (b.runPairs s e 0 pairs).run fresh with
        | (.error f, after) => (.error f, after)
        | (.ok runs, final) => (b.resultOf s runs final.counts, final) := by
  rw [runStrategy, bind_eq, run_bind]
  rcases (s.provide b.configuration b.seed b.allowReduced b.guard (b.tapeOf s)).run session with
    ⟨f | e, fresh⟩
  · rfl
  · dsimp only
    rw [bind_eq, run_bind]
    rcases (b.runPairs s e 0 pairs).run fresh with ⟨f | runs, final⟩
    · rfl
    · exact run_ofExcept (b.resultOf s runs final.counts) final

/-- A benchmark whose runs cannot fail is not refused. -/
theorem Sound.runStrategy_ok {tables : List TableSource} {strategies : List Strategy}
    {pairs : List Comparison} (h : b.Sound tables strategies) (hs : s ∈ strategies)
    (hallowed : s.lowersAssurance b.configuration = true → b.allowReduced = true)
    (ready : b.Ready pairs) (session : Session) :
    ∃ r, ((b.runStrategy s pairs).run session).1 = .ok r ∧
      r.outcomes = pairs.map b.expected := by
  have ensured : (b.runStrategy s pairs).Ensures Session.Undisputed (b.Ready pairs)
      fun r => r.outcomes = pairs.map b.expected := h.runStrategy_ensures hs hallowed
  have ended := ensured.run session
  cases outcome : ((b.runStrategy s pairs).run session).1 with
  | ok r =>
      rw [outcome] at ended
      exact ⟨r, rfl, ended⟩
  | error f =>
      rw [outcome] at ended
      exact absurd ready ended

/-- Runs that leave a trail from new counters on are accounted for. -/
theorem Trail.accounts {fresh final : Session} {pairs : List Comparison} {runs : List Run}
    (h : b.Trail s e 0 fresh pairs runs final) (empty : fresh.counts = .empty)
    (progress : ∀ index pair, (b.profilePair s e index pair).Heeds Session.Progress) :
    Accounts s fresh runs
      (b.resultOf s (runs.map fun run => (run.result, run.peak)) final.counts, final) := by
  have counted : final.counts.count = (runs.map Run.work).sum := by
    have billed := h.billed_eq progress
    have nothing : fresh.billed = 0 := by
      rw [Session.billed, empty]
      rfl
    rwa [nothing, zero_add] at billed
  refine ⟨?_, ?_, h.events_eq progress, h.counted progress⟩
  · rcases resultOf_cases (b := b) s runs counted with
      ⟨failed, refused⟩ | ⟨⟨run, member, succeeded⟩, r, reported, -⟩
    · exact ⟨fun _ => failed, fun _ => refused⟩
    · refine ⟨fun refused => ?_, fun failed => ?_⟩
      · cases reported.symm.trans refused
      · cases succeeded.symm.trans (failed run member)
  · rintro ⟨run, member, succeeded⟩
    rcases resultOf_cases (b := b) s runs counted with ⟨failed, -⟩ | ⟨-, r, reported, reports⟩
    · cases succeeded.symm.trans (failed run member)
    · exact ⟨r, reported, reports⟩

variable (quiet : ∀ call, (b.guard call).Heeds Session.Progress)

include quiet

theorem profilePair_heeds (guarded : e.guard = b.guard) (index : Nat) (pair : Comparison) :
    (b.profilePair s e index pair).Heeds Session.Progress := by
  have neutral {s s' : Session} (events : s'.events = s.events) (counts : s'.counts = s.counts) :=
    Session.progress_of_counts events counts
  have supervised : e.Supervised Session.Progress :=
    ⟨fun call => guarded ▸ quiet call, Session.progress_count, fun _ _ => neutral rfl rfl⟩
  have verified : (b.verifyCodes s e index pair).Heeds Session.Progress :=
    (Heeds.ofExcept _).bind fun compiled => Matcher.verify_heeds supervised.heeds
      (fun _ => neutral rfl rfl) (fun _ => neutral rfl rfl) _ _ _ _ _ _
  unfold profilePair
  split
  · exact (MemoryProfile.around_heeds (fun _ => neutral rfl rfl) verified).bind fun _ => .done _
  · exact verified.bind fun _ => .done _

/-- A benchmark of a strategy raises what keeps its engine from being provided, or what the first
run raises that does not end. If all of its runs end, it accounts for them, whichever of them
failed: it is refused just if none succeeded, and otherwise it reports every one of them in its
place. -/
theorem runStrategy_accounts (s : Strategy) (pairs : List Comparison) (session : Session) :
    let provided :=
      (s.provide b.configuration b.seed b.allowReduced b.guard (b.tapeOf s)).run session
    let ended := (b.runStrategy s pairs).run session
    (∃ f after, provided = (.error f, after) ∧ ended = (.error f, after)) ∨
      ∃ e fresh, provided = (.ok e, fresh) ∧
        ((∃ done pair rest runs before f after, pairs = done ++ pair :: rest ∧
            b.Trail s e 0 fresh done runs before ∧
            (b.profilePair s e done.length pair).run before = (.error f, after) ∧
            (b.runPairs s e 0 pairs).run fresh = (.error f, after) ∧ ended = (.error f, after)) ∨
          ∃ runs final, b.Trail s e 0 fresh pairs runs final ∧ runs.length = pairs.length ∧
            Accounts s fresh runs ended) := by
  intro provided ended
  have reached : ended = _ := runStrategy_run s pairs session
  rcases outcome : provided with ⟨f | e, fresh⟩
  · refine .inl ⟨f, fresh, rfl, ?_⟩
    rw [reached, show (s.provide _ _ _ _ _).run session = _ from outcome]
  · rw [show (s.provide _ _ _ _ _).run session = _ from outcome] at reached
    dsimp only at reached
    obtain ⟨guarded, empty⟩ := Strategy.provide_fresh outcome
    refine .inr ⟨e, fresh, rfl, ?_⟩
    rcases runPairs_run (b := b) (s := s) (e := e) 0 pairs fresh with
      ⟨runs, final, trail, ran⟩ |
      ⟨done, pair, rest, runs, before, f, after, split, trail, raised, ran⟩
    · refine .inr ⟨runs, final, trail, trail.length_eq, ?_⟩
      rw [reached, ran]
      exact trail.accounts empty (profilePair_heeds quiet guarded)
    · rw [Nat.zero_add] at raised
      refine .inl ⟨done, pair, rest, runs, before, f, after, split, trail, raised, ran, ?_⟩
      rw [reached, ran]

omit quiet

open TemplateCompiler (ofTables ofTables_evaluated ofTables_eq_ok samplePolicy shallowTables placed
  staffed_placed noiseless operable_noiseless ready_noiseless)

/-- Engines lose their device when they encrypt. -/
def lostDevice : List PlannedFault :=
  [⟨.encrypt, .fault (.machine "device lost"), none, none, none, none⟩]

/-- A benchmark on engines that lose their device. -/
def struck (c : TemplateCompiler) : Benchmarker :=
  { noiseless c with guard := FaultPlan.guard lostDevice }

/-- Whether a benchmark is refused for a strategy. -/
def isRefusal (name : String) : Except Failure StrategyResult → Bool
  | .error (.benchmark n) => n == name
  | _ => false

theorem eq_of_isRefusal {name : String} {ended : Except Failure StrategyResult}
    (h : isRefusal name ended = true) : ended = .error (.benchmark name) := by
  unfold isRefusal at h
  split at h
  · rw [eq_of_beq h]
  · cases h

/-- Of two benchmarks one loses its device, and is refused; the other one succeeds, and reports. -/
theorem runStrategy_accounts_sample :
    ∃ c, ofTables samplePolicy shallowTables = .ok c ∧
      ((∀ call, ((struck c).guard call).Heeds Session.Progress) ∧
        ∃ fresh runs,
          let ended := ((struck c).runStrategy (placed .host)
            [⟨[1, 2], [0, 1]⟩, ⟨[1, 2], [0, 1]⟩]).run Session.start
          runs.length = 2 ∧ Accounts (placed .host) fresh runs ended ∧
            ended.1 = .error (.benchmark "placed") ∧ ∀ run ∈ runs, run.result.isFailed = true) ∧
      (∀ call, ((noiseless c).guard call).Heeds Session.Progress) ∧
        ∃ fresh runs r,
          let ended := ((noiseless c).runStrategy (placed .host) [⟨[1, 2], [0, 1]⟩]).run
            Session.start
          runs.length = 1 ∧ Accounts (placed .host) fresh runs ended ∧ ended.1 = .ok r ∧
            Reports r runs ∧ r.outcomes = [(noiseless c).expected ⟨[1, 2], [0, 1]⟩] := by
  have evaluated : ((ofTables samplePolicy shallowTables).toOption.map fun c =>
      (c.normalized.map (·.shape), c.normalized.all fun t => decide t.LargestFirst,
        let b := struck c
        let s := placed .host
        let pairs := [⟨[1, 2], [0, 1]⟩, ⟨[1, 2], [0, 1]⟩]
        match (s.provide b.configuration b.seed b.allowReduced b.guard (b.tapeOf s)).run
          Session.start with
        | (.error _, _) => false
        | (.ok e, fresh) => ((b.runPairs s e 0 pairs).run fresh).1.isOk &&
            isRefusal s.name ((b.runStrategy s pairs).run Session.start).1)) =
      some ([[2, 3], [2, 3]], true, true) := by
    decide +kernel
  obtain ⟨c, hc, seen⟩ := ofTables_evaluated evaluated
  obtain ⟨hshapes, seen⟩ := Prod.mk.inj seen
  obtain ⟨largest, seen⟩ := Prod.mk.inj seen
  dsimp only at seen
  have quiet : ∀ call, ((struck c).guard call).Heeds Session.Progress :=
    FaultPlan.guard_heeds lostDevice
  have unguarded : ∀ call, ((noiseless c).guard call).Heeds Session.Progress :=
    FaultPlan.guard_heeds []
  refine ⟨c, hc, ⟨quiet, ?_⟩, unguarded, ?_⟩
  · rcases runStrategy_accounts quiet (placed .host) [⟨[1, 2], [0, 1]⟩, ⟨[1, 2], [0, 1]⟩]
      Session.start with
      ⟨f, after, provided, -⟩ |
      ⟨e, fresh, provided, ⟨done, pair, rest, runs, before, f, after, -, -, -, raised, -⟩ |
        ⟨runs, final, -, length, accounts⟩⟩
    · rw [provided] at seen
      cases seen
    · rw [provided] at seen
      dsimp only at seen
      rw [raised] at seen
      cases seen
    · rw [provided] at seen
      have refused := eq_of_isRefusal (Bool.and_eq_true_iff.1 seen).2
      exact ⟨fresh, runs, length, accounts, refused, accounts.refused_iff.1 refused⟩
  · have policy := (ofTables_eq_ok hc).1
    have staffed : ∀ s ∈ [placed .host], s.Staffed := by simp [staffed_placed]
    have largestFirst : ∀ t ∈ c.normalized, t.LargestFirst := by simpa using largest
    have sound : (noiseless c).Sound shallowTables [placed .host] :=
      ⟨operable_noiseless c staffed, by rw [← policy] at hc; exact hc, largestFirst⟩
    obtain ⟨r, reached, outcomes⟩ := sound.runStrategy_ok (List.mem_singleton_self _)
      (fun _ => rfl) (ready_noiseless policy hshapes) Session.start
    rcases runStrategy_accounts unguarded (placed .host) [⟨[1, 2], [0, 1]⟩] Session.start with
      ⟨f, after, -, ended⟩ |
      ⟨e, fresh, -, ⟨done, pair, rest, runs, before, f, after, -, -, -, -, ended⟩ |
        ⟨runs, final, -, length, accounts⟩⟩
    · rw [ended] at reached
      cases reached
    · rw [ended] at reached
      cases reached
    · exact ⟨fresh, runs, r, length, accounts, reached, accounts.reports reached, outcomes⟩

end Benchmarker

end SealedMatch
