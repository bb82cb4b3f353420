/-
Module: SealedMatch.Proofs.Benchmark.Agreement
Purpose: On tables with the largest score in front, strategies agree whether they stop early or not.
Trusted boundary: none
Main exports: Benchmarker.Sound, Benchmarker.Ready, Benchmarker.run_ensures,
  TemplateCompiler.earlyStop_equivalent
-/
import SealedMatch.Benchmark.Benchmarker
import SealedMatch.Proofs.Benchmark.Provision
import SealedMatch.Proofs.Matching.EarlyStop

namespace SealedMatch

open Process hiding bind bind_assoc

/-! ### Runs -/

namespace MemoryProfile

variable {α : Type} {ready : Prop}

theorem reading_ensures (h : ¬ ready) :
    reading.Ensures Session.Undisputed ready fun _ => True := by
  unfold reading
  refine (Ensures.fetch (Q := fun _ => True) (fun _ => Session.undisputed_of_silent rfl)
    fun _ => trivial).bind fun bytes _ => ?_
  refine Ensures.ofExcept ?_
  cases (megabytes bytes).mapError Failure.fault with
  | ok x => trivial
  | error f => exact h

/-- Between two readings a process ends as it does alone, unless one of the readings fails. -/
theorem around_ensures (h : ¬ ready) {Q : α → Prop} {p : Process Session Failure α}
    (hp : p.Ensures Session.Undisputed ready Q) :
    (around p).Ensures Session.Undisputed ready fun x => Q x.1 := by
  have entered : enter.Ensures Session.Undisputed ready fun _ => True := by
    unfold enter
    exact (reading_ensures h).bind fun _ _ => Ensures.done trivial
  have updated : ∀ m : MemoryProfile, m.update.Ensures Session.Undisputed ready fun _ => True := by
    intro m
    unfold update
    exact (reading_ensures h).bind fun _ _ => Ensures.done trivial
  unfold around
  apply entered.bind
  intro m _
  apply hp.attempt.bind
  intro outcome houtcome
  apply (updated m).bind
  intro m' _
  apply (Ensures.ofExcept houtcome).bind
  intro a ha
  exact Ensures.done ha

end MemoryProfile

namespace Benchmarker

variable {b : Benchmarker} {tables : List TableSource} {strategies : List Strategy}
  {pairs : List Comparison} {s : Strategy} {e : SimulatedEngine}

/-- The decision on a pair by all of its digits. -/
def expected (b : Benchmarker) (pair : Comparison) : Option Bool :=
  some (decide (b.compiler.threshold ≤ (b.compiler.fullTrace pair.template pair.probe).total))

/-- No fault is injected into the engines of a benchmark, their noise is small enough, and the hosts
of its strategies have workers. -/
structure Operable (b : Benchmarker) (strategies : List Strategy) : Prop where
  unguarded : b.guard = SimulatedEngine.unguarded
  staffed : ∀ s ∈ strategies, s.Staffed
  noise_lt : ∀ s ∈ strategies, ∀ p, s.parameters b.configuration = .ok p → ∀ key position,
    6 * |(b.tapeOf s p (UInt64.ofInt b.seed)).noise key position| < spacing p.totalModulus

/-- An operable benchmark of tables with the largest score in front. -/
structure Sound (b : Benchmarker) (tables : List TableSource) (strategies : List Strategy) : Prop
    extends b.Operable strategies where
  compiler_eq : TemplateCompiler.ofTables b.configuration tables = .ok b.compiler
  largestFirst : ∀ t ∈ b.compiler.normalized, t.LargestFirst

/-- What keeps every run of a benchmark from failing. -/
structure Ready (b : Benchmarker) (pairs : List Comparison) : Prop where
  seed_nonneg : 0 ≤ b.seed
  unprofiled : b.profilesMemory = false
  nonempty : pairs ≠ []
  covers : ∀ pair ∈ pairs, b.compiler.Covers pair.template pair.probe
  columns_le : ∀ (s : Strategy) p, s.parameters b.configuration = .ok p →
    ∀ t ∈ b.compiler.normalized, ∀ rows columns, t.shape = [rows, columns] →
      columns ≤ p.totalModulus

/-- A run that succeeded with the decision that is expected on a pair. -/
def Decides (b : Benchmarker) (pair : Comparison) (r : Verification) : Prop :=
  r.isFailed = false ∧ outcome r = b.expected pair

theorem decides_of_status {pair : Comparison} {r : Verification}
    (h : r.status = (if b.compiler.threshold ≤
      (b.compiler.fullTrace pair.template pair.probe).total then .accept else .reject)) :
    b.Decides pair r := by
  unfold Decides outcome expected Verification.isFailed Verification.accepted
  rw [h]
  split
  · rename_i hreaches
    simp [hreaches]
  · rename_i hmisses
    simp [hmisses]

theorem Sound.verifyCodes_ensures (h : b.Sound tables strategies) (hs : s ∈ strategies)
    (he : s.Provided b.configuration e) {pair : Comparison} (hpair : pair ∈ pairs) (index : Nat) :
    (b.verifyCodes s e index pair).Ensures Session.Undisputed (b.Ready pairs)
      (b.Decides pair) := by
  obtain ⟨_, prepared⟩ := TemplateCompiler.ofTables_eq_ok h.compiler_eq
  have fits : b.Ready pairs → e.Fits b.compiler := fun hready =>
    ⟨he.faithful, he.messageBits_eq, he.carryBits_pos,
      hready.columns_le s e.parameters he.parameters_eq⟩
  unfold verifyCodes
  cases hcompile : b.compiler.compile pair.template s.earlyStop with
  | error f =>
      apply Ensures.fail
      intro hready
      obtain ⟨compiled, _, hcompiled, _⟩ := TemplateCompiler.accepted h.compiler_eq
        (hready.covers pair hpair) s.earlyStop
      rw [hcompile] at hcompiled
      cases hcompiled
  | ok compiled =>
      show (((e.matcher s).verify b.stamp pair.probe compiled b.configuration.datasetName false
        (b.schedule s index))).Ensures _ _ _
      cases hchecked : (e.matcher s).requireCompatible compiled >>= fun _ =>
          LookupPlan.build pair.probe compiled with
      | error f =>
          refine Always.mono (Matcher.verify_refused
            (fun _ => Session.undisputed_of_silent rfl) hchecked _ _ _ _) (fun _ _ hG => hG) ?_
          rintro _ rfl hready
          obtain ⟨compiled', plan, hcompiled, hplan, hosts⟩ := TemplateCompiler.accepted
            h.compiler_eq (hready.covers pair hpair) s.earlyStop
          rw [hcompile] at hcompiled
          cases hcompiled
          rw [(hosts e s (fits hready) (h.staffed s hs)).compatible, ok_bind, hplan] at hchecked
          cases hchecked
      | ok plan =>
          obtain ⟨_, hcompatible, hplan⟩ := bind_eq_ok hchecked
          have hosts : e.Hosts s compiled :=
            ⟨he.faithful, he.carryBits_pos, h.staffed s hs, hcompatible⟩
          exact (TemplateCompiler.verify_fullTrace prepared h.largestFirst hcompile hplan hosts _ _
            _ _).ensures (fun _ _ => Session.undisputed_of_silent) fun r hr =>
              decides_of_status hr.1

theorem Sound.profilePair_ensures (h : b.Sound tables strategies) (hs : s ∈ strategies)
    (he : s.Provided b.configuration e) {pair : Comparison} (hpair : pair ∈ pairs) (index : Nat) :
    (b.profilePair s e index pair).Ensures Session.Undisputed (b.Ready pairs)
      fun x => b.Decides pair x.1 := by
  have verified := h.verifyCodes_ensures hs he hpair index
  unfold profilePair
  split
  · rename_i hprofiles
    have unready : ¬ b.Ready pairs := by
      intro hready
      rw [hready.unprofiled] at hprofiles
      cases hprofiles
    exact (MemoryProfile.around_ensures unready verified).bind fun _ hx => Ensures.done hx
  · exact verified.bind fun _ hr => Ensures.done hr

/-- Pairs are decided one after another as expected, and no run fails. -/
theorem Sound.runPairs_ensures (h : b.Sound tables strategies) (hs : s ∈ strategies)
    (he : s.Provided b.configuration e) {rest : List Comparison}
    (hrest : ∀ pair ∈ rest, pair ∈ pairs) (index : Nat) :
    (b.runPairs s e index rest).Ensures Session.Undisputed (b.Ready pairs)
      fun runs => List.Forall₂ (fun pair x => b.Decides pair x.1) rest runs := by
  induction rest generalizing index with
  | nil => exact Ensures.done .nil
  | cons pair rest ih =>
      unfold runPairs
      apply (h.profilePair_ensures hs he (hrest pair (by simp)) index).bind
      intro here hhere
      rw [hhere.1]
      refine (ih (fun pair hpair => hrest pair (List.mem_cons_of_mem _ hpair)) (index + 1)).bind
        fun there hthere => ?_
      exact Ensures.done (.cons hhere hthere)

/-- Runs that all succeeded have a result. -/
theorem resultOf_meets {runs : List (Verification × Float)}
    (h : List.Forall₂ (fun pair x => b.Decides pair x.1) pairs runs)
    (counts : Tally CountedOperation) :
    Meets (b.Ready pairs) (fun r => r.outcomes = pairs.map b.expected)
      (b.resultOf s runs counts) := by
  have outcomes : (runs.map Prod.fst).map outcome = pairs.map b.expected := by
    induction h with
    | nil => rfl
    | cons head tail ih =>
        rw [List.map_cons, List.map_cons, List.map_cons, head.2, ih]
  unfold resultOf
  dsimp only
  split
  · rename_i hnone
    intro hready
    have none_left := (TimeStatistics.ofTimes?_eq_none_iff _).1 hnone
    cases h with
    | nil => exact hready.nonempty rfl
    | cons head tail =>
        rw [List.map_cons, List.filter_cons, if_pos (by rw [head.1]; rfl)] at none_left
        cases none_left
  · exact outcomes

/-- A strategy has the outcomes that are expected. -/
theorem Sound.runStrategy_ensures (h : b.Sound tables strategies) (hs : s ∈ strategies)
    (hallowed : s.lowersAssurance b.configuration = true → b.allowReduced = true) :
    (b.runStrategy s pairs).Ensures Session.Undisputed (b.Ready pairs)
      fun r => r.outcomes = pairs.map b.expected := by
  unfold runStrategy
  rw [h.unguarded]
  refine (Strategy.provide_ensures hallowed (fun hready : b.Ready pairs => hready.seed_nonneg)
    (h.noise_lt s hs)).bind fun e he => ?_
  apply (h.runPairs_ensures hs he (fun _ hpair => hpair) 0).bind
  intro runs hruns
  refine (Ensures.fetch (Q := fun _ => True) (fun _ => Session.undisputed_of_silent rfl)
    fun _ => trivial).bind fun counts _ => ?_
  exact Ensures.ofExcept (resultOf_meets hruns counts)

/-- What is in a list of named results after an assignment is the new result or was there before. -/
theorem mem_assign {α : Type} {entries : List (String × α)} {name : String} {a : α}
    {x : String × α} (h : x ∈ assign entries name a) : x ∈ entries ∨ x.2 = a := by
  unfold assign at h
  split at h
  · obtain ⟨y, hy, rfl⟩ := List.mem_map.1 h
    split
    · exact Or.inr rfl
    · exact Or.inl hy
  · rcases List.mem_append.1 h with hold | hnew
    · exact Or.inl hold
    · rw [List.mem_singleton.1 hnew]
      exact Or.inr rfl

theorem Sound.runFrom_ensures (h : b.Sound tables strategies) {rest : List Strategy}
    (hrest : ∀ s ∈ rest, s ∈ strategies) {results : List (String × StrategyResult)}
    (hresults : ∀ x ∈ results, x.2.outcomes = pairs.map b.expected) :
    (b.runFrom results pairs rest).Ensures Session.Undisputed (b.Ready pairs)
      fun results => ∀ x ∈ results, x.2.outcomes = pairs.map b.expected := by
  induction rest generalizing results with
  | nil => exact Ensures.done hresults
  | cons s rest ih =>
      have later : ∀ s ∈ rest, s ∈ strategies := fun s hs => hrest s (List.mem_cons_of_mem _ hs)
      unfold runFrom
      split
      · refine (Ensures.act (Q := fun _ => True) (Session.undisputed_warn fun event hevent => ?_)
          trivial).bind fun _ _ => ih later hresults
        rw [List.mem_singleton.1 hevent]
        show "Strategy skipped" ≠ _
        decide
      · rename_i hallowed
        refine (h.runStrategy_ensures (hrest s (by simp)) fun hlowers => ?_).bind
          fun r hr => ih later fun x hx => ?_
        · simpa [hlowers] using hallowed
        · rcases mem_assign hx with hold | hnew
          · exact hresults x hold
          · rw [hnew, hr]

theorem disagreement_eq_nil {results : List (String × StrategyResult)}
    {outcomes : List (Option Bool)} (h : ∀ x ∈ results, x.2.outcomes = outcomes) :
    disagreement results = [] := by
  cases results with
  | nil => rfl
  | cons first rest =>
      have same : rest.all (fun x => x.2.outcomes == first.2.outcomes) = true := by
        apply List.all_eq_true.2
        intro x hx
        rw [h first (by simp), h x (List.mem_cons_of_mem _ hx)]
        exact beq_self_eq_true _
      unfold disagreement
      exact if_pos same

/-- All strategies have the outcomes that are expected, and no disagreement is logged. -/
theorem Sound.run_ensures (h : b.Sound tables strategies) :
    (b.run strategies pairs).Ensures Session.Undisputed (b.Ready pairs)
      fun results => ∀ x ∈ results, x.2.outcomes = pairs.map b.expected := by
  unfold run
  apply (h.runFrom_ensures (fun _ hs => hs) (by simp)).bind
  intro results hresults
  refine (Ensures.act (Q := fun _ => True) (Session.undisputed_warn ?_) trivial).bind
    fun _ _ => Ensures.done hresults
  rw [disagreement_eq_nil hresults]
  simp

/-- A benchmark that is ready has results. -/
theorem Sound.run_ok (h : b.Sound tables strategies) (hready : b.Ready pairs)
    (session : Session) : ∃ results, ((b.run strategies pairs).run session).1 = .ok results := by
  have ended := (@run_ensures b tables strategies pairs h).run session
  cases hresults : ((b.run strategies pairs).run session).1 with
  | ok results => exact ⟨results, rfl⟩
  | error f =>
      rw [hresults] at ended
      exact absurd hready ended

end Benchmarker

/-! ### Equivalence -/

namespace TemplateCompiler

variable {configuration : MatchPolicy} {tables : List TableSource} {c : TemplateCompiler}

/-- Where the first cell of every table holds its largest score, a template compiled without leading
zero digits is verified like one with all of them: both have one threshold, one status and one
trace, on any engines and strategies. So strategies that differ in this have equal outcomes in a
benchmark, and none logs a disagreement. -/
theorem earlyStop_equivalent (hc : ofTables configuration tables = .ok c)
    (hlargest : ∀ t ∈ c.normalized, t.LargestFirst) :
    (∀ template probe, c.Covers template probe → ∃ full short : EnrolledTemplate,
      c.compile template false = .ok full ∧ c.compile template true = .ok short ∧
      full.threshold = short.threshold ∧
      ∀ (e e' : SimulatedEngine) (s s' : Strategy), e.Fits c → e'.Fits c → s.Staffed → s'.Staffed →
      ∀ (stamp : Stamp) (datasetName : String) (debug : Bool) (schedule schedule' : Schedule)
        (session session' : Session), ∃ r r',
        (((e.matcher s).verify stamp probe full datasetName debug schedule).run session).1 =
          .ok r ∧
        (((e'.matcher s').verify stamp probe short datasetName debug schedule').run session').1 =
          .ok r' ∧
        r.status = r'.status ∧ r.trace? = r'.trace? ∧
        r.status = (if c.threshold ≤ (c.fullTrace template probe).total then .accept else .reject) ∧
        r.trace? = if debug then some (c.fullTrace template probe) else none) ∧
    ∀ (b : Benchmarker) (strategies : List Strategy), b.compiler = c → b.Operable strategies →
    ∀ (pairs : List Comparison) (session : Session),
      session.Undisputed ((b.run strategies pairs).run session).2 ∧
      ∀ results, ((b.run strategies pairs).run session).1 = .ok results →
        ∀ x ∈ results, ∀ y ∈ results, x.2.outcomes = y.2.outcomes := by
  obtain ⟨rfl, prepared⟩ := ofTables_eq_ok hc
  constructor
  · intro template probe hcovers
    obtain ⟨full, plan, hfull, hplan, hosts⟩ := accepted hc hcovers false
    obtain ⟨short, plan', hshort, hplan', hosts'⟩ := accepted hc hcovers true
    have threshold : full.threshold = short.threshold :=
      (prepared.compile_eq_ok hfull).1.trans (prepared.compile_eq_ok hshort).1.symm
    refine ⟨full, short, hfull, hshort, threshold, ?_⟩
    intro e e' s s' hfits hfits' hstaffed hstaffed' stamp datasetName debug schedule schedule'
      session session'
    obtain ⟨r, hr, status, trace⟩ := (verify_fullTrace prepared hlargest hfull hplan
      (hosts e s hfits hstaffed) stamp datasetName debug schedule).run session
    obtain ⟨r', hr', status', trace'⟩ := (verify_fullTrace prepared hlargest hshort hplan'
      (hosts' e' s' hfits' hstaffed') stamp datasetName debug schedule').run session'
    exact ⟨r, r', hr, hr', status.trans status'.symm, trace.trans trace'.symm, status, trace⟩
  · rintro b strategies rfl hoperable pairs session
    have sound : b.Sound tables strategies := ⟨hoperable, hc, hlargest⟩
    have ensured := @Benchmarker.Sound.run_ensures b tables strategies pairs sound
    refine ⟨Session.undisputed_run (ensured.run_state session), fun results hresults => ?_⟩
    have expected := ensured.run session
    rw [hresults] at expected
    exact fun x hx y hy => (expected x hx).trans (expected y hy).symm

/-! ### A run -/

/-- A benchmark on engines without noise. -/
def noiseless (c : TemplateCompiler) : Benchmarker where
  compiler := c
  seed := 0
  profilesMemory := false
  allowReduced := true
  stamp := sampleStamp
  guard := SimulatedEngine.unguarded
  schedule := fun _ _ => []
  tapeOf := fun _ _ _ => ⟨fun _ => 0, fun _ _ => 0⟩

/-- A strategy that stops early. -/
def early : Strategy :=
  { placed .accelerator with name := "early", earlyStop := true }

theorem staffed_early : early.Staffed := ⟨1, rfl, le_refl 1⟩

theorem operable_noiseless (c : TemplateCompiler) {strategies : List Strategy}
    (hstaffed : ∀ s ∈ strategies, s.Staffed) : (noiseless c).Operable strategies := by
  refine ⟨rfl, hstaffed, fun s _ p hp key position => ?_⟩
  obtain ⟨p', hp', _, _, total, _⟩ := LweParameters.select_digits s.primitive
    c.configuration.digitSystem (s.lookupOn = .accelerator)
  have same : p' = p := Except.ok.inj (hp'.symm.trans hp)
  subst same
  show 6 * |(0 : Int)| < _
  have positive : 0 < p'.totalModulus := Nat.mul_pos (Nat.two_pow_pos _) (Nat.two_pow_pos _)
  have : 0 < spacing p'.totalModulus :=
    Nat.div_pos (by unfold ciphertextModulus; omega) (by omega)
  simpa using this

theorem ready_noiseless {c : TemplateCompiler} (hpolicy : c.configuration = samplePolicy)
    (hshapes : c.normalized.map (·.shape) = [[2, 3], [2, 3]]) :
    (noiseless c).Ready [⟨[1, 2], [0, 1]⟩] := by
  refine ⟨le_refl 0, rfl, by simp, fun pair hpair => ?_, fun s p hp t ht rows columns hshape => ?_⟩
  · rw [List.mem_singleton.1 hpair]
    exact covers_sample hshapes
  · obtain ⟨p', hp', hmessage, hcarry, _⟩ := LweParameters.select_digits s.primitive
      c.configuration.digitSystem (s.lookupOn = .accelerator)
    have same : p' = p := Except.ok.inj (hp'.symm.trans hp)
    subst same
    have four : p'.totalModulus = 4 := by
      unfold LweParameters.totalModulus LweParameters.messageModulus LweParameters.carryModulus
      rw [hmessage, hcarry, hpolicy]
      rfl
    have mem : t.shape ∈ c.normalized.map (·.shape) := List.mem_map_of_mem ht
    rw [hshapes, hshape] at mem
    have three : rows = 2 ∧ columns = 3 := by simpa using mem
    omega

theorem earlyStop_equivalent_shallow :
    ∃ c, ofTables samplePolicy shallowTables = .ok c ∧ (∀ t ∈ c.normalized, t.LargestFirst) ∧
      c.Covers [0, 1] [1, 2] ∧ SimulatedEngine.smallest.Fits c ∧
      (∃ full short r r', c.compile [0, 1] false = .ok full ∧ c.compile [0, 1] true = .ok short ∧
        full.threshold = short.threshold ∧ full.digitCounts = [2, 2] ∧
        short.digitCounts = [1, 0] ∧
        (((SimulatedEngine.smallest.matcher (placed .host)).verify sampleStamp [1, 2] full
          "faces" true []).run Session.start).1 = .ok r ∧
        (((SimulatedEngine.smallest.matcher (placed .accelerator)).verify sampleStamp [1, 2]
          short "faces" true [1]).run Session.start).1 = .ok r' ∧
        r.status = r'.status ∧ r.trace? = r'.trace? ∧
        r.trace? = some (c.fullTrace [0, 1] [1, 2])) ∧
      ∃ results,
        (((noiseless c).run [placed .host, early] [⟨[1, 2], [0, 1]⟩]).run Session.start).1 =
          .ok results ∧
        (∀ x ∈ results, ∀ y ∈ results, x.2.outcomes = y.2.outcomes) ∧
        Session.start.Undisputed
          (((noiseless c).run [placed .host, early] [⟨[1, 2], [0, 1]⟩]).run Session.start).2 := by
  have evaluated : ((ofTables samplePolicy shallowTables).toOption.map fun c =>
      (c.normalized.map (·.shape), c.normalized.all fun t => decide t.LargestFirst,
        [false, true].map fun earlyStop =>
          (c.compile [0, 1] earlyStop).toOption.map (·.digitCounts))) =
        some ([[2, 3], [2, 3]], true, [some [2, 2], some [1, 0]]) := by
    decide +kernel
  obtain ⟨c, hc, seen⟩ := ofTables_evaluated evaluated
  obtain ⟨hshapes, seen⟩ := Prod.mk.inj seen
  obtain ⟨largest, counts⟩ := Prod.mk.inj seen
  have largestFirst : ∀ t ∈ c.normalized, t.LargestFirst := by simpa using largest
  have policy := (ofTables_eq_ok hc).1
  have covers := covers_sample hshapes
  have fits := fits_smallest policy hshapes
  have staffed : ∀ s ∈ [placed .host, early], s.Staffed := by
    simp [staffed_placed, staffed_early]
  obtain ⟨same, agreed⟩ := earlyStop_equivalent hc largestFirst
  obtain ⟨full, short, hfull, hshort, threshold, verified⟩ := same [0, 1] [1, 2] covers
  obtain ⟨r, r', hr, hr', status, trace, _, shown⟩ := verified _ _ _ _ fits fits
    (staffed_placed .host) (staffed_placed .accelerator) sampleStamp "faces" true [] [1]
    Session.start Session.start
  obtain ⟨undisputed, equal⟩ := agreed (noiseless c) _ rfl (operable_noiseless c staffed)
    [⟨[1, 2], [0, 1]⟩] Session.start
  rw [List.map_cons, List.map_cons, hfull, hshort] at counts
  simp only [Except.toOption, Option.map_some, List.map_nil, List.cons.injEq, Option.some.injEq,
    and_true] at counts
  have sound : (noiseless c).Sound shallowTables [placed .host, early] :=
    ⟨operable_noiseless c staffed, by rw [← policy] at hc; exact hc, largestFirst⟩
  obtain ⟨results, hresults⟩ := sound.run_ok (ready_noiseless policy hshapes) Session.start
  exact ⟨c, hc, largestFirst, covers, fits, ⟨full, short, r, r', hfull, hshort, threshold, counts.1,
    counts.2, hr, hr', status, trace, shown⟩, results, hresults, equal results hresults, undisputed⟩

end TemplateCompiler

end SealedMatch
