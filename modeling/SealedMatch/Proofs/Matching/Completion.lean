/-
Module: SealedMatch.Proofs.Matching.Completion
Purpose: An authentication refuses its input with the engine untouched, or it comes to a decision,
  however large the noise.
Trusted boundary: none
Main exports: SimulatedEngine.FormedSum, SimulatedEngine.addFeature_formed,
  SimulatedEngine.authenticate_completes, TemplateCompiler.authenticate_outcome,
  TemplateCompiler.authenticate_refuses_or_decides
-/
import SealedMatch.Proofs.Engine.Totality
import SealedMatch.Proofs.Matching.Admission
import SealedMatch.Proofs.Matching.Independence

namespace SealedMatch

open Process hiding bind bind_assoc

namespace SimulatedEngine

variable {e : SimulatedEngine} {s : Strategy} {width : Nat} {debug : Bool}

/-! ### Sums of well-formed digits -/

/-- The sum is well formed, and it names the features taken so far, the last one first, if their
values are to be shown. -/
structure FormedSum (e : SimulatedEngine) (width : Nat) (debug : Bool) (done : List Nat)
    (sum : Matcher.Sum LweBlock) : Prop where
  total : e.FormedInteger width sum.total
  names_eq : sum.values.map Prod.fst = if debug then done.reverse else []

/-- Digits under the large key are well formed, whatever they stand for. -/
theorem formedInteger_answers {rows : List (List Evaluation)} {f : Nat} {row : List ClearBlock}
    (hrow : (answers rows)[f]? = some row) {cs : List LweBlock}
    (hcs : List.Forall₂ (e.Encodes 0) cs row) :
    e.FormedInteger row.length ⟨cs⟩ ∧ ∃ evaluations ∈ rows, row.length = evaluations.length := by
  unfold answers at hrow
  rw [List.getElem?_map, Option.map_eq_some_iff] at hrow
  obtain ⟨evaluations, hmem, rfl⟩ := hrow
  refine ⟨⟨hcs.length_eq, ?_⟩, evaluations, List.mem_of_getElem? hmem, by simp⟩
  rw [List.forall₂_map_right_iff] at hcs
  exact forall₂_left hcs fun c x hc => hc.formed

/-- Each feature is added, whatever its digits stand for. -/
theorem addFeature_formed (h : e.Faithful 0) (s : Strategy) {rows : List (List Evaluation)}
    (hcount : ∀ row ∈ rows, row.length ≤ width) (debug : Bool) :
    Takes Session.Silent (e.Encodes 0) (answers rows) (e.FormedSum width debug)
      ((e.matcher s).addFeature width debug) := by
  intro done sum f cs row hsum _ hrow hcs
  obtain ⟨hdigits, evaluations, hmem, hlength⟩ := formedInteger_answers hrow hcs
  have few : row.length ≤ width := hlength ▸ hcount evaluations hmem
  unfold Matcher.addFeature
  refine Matcher.during_yields ?_ _
  apply (widen_formed h.intact hdigits few).bind
  intro wide hwide
  have names := hsum.names_eq
  cases debug with
  | true =>
      simp only [if_true] at names ⊢
      apply (decryptInteger_formed h.intact hwide).bind
      intro score _
      apply (add_formed h.intact hsum.total hwide).bind
      intro total htotal
      exact Yields.done ⟨htotal, by simp [names]⟩
  | false =>
      simp only [Bool.false_eq_true, if_false] at names ⊢
      apply (add_formed h.intact hsum.total hwide).bind
      intro total htotal
      exact Yields.done ⟨htotal, by simpa using names⟩

/-! ### From the checks to the decision -/

section Completing

variable {compiled : EnrolledTemplate} {d : DigitSystem} {features : List EnrolledFeature}
  {probe : List Int} {plan : LookupPlan}

/-- The plan of a compatible template runs its evaluations. -/
theorem runs_of_compatible {margin : Nat} (h : e.Faithful margin)
    (hcompiled : compiled.Holds d width features)
    (hcompatible : (e.matcher s).requireCompatible compiled = .ok ())
    (hplan : LookupPlan.build probe compiled = .ok plan) :
    e.clear.Sized ∧ plan.Runs (encounterRows e.messageModulus (features.zip probe)) ∧
      (∀ y ∈ (encounterRows e.messageModulus (features.zip probe)).flatten, y.Sound e.clear) ∧
      (∀ x ∈ features.zip probe, x.1.count ≤ width) ∧
      plan.featureCount = (encounterRows e.messageModulus (features.zip probe)).length := by
  obtain ⟨hradix, hdomains⟩ := Matcher.requireCompatible_eq_ok hcompatible
  have two : 2 ≤ e.messageModulus := by
    have same : (d.radix : Int) = e.messageModulus := hcompiled.radix_eq.symm.trans hradix
    have := d.two_le_radix
    omega
  have sized := sized_clear h two
  obtain ⟨runs, sound, few, count⟩ := Matcher.plan_runs sized hcompiled hradix hdomains hplan
  exact ⟨sized, runs, sound, few, count.trans (List.length_map _).symm⟩

/-- All features are added up, and if values are shown each feature has one. -/
theorem sumFeatures_completes (h : e.Faithful 0) (hstaffed : s.Staffed)
    (hcompiled : compiled.Holds d width features)
    (hcompatible : (e.matcher s).requireCompatible compiled = .ok ())
    (hplan : LookupPlan.build probe compiled = .ok plan) (debug : Bool) (schedule : Schedule) :
    ((e.matcher s).sumFeatures plan width debug schedule).Yields Session.Silent fun sum =>
      ∃ done, done.Perm (List.range plan.featureCount) ∧ e.FormedSum width debug done sum := by
  obtain ⟨sized, runs, sound, few, count⟩ := runs_of_compatible h hcompiled hcompatible hplan
  have short : ∀ row ∈ encounterRows e.messageModulus (features.zip probe),
      row.length ≤ width := by
    intro row hrow
    obtain ⟨x, hx, rfl⟩ := List.mem_map.1 hrow
    rw [EnrolledFeature.length_evaluations]
    exact few x hx
  have start : ((e.matcher s).engine.publicZero width).Yields Session.Silent fun zero =>
      e.FormedSum width debug [] ⟨zero, []⟩ := by
    apply (publicZero_formed h.intact width).mono
    intro zero hzero
    exact ⟨by simpa using hzero, by cases debug <;> rfl⟩
  rw [count]
  exact Matcher.sumFeatures_keeps h.evaluates sized hstaffed runs sound
    (addFeature_formed h s short debug) start schedule

/-- Admitted inputs come to a decision, and to a trace if it is asked for. -/
theorem authenticate_completes (h : e.Faithful 0) (hstaffed : s.Staffed)
    (hcompiled : compiled.Holds d width features)
    (hscreen : (e.matcher s).screen probe compiled = .ok plan) (debug : Bool)
    (schedule : Schedule) :
    ((e.matcher s).authenticate probe compiled debug schedule).Yields Session.Silent
      fun decision => decision.trace?.isSome = debug := by
  obtain ⟨_, hcompatible, hplan⟩ := bind_eq_ok hscreen
  have silent : ∀ session, Session.Silent session session.begin := fun _ => rfl
  have silent' : ∀ session, Session.Silent session session.tick := fun _ => rfl
  have summed := sumFeatures_completes h hstaffed hcompiled hcompatible hplan debug schedule
  rw [← hcompiled.sumWidth_eq] at summed
  refine (Matcher.authenticate_keeps silent silent' hcompatible hplan
    (P := fun _ => True) (T := fun _ => True) summed ?_ ?_).mono ?_
  · rintro sum ⟨done, _, hsum⟩
    exact (atLeast_formed h.intact hsum.total compiled.threshold).mono fun _ _ => trivial
  · rintro _ sum ⟨done, _, hsum⟩
    apply (decryptInteger_formed h.intact hsum.total).bind
    intro _ _
    exact Yields.done trivial
  · rintro decision ⟨_, htrace⟩
    cases debug with
    | true =>
        obtain ⟨trace, htrace, _⟩ := htrace
        rw [htrace]
        rfl
    | false =>
        rw [show decision.trace? = none from htrace]
        rfl

end Completing

end SimulatedEngine

/-! ### Refusals and decisions -/

/-- How an authentication ends, in terms of its inputs:

* a configuration failure says that the template does not fit the engine, and nothing else does;
* otherwise an input failure says that the lengths differ;
* otherwise a domain failure says that a feature with a lookup meets a code outside of it, and names
  the lowest such feature;
* after a failure the session is as it was before, but for the mark that an authentication began;
* in every other case there is a decision, with a trace if it was asked for. -/
structure RefusesOrDecides {C : Type} (t : EnrolledTemplate) (radix total : Nat) (probe : List Int)
    (debug : Bool) (before : Session) (outcome : Except Failure (SealedDecision C) × Session) :
    Prop where
  configuration : (∃ cause, outcome.1 = .error (.configuration cause)) ↔ t.Misfits radix total
  input : (∃ cause, outcome.1 = .error (.input cause)) ↔
    ¬ t.Misfits radix total ∧ probe.length ≠ t.featureCount
  domain : (∃ cause, outcome.1 = .error (.domain cause)) ↔
    ¬ t.Misfits radix total ∧ probe.length = t.featureCount ∧
      ∃ f code size, t.Outside probe f code size
  lowest : ∀ cause, outcome.1 = .error (.domain cause) →
    ∃ (f : Nat) (code : Int) (size : Nat), cause = .probeCode f code size ∧
      t.FirstOutside probe f code size
  untouched : ∀ failure, outcome.1 = .error failure →
    outcome.2 = { before with authentications := before.authentications + 1 }
  decision : (∃ decision, outcome.1 = .ok decision ∧ decision.trace?.isSome = debug) ↔
    ¬ t.Misfits radix total ∧ probe.length = t.featureCount ∧
      ∀ f code size, ¬ t.Outside probe f code size

/-- An authentication that ends by its checks: a failure of theirs is its failure, with nothing done
but to mark its beginning, and a plan of theirs leads to a decision. -/
def EndsByChecks {C : Type} (debug : Bool) (before : Session)
    (outcome : Except Failure (SealedDecision C) × Session) : Except Failure LookupPlan → Prop
  | .ok _ => ∃ decision, outcome.1 = .ok decision ∧ decision.trace?.isSome = debug
  | .error failure => outcome = (.error failure, before.begin)

/-- What the checks say of the inputs is what the end of the authentication says of them. -/
theorem Admission.refusesOrDecides {C : Type} {t : EnrolledTemplate} {radix total : Nat}
    {probe : List Int} {debug : Bool} {before : Session} {checks : Except Failure LookupPlan}
    {outcome : Except Failure (SealedDecision C) × Session}
    (h : Admission t radix total probe checks) (hends : EndsByChecks debug before outcome checks) :
    RefusesOrDecides t radix total probe debug before outcome := by
  cases h with
  | misfit misfits cause =>
      cases hends
      constructor <;> simp [misfits, Session.begin]
  | unequal fits unequal =>
      cases hends
      constructor <;> simp [fits, unequal, Session.begin]
  | outside fits equal first =>
      cases hends
      have outside : ∃ f code size, t.Outside probe f code size := ⟨_, _, _, first.toOutside⟩
      constructor
      · simp [fits]
      · simp [equal]
      · simp [fits, equal, outside]
      · rintro cause ⟨⟩
        exact ⟨_, _, _, rfl, first⟩
      · rintro failure ⟨⟩
        rfl
      · simp [fits, equal, outside]
  | admitted fits equal inside plan =>
      obtain ⟨decision, hdecision, htrace⟩ := hends
      constructor <;> simp [fits, equal, inside, hdecision, htrace]

namespace TemplateCompiler

section Outcomes

variable {configuration : MatchPolicy} {tables : List TableSource} {c : TemplateCompiler}
  {template : List Int} {earlyStop : Bool} {compiled : EnrolledTemplate} {p : LweParameters}
  {tape : Tape} {e : SimulatedEngine} {s : Strategy}

/-- On an engine, an authentication of a compiled template ends by its checks. -/
theorem authenticate_outcome (hc : ofTables configuration tables = .ok c)
    (hcompile : c.compile template earlyStop = .ok compiled)
    (he : SimulatedEngine.ofTape p tape SimulatedEngine.unguarded = .ok e)
    (hbits : p.messageBits + p.carryBits ≤ 31) (hstaffed : s.Staffed) (probe : List Int)
    (debug : Bool) (schedule : Schedule) (session : Session) :
    EndsByChecks debug session
      (((e.matcher s).authenticate probe compiled debug schedule).run session)
      ((e.matcher s).screen probe compiled) := by
  obtain ⟨_, prepared⟩ := ofTables_eq_ok hc
  obtain ⟨features, holds, _⟩ := prepared.holds hcompile
  cases hscreen : (e.matcher s).screen probe compiled with
  | ok plan =>
      exact (SimulatedEngine.authenticate_completes (SimulatedEngine.faithful_of_bits he hbits)
        hstaffed holds hscreen debug schedule).run session
  | error failure => exact Matcher.authenticate_run_of_refused hscreen debug schedule session

/-- For every compiled template, probe, engine, strategy, noise and schedule, an authentication is
refused with the engine untouched or comes to a decision, just as the checks say. If values are
shown, the sum holds one for every feature. -/
theorem authenticate_refuses_or_decides (hc : ofTables configuration tables = .ok c)
    (hcompile : c.compile template earlyStop = .ok compiled)
    (he : SimulatedEngine.ofTape p tape SimulatedEngine.unguarded = .ok e)
    (hbits : p.messageBits + p.carryBits ≤ 31) (hstaffed : s.Staffed) (probe : List Int)
    (debug : Bool) (schedule : Schedule) (session : Session) :
    RefusesOrDecides compiled e.messageModulus e.totalModulus probe debug session
        (((e.matcher s).authenticate probe compiled debug schedule).run session) ∧
      ∀ plan, (e.matcher s).screen probe compiled = .ok plan →
        ((e.matcher s).sumFeatures plan compiled.sumWidth debug schedule).Yields Session.Silent
          fun sum => debug = true →
            (sum.values.map Prod.fst).Perm (List.range plan.featureCount) := by
  obtain ⟨_, prepared⟩ := ofTables_eq_ok hc
  obtain ⟨features, holds, _⟩ := prepared.holds hcompile
  have faithful := SimulatedEngine.faithful_of_bits he hbits
  constructor
  · exact (Matcher.screen_admission holds.measured (e.matcher s) probe).refusesOrDecides
      (authenticate_outcome hc hcompile he hbits hstaffed probe debug schedule session)
  · intro plan hscreen
    obtain ⟨_, hcompatible, hplan⟩ := bind_eq_ok hscreen
    rw [holds.sumWidth_eq]
    refine (SimulatedEngine.sumFeatures_completes faithful hstaffed holds hcompatible hplan debug
      schedule).mono ?_
    rintro sum ⟨done, hdone, hsum⟩ rfl
    rw [hsum.names_eq, if_pos rfl]
    exact (List.reverse_perm done).trans hdone

end Outcomes

/-- A tape with noise beyond every spacing. -/
def wildTape : Tape := ⟨fun position => position.toUInt32, fun _ position => 10 ^ 12 + position⟩

/-- However wild the noise, a probe within the tables comes to a decision. -/
theorem authenticate_refuses_or_decides_wild :
    ∃ c compiled e, ofTables samplePolicy sampleTables = .ok c ∧
      c.compile [0, 1] true = .ok compiled ∧
      SimulatedEngine.ofTape SimulatedEngine.smallest.parameters wildTape
        SimulatedEngine.unguarded = .ok e ∧
      RefusesOrDecides compiled e.messageModulus e.totalModulus [1, 2] true Session.start
        (((e.matcher (placed .accelerator)).authenticate [1, 2] compiled true [1, 0]).run
          Session.start) ∧
      ∃ plan, (e.matcher (placed .accelerator)).screen [1, 2] compiled = .ok plan ∧
        ((e.matcher (placed .accelerator)).sumFeatures plan compiled.sumWidth true [1, 0]).Yields
          Session.Silent fun sum =>
            (sum.values.map Prod.fst).Perm (List.range plan.featureCount) := by
  have accepted : (do
      let c ← ofTables samplePolicy sampleTables
      let compiled ← c.compile [0, 1] true
      let e ← SimulatedEngine.ofTape SimulatedEngine.smallest.parameters wildTape
        SimulatedEngine.unguarded
      (e.matcher (placed .accelerator)).screen [1, 2] compiled).isOk = true := by
    decide +kernel
  obtain ⟨plan, hu⟩ := exists_of_isOk accepted
  obtain ⟨c, hc, hu⟩ := bind_eq_ok hu
  obtain ⟨compiled, hcompile, hu⟩ := bind_eq_ok hu
  obtain ⟨e, he, hscreen⟩ := bind_eq_ok hu
  obtain ⟨ends, summed⟩ := authenticate_refuses_or_decides hc hcompile he (by decide)
    (staffed_placed .accelerator) [1, 2] true [1, 0] Session.start
  exact ⟨c, compiled, e, hc, hcompile, he, ends, plan, hscreen,
    (summed plan hscreen).mono fun _ names => names rfl⟩

end TemplateCompiler

end SealedMatch
