/-
Module: SealedMatch.Proofs.Benchmark.Provision
Purpose: The engine that a strategy is provided with decodes, and providing it disputes nothing.
Trusted boundary: none
Main exports: Session.Undisputed, LweParameters.select_digits, Strategy.Provided,
  Strategy.provide_ensures
-/
import SealedMatch.Proofs.Matching.Acceptance

namespace SealedMatch

open Process hiding bind bind_assoc

/-! ### The log -/

/-- No disagreement of strategies is logged between two states. -/
def Session.Undisputed (s s' : Session) : Prop :=
  ∀ event ∈ s'.events, event ∈ s.events ∨ event.message ≠ "Strategies disagree on outcomes"

namespace Session

theorem undisputed_of_silent {s s' : Session} (h : s.Silent s') : s.Undisputed s' := by
  intro event hevent
  rw [h] at hevent
  exact Or.inl hevent

theorem undisputed_warn {events : List Event}
    (h : ∀ event ∈ events, event.message ≠ "Strategies disagree on outcomes") (s : Session) :
    s.Undisputed (s.warn events) := by
  intro event hevent
  rcases List.mem_append.1 hevent with hold | hnew
  · exact Or.inl hold
  · exact Or.inr (h event hnew)

/-- Nothing is disputed along a run of which no action is. -/
theorem undisputed_run {s s' : Session} (h : Relation.ReflTransGen Undisputed s s') :
    s.Undisputed s' := by
  induction h with
  | refl => exact fun event hevent => Or.inl hevent
  | tail _ last ih =>
      intro event hevent
      rcases last event hevent with hold | hother
      · exact ih event hold
      · exact Or.inr hother

end Session

/-! ### Engines of strategies -/

/-- There are parameters for all digits, with as many carry bits as message bits. -/
theorem LweParameters.select_digits (primitive : BootstrapKind) (d : DigitSystem)
    (accelerated : Bool) :
    ∃ p, select primitive d.blockLength accelerated = .ok p ∧ p.messageBits = d.blockLength ∧
      p.carryBits = d.blockLength ∧ p.totalModulus ≤ 2 ^ 31 ∧ 0 ≤ p.lweDimension ∧
      0 ≤ p.polynomialSize := by
  have pos := d.blockLength_pos
  have le := d.blockLength_le
  have lengths : d.blockLength = 1 ∨ d.blockLength = 2 ∨ d.blockLength = 3 ∨
      d.blockLength = 4 := by omega
  rcases lengths with h | h | h | h <;> rw [h] <;> cases primitive <;> cases accelerated <;>
    exact ⟨_, rfl, rfl, rfl, by decide, by decide, by decide⟩

theorem SimulatedEngine.warnings_quiet (p : LweParameters) :
    ∀ event ∈ warnings p, event.message ≠ "Strategies disagree on outcomes" := by
  intro event hevent
  unfold warnings at hevent
  split at hevent
  · rw [List.mem_singleton.1 hevent]
    show "Parameter set below security target" ≠ _
    decide
  · cases hevent

/-- What is known of the engine of a strategy. -/
structure Strategy.Provided (s : Strategy) (c : MatchPolicy) (e : SimulatedEngine) : Prop where
  faithful : e.Faithful 6
  parameters_eq : s.parameters c = .ok e.parameters
  messageBits_eq : e.parameters.messageBits = c.digitSystem.blockLength
  carryBits_pos : 1 ≤ e.parameters.carryBits

namespace Strategy

variable {s : Strategy} {c : MatchPolicy} {allow : Bool} {ready : Prop}

theorem requireAssurance_ok (h : s.lowersAssurance c = true → allow = true) :
    ∃ events, s.requireAssurance c allow = .ok events ∧
      ∀ event ∈ events, event.message ≠ "Strategies disagree on outcomes" := by
  unfold requireAssurance
  by_cases hlowers : s.lowersAssurance c = true
  · rw [if_neg (by simp [hlowers]), if_neg (by simp [h hlowers])]
    refine ⟨_, rfl, fun event hevent => ?_⟩
    rw [List.mem_singleton.1 hevent]
    show "Running reduced-assurance strategy" ≠ _
    decide
  · rw [if_pos (by simp [hlowers])]
    exact ⟨[], rfl, by simp⟩

/-- An engine is provided unless the seed is negative, and its noise is as small as that of its
tape. -/
theorem provide_ensures (hallowed : s.lowersAssurance c = true → allow = true) {seed : Int}
    (hseed : ready → 0 ≤ seed) {tapeOf : LweParameters → UInt64 → Tape}
    (hnoise : ∀ p, s.parameters c = .ok p → ∀ key position,
      6 * |(tapeOf p (UInt64.ofInt seed)).noise key position| < spacing p.totalModulus) :
    (s.provide c seed allow SimulatedEngine.unguarded tapeOf).Ensures Session.Undisputed ready
      (s.Provided c) := by
  obtain ⟨events, hevents, hquiet⟩ := requireAssurance_ok hallowed
  obtain ⟨p, hp, hmessage, hcarry, total, hsmall, hlarge⟩ :=
    LweParameters.select_digits s.primitive c.digitSystem (s.lookupOn = .accelerator)
  have bits := c.digitSystem.blockLength_le
  obtain ⟨e, he, hparameters⟩ := SimulatedEngine.ofTape_ok hsmall hlarge total
    (tapeOf p (UInt64.ofInt seed)) SimulatedEngine.unguarded
  have provided : s.Provided c e := by
    refine ⟨SimulatedEngine.faithful_ofTape he (by omega) fun key position => ?_, ?_, ?_, ?_⟩
    · exact_mod_cast hnoise p hp key position
    · rw [hparameters]
      exact hp
    · rw [hparameters, hmessage]
    · rw [hparameters, hcarry]
      exact c.digitSystem.blockLength_pos
  unfold provide
  apply (Ensures.ofExcept_ok hevents).bind
  intro _ hsame
  rw [hsame]
  apply (Ensures.act (Q := fun _ => True) (Session.undisputed_warn hquiet) trivial).bind
  intro _ _
  apply (Ensures.ofExcept_ok (show s.parameters c = .ok p from hp)).bind
  intro _ hsame
  rw [hsame]
  unfold SimulatedEngine.launch
  split
  · exact Ensures.fail fun hready => absurd (hseed hready) (by omega)
  · unfold SimulatedEngine.install
    apply (Ensures.ofExcept_ok he).bind
    intro _ hsame
    rw [hsame]
    have renewed : ∀ session : Session, session.Undisputed (session.renew e.firstFree) :=
      fun _ => Session.undisputed_of_silent rfl
    have warned := Session.undisputed_warn (SimulatedEngine.warnings_quiet p)
    apply (Ensures.act (Q := fun _ => True) renewed trivial).bind
    intro _ _
    apply (Ensures.act (Q := fun _ => True) warned trivial).bind
    intro _ _
    exact Ensures.done provided

end Strategy

end SealedMatch
