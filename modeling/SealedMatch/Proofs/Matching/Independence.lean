/-
Module: SealedMatch.Proofs.Matching.Independence
Purpose: The outcome of a verification depends on neither strategy, engine, randomness nor schedule.
Trusted boundary: none
Main exports: SimulatedEngine.Hosts, SimulatedEngine.Hosts.verify_yields, scoreResidues,
  TemplateCompiler.verify_independent
-/
import SealedMatch.Matching.Provision
import SealedMatch.Proofs.Engine.Integers
import SealedMatch.Proofs.Matching.Decision

namespace SealedMatch

namespace SimulatedEngine

/-- An engine with a carry bit, and noise small enough for it, hosts a template under a strategy if
the template is compatible and the host has workers. -/
structure Hosts (e : SimulatedEngine) (s : Strategy) (compiled : EnrolledTemplate) : Prop where
  faithful : e.Faithful 6
  carryBits_pos : 1 ≤ e.parameters.carryBits
  staffed : s.Staffed
  compatible : (e.matcher s).requireCompatible compiled = .ok ()

variable {e : SimulatedEngine} {s : Strategy} {compiled : EnrolledTemplate}

theorem Hosts.roomy (h : e.Hosts s compiled) {d : DigitSystem}
    (hradix : compiled.radix = d.radix) : e.clear.Roomy := by
  refine roomy_clear h.faithful h.carryBits_pos ?_
  have same := (Matcher.requireCompatible_eq_ok h.compatible).1
  rw [hradix] at same
  have two := d.two_le_radix
  have : d.radix = e.messageModulus := Int.ofNat.inj same
  omega

/-- The engine implements the clear one, at six noises to a spacing. -/
theorem Hosts.implements (h : e.Hosts s compiled) {d : DigitSystem}
    (hradix : compiled.radix = d.radix) :
    (e.matcher s).engine.Implements Session.Silent e.clear (e.Encodes 6) (e.EncodesAll 6) := by
  have roomy := h.roomy hradix
  exact h.faithful.implements (by decide) (three_le_totalModulus roomy)

section Ends

variable {d : DigitSystem} {width : Nat} {features : List EnrolledFeature} {probe : List Int}
  {plan : LookupPlan}

theorem silent_begin (session : Session) : Session.Silent session session.begin := rfl

theorem silent_tick (session : Session) : Session.Silent session session.tick := rfl

/-- Whatever the schedule and the session, an authentication is resolved by the values of the
features. -/
theorem Hosts.authenticate_yields (h : e.Hosts s compiled)
    (hcompiled : compiled.Holds d width features)
    (hplan : LookupPlan.build probe compiled = .ok plan) (debug : Bool) (schedule : Schedule) :
    ((e.matcher s).authenticate probe compiled debug schedule).Yields Session.Silent
      (Matcher.Resolves (e.Encodes 6) compiled width
        (encounterValues compiled.radix (features.zip probe)) debug) :=
  Matcher.authenticate_yields (h.implements hcompiled.radix_eq) (h.roomy hcompiled.radix_eq)
    silent_begin silent_tick h.staffed hcompiled h.compatible hplan debug schedule

/-- The truth value of the decision says whether the sum of the values reaches the threshold. -/
theorem Hosts.decide_yields (h : e.Hosts s compiled)
    (hcompiled : compiled.Holds d width features)
    (hplan : LookupPlan.build probe compiled = .ok plan) (debug : Bool) (schedule : Schedule) :
    ((e.matcher s).decide probe compiled debug schedule).Yields Session.Silent fun x =>
      Matcher.Resolves (e.Encodes 6) compiled width
        (encounterValues compiled.radix (features.zip probe)) debug x.1 ∧
      x.2 = Decidable.decide (compiled.threshold ≤
        (encounterValues compiled.radix (features.zip probe)).sum % compiled.radix ^ width) :=
  Matcher.decide_yields (h.implements hcompiled.radix_eq) (h.roomy hcompiled.radix_eq)
    silent_begin silent_tick h.staffed hcompiled h.compatible hplan debug schedule

/-- Whatever the schedule and the session, a verification concludes by the values of the features.
-/
theorem Hosts.verify_yields (h : e.Hosts s compiled)
    (hcompiled : compiled.Holds d width features)
    (hplan : LookupPlan.build probe compiled = .ok plan)
    (stamp : Stamp) (datasetName : String) (debug : Bool) (schedule : Schedule) :
    ((e.matcher s).verify stamp probe compiled datasetName debug schedule).Yields Session.Silent
      (Matcher.Concludes compiled width
        (encounterValues compiled.radix (features.zip probe)) debug) :=
  Matcher.verify_yields (h.implements hcompiled.radix_eq) (h.roomy hcompiled.radix_eq)
    silent_begin silent_tick h.staffed hcompiled h.compatible hplan stamp datasetName debug schedule

end Ends

end SimulatedEngine

/-! ### Values of compiled templates -/

/-- Scores, each modulo what so many digits can tell apart. -/
def scoreResidues (radix : Int) (scores : List Int) (counts : List Nat) : List Int :=
  List.zipWith (fun v count => v % radix ^ count) scores counts

theorem encounterValues_eq (radix : Int) (features : List EnrolledFeature) (probe : List Int) :
    encounterValues radix (features.zip probe) =
      scoreResidues radix (((features.map (·.table)).zip
        ((features.map (·.template)).zip probe)).map fun x => x.1.cell x.2.1 x.2.2)
        (features.map (·.count)) := by
  induction features generalizing probe with
  | nil => rfl
  | cons x features ih =>
      cases probe with
      | nil => rfl
      | cons code probe =>
          have rest := ih probe
          unfold encounterValues scoreResidues at rest ⊢
          rw [List.zip_cons_cons, List.map_cons, rest]
          rfl

namespace TemplateCompiler

variable {configuration : MatchPolicy} {tables : List TableSource} {c : TemplateCompiler}
  {template probe : List Int} {earlyStop : Bool} {compiled : EnrolledTemplate} {plan : LookupPlan}

/-- The normalized score of each feature for a template and a probe. -/
def scores (c : TemplateCompiler) (template probe : List Int) : List Int :=
  (c.normalized.zip (template.zip probe)).map fun x => x.1.cell x.2.1 x.2.2

/-- The scores of encounters are those of the tables and the template behind the features. -/
theorem scores_eq {features : List EnrolledFeature}
    (htables : features.map (·.table) = c.normalized)
    (htemplate : features.map (·.template) = template) :
    (features.zip probe).map (fun x => x.1.score x.2) = c.scores template probe := by
  unfold scores
  rw [← htables, ← htemplate]
  clear htables htemplate
  induction features generalizing probe with
  | nil => rfl
  | cons x features ih =>
      cases probe with
      | nil => rfl
      | cons code probe =>
          have rest := @ih probe
          rw [List.zip_cons_cons, List.map_cons, rest]
          rfl

/-- The residues of the normalized scores by the digits that a compiled template has for them, and
their sum modulo its capacity. -/
def residueTrace (c : TemplateCompiler) (template probe : List Int) (compiled : EnrolledTemplate) :
    Trace :=
  .ofValues c.configuration.radix c.configuration.sumWidth
    (scoreResidues c.configuration.radix (c.scores template probe) compiled.digitCounts)

/-- The values of the features of a compiled template are the residues of the normalized scores. -/
theorem trace_eq_residueTrace {d : DigitSystem} {width : Nat} {features : List EnrolledFeature}
    (holds : compiled.Holds d width features) (hradix : compiled.radix = c.configuration.radix)
    (htables : features.map (·.table) = c.normalized)
    (htemplate : features.map (·.template) = template) (probe : List Int) :
    Trace.ofValues compiled.radix c.configuration.sumWidth
      (encounterValues compiled.radix (features.zip probe)) =
        c.residueTrace template probe compiled := by
  rw [encounterValues_eq, htables, htemplate, ← holds.digitCounts_eq, hradix]
  rfl

/-- A verification of a compiled template concludes by the residues of the normalized scores. -/
theorem verify_yields (hc : ofTables configuration tables = .ok c)
    (hcompile : c.compile template earlyStop = .ok compiled)
    (hplan : LookupPlan.build probe compiled = .ok plan) {e : SimulatedEngine} {s : Strategy}
    (h : e.Hosts s compiled) (stamp : Stamp) (datasetName : String) (debug : Bool)
    (schedule : Schedule) :
    ((e.matcher s).verify stamp probe compiled datasetName debug schedule).Yields Session.Silent
      fun r => r.status = (if compiled.threshold ≤ (c.residueTrace template probe compiled).total
          then .accept else .reject) ∧
        r.trace? = if debug then some (c.residueTrace template probe compiled) else none := by
  obtain ⟨_, prepared⟩ := ofTables_eq_ok hc
  obtain ⟨features, holds, htables, htemplate, _⟩ := prepared.holds hcompile
  have trace := trace_eq_residueTrace holds holds.radix_eq htables htemplate probe
  apply (h.verify_yields holds hplan stamp datasetName debug schedule).mono
  intro r hr
  refine ⟨?_, by rw [hr.trace_eq, trace]⟩
  rw [hr.status_eq, ← trace]
  rfl

/-- Two strategies on engines of their own, whatever their randomness, their sessions and the order
in which their workers finish, verify a template alike. Both traces show the residues of the
normalized scores and of their sum, and both accept if the latter reaches the threshold. -/
theorem verify_independent (hc : ofTables configuration tables = .ok c)
    (hcompile : c.compile template earlyStop = .ok compiled)
    (hplan : LookupPlan.build probe compiled = .ok plan) {e e' : SimulatedEngine}
    {s s' : Strategy} (h : e.Hosts s compiled) (h' : e'.Hosts s' compiled) (stamp : Stamp)
    (datasetName : String) (debug : Bool) (schedule schedule' : Schedule)
    (session session' : Session) :
    ∃ r r',
      (((e.matcher s).verify stamp probe compiled datasetName debug schedule).run session).1 =
        .ok r ∧
      (((e'.matcher s').verify stamp probe compiled datasetName debug schedule').run session').1 =
        .ok r' ∧
      r.status = r'.status ∧ r.trace? = r'.trace? ∧
      r.status = (if compiled.threshold ≤ (c.residueTrace template probe compiled).total
        then .accept else .reject) ∧
      r.trace? = if debug then some (c.residueTrace template probe compiled) else none := by
  obtain ⟨r, hr, status, trace⟩ :=
    (verify_yields hc hcompile hplan h stamp datasetName debug schedule).run session
  obtain ⟨r', hr', status', trace'⟩ :=
    (verify_yields hc hcompile hplan h' stamp datasetName debug schedule').run session'
  exact ⟨r, r', hr, hr', status.trans status'.symm, trace.trans trace'.symm, status, trace⟩

/-! ### A run -/

theorem one_le_four : 1 ≤ 4 := by decide

/-- Two features, with scores of two one-bit digits and a sum of three. -/
def samplePolicy : MatchPolicy :=
  ⟨"faces", ⟨1, 2, by decide, one_le_four, Nat.two_pos, by decide⟩, 3, 2, 1, by decide, by decide,
    Nat.two_pos⟩

/-- Two tables of two template codes and three probe codes. -/
def sampleTables : List TableSource :=
  [[[2, 1, -1], [0, 1, -1]], [[1, 0, -2], [-1, -2, 1]]].map fun rows =>
    .nested (.list (rows.map Value.ints))

/-- A strategy with all steps in one place. -/
def placed (place : Place) : Strategy := ⟨"placed", .classic, place, place, place, false, some 1⟩

theorem staffed_placed (place : Place) : (placed place).Staffed := ⟨1, rfl, le_refl 1⟩

def sampleStamp : Stamp := ⟨"first", ⟨2000, 1, 1, 0, 0, 0, 0, 0⟩⟩

theorem verify_independent_sample :
    ∃ c compiled plan, ofTables samplePolicy sampleTables = .ok c ∧
      c.compile [0, 1] true = .ok compiled ∧ LookupPlan.build [1, 2] compiled = .ok plan ∧
      SimulatedEngine.smallest.Hosts (placed .host) compiled ∧
      SimulatedEngine.smallest.Hosts (placed .accelerator) compiled ∧
      ∃ r r',
        (((SimulatedEngine.smallest.matcher (placed .host)).verify sampleStamp [1, 2] compiled
          "faces" true []).run Session.start).1 = .ok r ∧
        (((SimulatedEngine.smallest.matcher (placed .accelerator)).verify sampleStamp [1, 2]
          compiled "faces" true [1]).run Session.start).1 = .ok r' ∧
        r.status = r'.status ∧ r.trace? = r'.trace? ∧
        r.status = (if compiled.threshold ≤ (c.residueTrace [0, 1] [1, 2] compiled).total
          then .accept else .reject) ∧
        r.trace? = some (c.residueTrace [0, 1] [1, 2] compiled) := by
  have accepted : (do
      let c ← ofTables samplePolicy sampleTables
      let compiled ← c.compile [0, 1] true
      let _ ← LookupPlan.build [1, 2] compiled
      (SimulatedEngine.smallest.matcher (placed .host)).requireCompatible compiled).isOk =
        true := by
    decide +kernel
  obtain ⟨u, hu⟩ := exists_of_isOk accepted
  obtain ⟨c, hc, hu⟩ := bind_eq_ok hu
  obtain ⟨compiled, hcompile, hu⟩ := bind_eq_ok hu
  obtain ⟨plan, hplan, hu⟩ := bind_eq_ok hu
  have hosts : ∀ place, SimulatedEngine.smallest.Hosts (placed place) compiled := fun place =>
    ⟨SimulatedEngine.faithful_smallest, by decide, staffed_placed place, hu⟩
  exact ⟨c, compiled, plan, hc, hcompile, hplan, hosts _, hosts _,
    verify_independent hc hcompile hplan (hosts _) (hosts _) _ _ _ _ _ _ _⟩

end TemplateCompiler

end SealedMatch
