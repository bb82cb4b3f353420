/-
Module: SealedMatch.Proofs.Matching.CarryRoom
Purpose: The compatibility check leaves sums and comparisons exact if and only if blocks have room
  for a carry, which it does not ask for.
Trusted boundary: none
Main exports: SimulatedEngine.Noiseless, Misconfigured, TemplateCompiler.Decides, CheckSuffices,
  decides_of_carry, not_suffices_of_uncarried, checkSuffices_iff
-/
import SealedMatch.Proofs.Matching.Capacity
import SealedMatch.Proofs.Matching.LostCarry
import SealedMatch.Proofs.Table.Normalization

namespace SealedMatch

/-- An engine built from a parameter set on a tape without noise. -/
def SimulatedEngine.Noiseless (e : SimulatedEngine) (p : LweParameters) : Prop :=
  ∃ tape : Tape, (∀ key position, tape.noise key position = 0) ∧
    SimulatedEngine.ofTape p tape SimulatedEngine.unguarded = .ok e

/-- The configuration was refused. -/
def Misconfigured {α : Type} (r : Except Failure α) : Prop :=
  ∃ cause, r = .error (.configuration cause)

/-- A decision and its truth value say what a template and a probe come to in the clear: the trace
shows the residues of the scores and their sum, and the truth value whether the sum reaches the
threshold. -/
structure TemplateCompiler.Decides {C : Type} (c : TemplateCompiler) (template probe : List Int)
    (compiled : EnrolledTemplate) (debug : Bool) (x : SealedDecision C × Bool) : Prop where
  trace_eq : x.1.trace? =
    if debug then some (c.residueTrace template probe compiled) else none
  accepted_eq : x.2 =
    decide (compiled.threshold ≤ (c.residueTrace template probe compiled).total)

/-- The compatibility check suffices for engines of so many message and carry bits: whatever the
tables, template, probe, strategy and schedule, an authentication that is not refused for its
configuration decides as in the clear. -/
def CheckSuffices (messageBits carryBits : Nat) : Prop :=
  ∀ (p : LweParameters) (e : SimulatedEngine), p.messageBits = messageBits →
    p.carryBits = carryBits → e.Noiseless p →
  ∀ (policy : MatchPolicy) (tables : List TableSource) (c : TemplateCompiler)
    (template probe : List Int) (earlyStop : Bool) (compiled : EnrolledTemplate)
    (plan : LookupPlan), TemplateCompiler.ofTables policy tables = .ok c →
    c.compile template earlyStop = .ok compiled → LookupPlan.build probe compiled = .ok plan →
  ∀ s : Strategy, s.Staffed → ∀ (debug : Bool) (schedule : Schedule) (session : Session),
    Misconfigured (((e.matcher s).authenticate probe compiled debug schedule).run session).1 ∨
    ∃ x, (((e.matcher s).decide probe compiled debug schedule).run session).1 = .ok x ∧
      c.Decides template probe compiled debug x

namespace SimulatedEngine

variable {e : SimulatedEngine} {p : LweParameters}

theorem Noiseless.parameters_eq (h : e.Noiseless p) : e.parameters = p := by
  obtain ⟨tape, _, he⟩ := h
  unfold ofTape at he
  split at he
  · cases he
  · obtain ⟨_, _, he⟩ := bind_eq_ok he
    cases he
    rfl

/-- No noise is small enough for any number of operands. -/
theorem Noiseless.faithful (h : e.Noiseless p) (hbits : p.messageBits + p.carryBits ≤ 31)
    (margin : Nat) : e.Faithful margin := by
  obtain ⟨tape, silent, he⟩ := h
  have same : e.totalModulus = p.totalModulus := by
    unfold totalModulus
    rw [Noiseless.parameters_eq ⟨tape, silent, he⟩]
  have wide := (faithful_of_bits he hbits).noise_lt .large 0
  rw [same, Nat.cast_zero, zero_mul] at wide
  refine faithful_ofTape he hbits fun key position => ?_
  rw [silent key position]
  simpa using wide

end SimulatedEngine

section Check

variable {p : LweParameters} {e : SimulatedEngine} {policy : MatchPolicy}
  {tables : List TableSource} {c : TemplateCompiler} {template probe : List Int}
  {earlyStop : Bool} {compiled : EnrolledTemplate} {plan : LookupPlan} {s : Strategy}

/-- What the check refuses is refused for its configuration. -/
theorem misconfigured_of_misfits (hc : TemplateCompiler.ofTables policy tables = .ok c)
    (hcompile : c.compile template earlyStop = .ok compiled)
    (hmisfits : compiled.Misfits e.messageModulus e.totalModulus) (debug : Bool)
    (schedule : Schedule) (session : Session) :
    Misconfigured (((e.matcher s).authenticate probe compiled debug schedule).run session).1 := by
  obtain ⟨_, prepared⟩ := TemplateCompiler.ofTables_eq_ok hc
  obtain ⟨features, holds, _⟩ := prepared.holds hcompile
  rcases Matcher.requireCompatible_cases holds.measured (m := e.matcher s) with
    ⟨_, fits⟩ | ⟨_, cause, refused⟩
  · exact absurd hmisfits fits
  · have screened : (e.matcher s).screen probe compiled = .error (.configuration cause) := by
      unfold Matcher.screen
      rw [refused]
      rfl
    exact ⟨cause, by rw [Matcher.authenticate_run_of_refused screened]⟩

/-- Where blocks have a carry bit, what the check lets pass is decided as in the clear. -/
theorem decides_of_carry (h : e.Noiseless p) (hbits : p.messageBits + p.carryBits ≤ 31)
    (hcarry : 1 ≤ p.carryBits) (hc : TemplateCompiler.ofTables policy tables = .ok c)
    (hcompile : c.compile template earlyStop = .ok compiled)
    (hplan : LookupPlan.build probe compiled = .ok plan) (hstaffed : s.Staffed)
    (hcompatible : (e.matcher s).requireCompatible compiled = .ok ()) (debug : Bool)
    (schedule : Schedule) (session : Session) :
    ∃ x, (((e.matcher s).decide probe compiled debug schedule).run session).1 = .ok x ∧
      c.Decides template probe compiled debug x := by
  obtain ⟨_, prepared⟩ := TemplateCompiler.ofTables_eq_ok hc
  obtain ⟨features, holds, htables, htemplate, _⟩ := prepared.holds hcompile
  have trace := TemplateCompiler.trace_eq_residueTrace holds holds.radix_eq htables htemplate probe
  have hosts : e.Hosts s compiled :=
    ⟨h.faithful hbits 6, by rw [h.parameters_eq]; exact hcarry, hstaffed, hcompatible⟩
  obtain ⟨x, hx, resolves, accepted⟩ :=
    (hosts.decide_yields holds hplan debug schedule).run session
  refine ⟨x, hx, ?_, ?_⟩
  · rw [resolves.trace_eq, trace]
  · rw [accepted, ← trace]
    rfl

/-- Digits of more than four bits are no messages of a template. -/
theorem misfits_of_wide (h : e.Noiseless p) (hwide : 4 < p.messageBits)
    (hc : TemplateCompiler.ofTables policy tables = .ok c)
    (hcompile : c.compile template earlyStop = .ok compiled) :
    compiled.Misfits e.messageModulus e.totalModulus := by
  obtain ⟨_, prepared⟩ := TemplateCompiler.ofTables_eq_ok hc
  obtain ⟨features, holds, _⟩ := prepared.holds hcompile
  refine Or.inl ?_
  have radix : c.configuration.digitSystem.radix < e.messageModulus := by
    unfold SimulatedEngine.messageModulus LweParameters.messageModulus DigitSystem.radix
    rw [h.parameters_eq]
    exact Nat.pow_lt_pow_right (by decide)
      (c.configuration.digitSystem.blockLength_le.trans_lt hwide)
  rw [holds.radix_eq]
  omega

end Check

/-! ### Blocks without room -/

/-- Parameters of a key length of one, with no carry bit. -/
def bareParameters (messageBits : Nat) : LweParameters :=
  ⟨"BARE", .classic, messageBits, 0, 1, 1, 0.0, 0.0, 1, 128⟩

def blankTape : Tape := ⟨fun _ => 0, fun _ _ => 0⟩

/-- Two features of one digit each, and a threshold at the radix. -/
def singleDigits (blockLength : Nat) (hpos : 1 ≤ blockLength) (hle : blockLength ≤ 4) :
    MatchPolicy :=
  ⟨"digits", ⟨blockLength, 1, hpos, hle, Nat.one_pos, by decide⟩, 2, 2, 2 ^ blockLength, by decide,
    Nat.two_pos, Nat.two_pos⟩

/-- A decision is that of an authentication. -/
theorem Matcher.authenticate_of_decide {σ C B : Type} {m : Matcher σ C B} {probe : List Int}
    {compiled : EnrolledTemplate} {debug : Bool} {schedule : Schedule} {s : σ}
    {x : SealedDecision C × Bool}
    (h : ((m.decide probe compiled debug schedule).run s).1 = .ok x) :
    ((m.authenticate probe compiled debug schedule).run s).1 = .ok x.1 := by
  obtain ⟨decision, t, authenticated, h⟩ := Process.run_bind_eq_ok (Prod.ext h rfl)
  obtain ⟨accepted, t', _, h⟩ := Process.run_bind_eq_ok h
  cases h
  rw [authenticated]

/-- Without a carry bit, one template that passes the check and whose values do not add up place by
place shows that the check does not suffice. -/
theorem not_suffices_of_uncarried {p : LweParameters} {e : SimulatedEngine} {policy : MatchPolicy}
    {tables : List TableSource} {c : TemplateCompiler} {template probe : List Int}
    {earlyStop : Bool} {compiled : EnrolledTemplate} {plan : LookupPlan} {s : Strategy}
    (h : e.Noiseless p) (hbits : p.messageBits ≤ 31) (hbare : p.carryBits = 0)
    (hc : TemplateCompiler.ofTables policy tables = .ok c)
    (hcompile : c.compile template earlyStop = .ok compiled)
    (hplan : LookupPlan.build probe compiled = .ok plan) (hstaffed : s.Staffed)
    (hcompatible : (e.matcher s).requireCompatible compiled = .ok ())
    (hne : recompose policy.radix (uncarriedDigits policy.radix policy.sumWidth
      (c.residueTrace template probe compiled).featureValues) ≠
        (c.residueTrace template probe compiled).total) :
    ¬ CheckSuffices p.messageBits 0 := by
  intro hcheck
  have faithful := h.faithful (by omega) 6
  have bare : e.parameters.carryBits = 0 := by rw [h.parameters_eq, hbare]
  obtain ⟨decision, hdecision, shown⟩ := (TemplateCompiler.total_uncarried hc hcompile hplan
    faithful bare hstaffed hcompatible []).run Session.start
  rcases hcheck p e rfl hbare h policy tables c template probe earlyStop compiled plan hc hcompile
      hplan s hstaffed true [] Session.start with ⟨cause, refused⟩ | ⟨x, hx, decides⟩
  · rw [hdecision] at refused
    cases refused
  · obtain rfl := Except.ok.inj (hdecision.symm.trans (Matcher.authenticate_of_decide hx))
    rw [decides.trace_eq] at shown
    exact hne (Option.some.inj shown).symm

/-- One row of a score and a zero is normalized to itself. -/
theorem normalize_score {score : Int} (hscore : 0 ≤ score ∧ score < 2 ^ 63) (feature : Nat) :
    ∃ t, normalize (.nested (.table [[score, 0]])) feature = .ok (t, 0) ∧ t.Grid 1 2 ∧
      t.cell 0 0 = score := by
  have rectangular : Rectangular [[score, 0]] := ⟨by simp, 2, by simp, by simp⟩
  obtain ⟨t, columns, ht, hshows⟩ := rectangular.normalize_self rfl (by simpa using hscore) feature
  obtain rfl : 2 = columns := hshows.uniform [score, 0] (by simp)
  exact ⟨t, ht, hshows.grid, Tensor.cell_of_read
    (hshows.read_eq ⟨le_rfl, Int.one_pos⟩ ⟨le_rfl, two_pos⟩ (by decide))⟩

namespace TemplateCompiler

/-- Two tables of a score and a zero are prepared as they are. -/
theorem ofTables_pair {policy : MatchPolicy} (hcount : policy.featureCount = 2)
    (hroom : 2 * policy.digitSystem.blockCount ≤ mostEntries) {first second : Int}
    (hfirst : 0 ≤ first ∧ first < 2 ^ 63) (hsecond : 0 ≤ second ∧ second < 2 ^ 63) :
    ∃ c, ofTables policy (pairOfTables first second) = .ok c ∧ c.configuration = policy ∧
      c.normalized.map (·.shape) = [[1, 2], [1, 2]] ∧
      c.scores [0, 0] [0, 0] = [first, second] := by
  obtain ⟨t, ht, hgrid, hcell⟩ := normalize_score hfirst 0
  obtain ⟨u, hu, hgrid', hcell'⟩ := normalize_score hsecond 1
  have normalized : normalizeAll (pairOfTables first second) = .ok ([t, u], 0) := by
    show (normalize (.nested (.table [[first, 0]])) 0 >>= _) = _
    rw [ht, ok_bind]
    show ((normalize (.nested (.table [[second, 0]])) 1 >>= _) >>= _) = _
    rw [hu]
    rfl
  have grids : ∀ table ∈ [t, u], ∃ rows columns, table.Grid rows columns ∧
      rows * columns * policy.digitSystem.blockCount ≤ mostEntries := by
    simp only [List.forall_mem_cons]
    exact ⟨⟨1, 2, hgrid, hroom⟩, ⟨1, 2, hgrid', hroom⟩, by simp⟩
  have count : (pairOfTables first second).length = policy.featureCount := hcount.symm
  obtain ⟨c, hc, hpolicy, htables⟩ := ofTables_ok count normalized grids
  refine ⟨c, hc, hpolicy, ?_, ?_⟩
  · rw [htables, List.map_cons, List.map_cons, hgrid.shape_eq, hgrid'.shape_eq]
    rfl
  · unfold scores
    rw [htables]
    simp [hcell, hcell']

end TemplateCompiler

/-- There is room for an engine whose blocks have no room. -/
theorem SimulatedEngine.exists_bare {blockLength : Nat} (hle : blockLength ≤ 4) :
    ∃ e : SimulatedEngine, e.Noiseless (bareParameters blockLength) ∧
      e.totalModulus = 2 ^ blockLength := by
  have total : (bareParameters blockLength).totalModulus = 2 ^ blockLength := Nat.mul_one _
  have small : (bareParameters blockLength).totalModulus ≤ 2 ^ 31 := by
    rw [total]
    exact Nat.pow_le_pow_right Nat.two_pos (by omega)
  obtain ⟨e, he, hparameters⟩ := ofTape_ok Int.one_nonneg Int.one_nonneg small blankTape unguarded
  refine ⟨e, ⟨blankTape, fun _ _ => rfl, he⟩, ?_⟩
  unfold totalModulus
  rw [hparameters, total]

/-- In the clear, the greatest digit and one come to the radix. -/
theorem TemplateCompiler.residueTrace_pair {blockLength : Nat} {hpos : 1 ≤ blockLength}
    {hle : blockLength ≤ 4} {tables : List TableSource} {c : TemplateCompiler}
    {compiled : EnrolledTemplate}
    (hc : ofTables (singleDigits blockLength hpos hle) tables = .ok c)
    (hcompile : c.compile [0, 0] false = .ok compiled) (hcovers : c.Covers [0, 0] [0, 0])
    (hscores : c.scores [0, 0] [0, 0] = [2 ^ blockLength - 1, 1]) :
    (c.residueTrace [0, 0] [0, 0] compiled).featureValues = [2 ^ blockLength - 1, 1] ∧
      (c.residueTrace [0, 0] [0, 0] compiled).total = 2 ^ blockLength := by
  obtain ⟨hpolicy, prepared⟩ := ofTables_eq_ok hc
  have two : 2 ≤ (2 : Int) ^ blockLength := le_self_pow₀ (by decide) (by omega)
  have radix : ((singleDigits blockLength hpos hle).radix : Int) = 2 ^ blockLength :=
    Nat.cast_pow 2 blockLength
  have capacity : (c.configuration.digitSystem.capacity : Int) = 2 ^ blockLength := by
    rw [DigitSystem.capacity_eq, hpolicy]
    exact (pow_one _).trans radix
  have greatest : ((2 : Int) ^ blockLength - 1) % 2 ^ blockLength = 2 ^ blockLength - 1 :=
    Int.emod_eq_of_lt (by omega) (by omega)
  have one : 1 % (2 : Int) ^ blockLength = 1 := Int.emod_eq_of_lt (by omega) (by omega)
  have values : (c.residueTrace [0, 0] [0, 0] compiled).featureValues =
      [2 ^ blockLength - 1, 1] := by
    rw [featureValues_full prepared hcompile (hcovers.has prepared), hscores, capacity]
    simp only [List.map_cons, List.map_nil, greatest, one]
  refine ⟨values, ?_⟩
  show (c.residueTrace [0, 0] [0, 0] compiled).featureValues.sum %
    (c.configuration.radix : Int) ^ c.configuration.sumWidth = _
  rw [values, hpolicy, radix, List.sum_pair, sub_add_cancel]
  exact Int.emod_eq_of_lt (by omega) (lt_self_pow₀ two Nat.one_lt_two)

/-- Without a carry bit, the greatest digit and one pass the check, and place by place they come to
zero. -/
theorem not_suffices_without_carry {blockLength : Nat} (hpos : 1 ≤ blockLength)
    (hle : blockLength ≤ 4) : ¬ CheckSuffices blockLength 0 := by
  have two : 2 ≤ (2 : Int) ^ blockLength := le_self_pow₀ (by decide) (by omega)
  have sixteen : (2 : Int) ^ blockLength ≤ 2 ^ 4 := pow_le_pow_right₀ (by decide) hle
  obtain ⟨c, hc, hpolicy, hshapes, hscores⟩ : ∃ c,
      TemplateCompiler.ofTables (singleDigits blockLength hpos hle)
        (TemplateCompiler.pairOfTables (2 ^ blockLength - 1) 1) = .ok c ∧
      c.configuration = singleDigits blockLength hpos hle ∧
      c.normalized.map (·.shape) = [[1, 2], [1, 2]] ∧
      c.scores [0, 0] [0, 0] = [2 ^ blockLength - 1, 1] :=
    TemplateCompiler.ofTables_pair rfl (show 2 * 1 ≤ mostEntries by decide) (by omega) (by decide)
  have covers : c.Covers [0, 0] [0, 0] :=
    TemplateCompiler.covers_of_shapes hshapes rfl (by decide) (by decide)
  obtain ⟨compiled, plan, hcompile, hplan, _⟩ := TemplateCompiler.accepted hc covers false
  obtain ⟨_, prepared⟩ := TemplateCompiler.ofTables_eq_ok hc
  obtain ⟨features, holds, htables, _⟩ := prepared.holds hcompile
  obtain ⟨e, noiseless, total⟩ := SimulatedEngine.exists_bare hle
  have hcompatible : (e.matcher (TemplateCompiler.placed .host)).requireCompatible compiled =
      .ok () := by
    have sizes : ∀ shape ∈ c.normalized.map (·.shape), shape = [1, 2] := by
      rw [hshapes]
      decide
    refine SimulatedEngine.compatible_of_columns (by rw [noiseless.parameters_eq, hpolicy]; rfl)
      holds htables (fun t ht rows columns hshape => ?_) _
    rw [TemplateCompiler.columns_of_shapes sizes t ht rows columns hshape, total]
    exact_mod_cast two
  obtain ⟨values, sum⟩ := TemplateCompiler.residueTrace_pair hc hcompile covers hscores
  refine not_suffices_of_uncarried noiseless (show blockLength ≤ 31 by omega) rfl hc hcompile hplan
    (TemplateCompiler.staffed_placed .host) hcompatible ?_
  have radix : ((singleDigits blockLength hpos hle).radix : Int) = 2 ^ blockLength :=
    Nat.cast_pow 2 blockLength
  rw [values, sum, radix]
  exact (recompose_uncarriedDigits_carry two).trans_ne (by omega)

/-! ### When the check suffices -/

/-- The check suffices exactly for blocks with a carry bit, and for those that no digits of a
template fit. -/
theorem checkSuffices_iff {messageBits carryBits : Nat} (hpos : 1 ≤ messageBits)
    (hbits : messageBits + carryBits ≤ 31) :
    CheckSuffices messageBits carryBits ↔ 1 ≤ carryBits ∨ 4 < messageBits := by
  constructor
  · intro hcheck
    by_contra none
    rw [not_or, Nat.not_le, Nat.lt_one_iff, Nat.not_lt] at none
    obtain ⟨rfl, hle⟩ := none
    exact not_suffices_without_carry hpos hle hcheck
  · rintro room p e rfl rfl noiseless policy tables c template probe earlyStop compiled plan hc
      hcompile hplan s hstaffed debug schedule session
    by_cases hmisfits : compiled.Misfits e.messageModulus e.totalModulus
    · exact Or.inl (misconfigured_of_misfits hc hcompile hmisfits debug schedule session)
    · rcases room with hcarry | hwide
      · refine Or.inr (decides_of_carry noiseless hbits hcarry hc hcompile hplan hstaffed ?_ debug
          schedule session)
        obtain ⟨_, prepared⟩ := TemplateCompiler.ofTables_eq_ok hc
        obtain ⟨features, holds, _⟩ := prepared.holds hcompile
        rcases Matcher.requireCompatible_cases holds.measured (m := e.matcher s) with
          ⟨passes, _⟩ | ⟨misfits, _⟩
        · exact passes
        · exact absurd misfits hmisfits
      · exact absurd (misfits_of_wide noiseless hwide hc hcompile) hmisfits

/-- With a carry bit, the sample is decided as in the clear; without one, some run is not. -/
theorem checkSuffices_iff_sample :
    ¬ CheckSuffices 1 0 ∧
    ∃ (c : TemplateCompiler) (compiled : EnrolledTemplate) (e : SimulatedEngine)
        (x : SealedDecision LweBlock × Bool),
      TemplateCompiler.ofTables TemplateCompiler.samplePolicy
        TemplateCompiler.sampleTables = .ok c ∧
      c.compile [0, 1] true = .ok compiled ∧ e.Noiseless SimulatedEngine.smallest.parameters ∧
      (((e.matcher (TemplateCompiler.placed .accelerator)).decide [1, 2] compiled true [1]).run
        Session.start).1 = .ok x ∧
      c.Decides [0, 1] [1, 2] compiled true x := by
  have admitted : (do
      let c ← (TemplateCompiler.ofTables TemplateCompiler.samplePolicy
        TemplateCompiler.sampleTables).toOption
      let compiled ← (c.compile [0, 1] true).toOption
      let _ ← (LookupPlan.build [1, 2] compiled).toOption
      let e ← (SimulatedEngine.ofTape SimulatedEngine.smallest.parameters blankTape
        SimulatedEngine.unguarded).toOption
      return (((e.matcher (TemplateCompiler.placed .accelerator)).authenticate [1, 2] compiled
        true [1]).run Session.start).1.isOk) = some true := by
    decide +kernel
  obtain ⟨c, hc, h⟩ := Option.bind_eq_some_iff.1 admitted
  obtain ⟨compiled, hcompile, h⟩ := Option.bind_eq_some_iff.1 h
  obtain ⟨plan, hplan, h⟩ := Option.bind_eq_some_iff.1 h
  obtain ⟨e, he, h⟩ := Option.bind_eq_some_iff.1 h
  obtain ⟨decision, hdecision⟩ := exists_of_isOk (Option.some.inj h)
  have noiseless : e.Noiseless SimulatedEngine.smallest.parameters :=
    ⟨blankTape, fun _ _ => rfl, toOption_eq_some he⟩
  have hosted : CheckSuffices 1 1 := (checkSuffices_iff (by decide) (by decide)).2 (by decide)
  rcases hosted _ e rfl rfl noiseless _ _ c [0, 1] [1, 2] true compiled plan (toOption_eq_some hc)
      (toOption_eq_some hcompile) (toOption_eq_some hplan) _
      (TemplateCompiler.staffed_placed .accelerator) true [1] Session.start with
    ⟨cause, refused⟩ | ⟨x, hx, decides⟩
  · rw [hdecision] at refused
    cases refused
  · exact ⟨(checkSuffices_iff (by decide) (by decide)).not.2 (by decide), c, compiled, e, x,
      toOption_eq_some hc, toOption_eq_some hcompile, noiseless, hx, decides⟩

/-- The total and the truth value of a run without a carry bit, and those in the clear. The scores
are the greatest digit and one. -/
def bareTotals (blockLength : Nat) (hpos : 1 ≤ blockLength) (hle : blockLength ≤ 4) :
    Option ((Option Int × Bool) × Int × Bool) := do
  let c ← (TemplateCompiler.ofTables (singleDigits blockLength hpos hle)
    (TemplateCompiler.pairOfTables (2 ^ blockLength - 1) 1)).toOption
  let compiled ← (c.compile [0, 0] false).toOption
  let _ ← (LookupPlan.build [0, 0] compiled).toOption
  let e ← (SimulatedEngine.ofTape (bareParameters blockLength) blankTape
    SimulatedEngine.unguarded).toOption
  let x ← (((e.matcher (TemplateCompiler.placed .host)).decide [0, 0] compiled true []).run
    Session.start).1.toOption
  let total := (c.residueTrace [0, 0] [0, 0] compiled).total
  return ((x.1.trace?.map Trace.total, x.2), total, decide (compiled.threshold ≤ total))

/-- With a message bit and no carry bit, scores of one and one pass the check and sum to zero, below
the threshold of two. -/
theorem carry_lost :
    bareTotals 1 (by decide) (by decide) = some ((some 0, false), 2, true) ∧
      ¬ CheckSuffices 1 0 := by
  constructor
  · decide +kernel
  · exact not_suffices_without_carry (by decide) (by decide)

end SealedMatch
