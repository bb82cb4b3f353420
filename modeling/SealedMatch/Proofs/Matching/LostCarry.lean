/-
Module: SealedMatch.Proofs.Matching.LostCarry
Purpose: Without a carry bit, an authentication adds up every place of the digits on its own.
Trusted boundary: none
Main exports: uncarriedDigits, ClearEngine.add_uncarried, SimulatedEngine.authenticate_uncarried,
  TemplateCompiler.total_uncarried
-/
import SealedMatch.Proofs.Matching.Completion

namespace SealedMatch

open Process hiding bind bind_assoc

/-! ### Digits without carries -/

/-- The digits of numbers added up place by place: the sum of a place is reduced by the radix, and
nothing is carried to the next one. -/
def uncarriedDigits (r : Int) : Nat → List Int → List Int
  | 0, _ => []
  | width + 1, vs => vs.sum % r :: uncarriedDigits r width (vs.map (· / r))

variable {r : Int}

@[simp] theorem length_uncarriedDigits (width : Nat) (vs : List Int) :
    (uncarriedDigits r width vs).length = width := by
  induction width generalizing vs with
  | zero => rfl
  | succ width ih => simp [uncarriedDigits, ih]

theorem uncarriedDigits_nil (width : Nat) : uncarriedDigits r width [] = digits r width 0 := by
  induction width with
  | zero => rfl
  | succ width ih => simp [uncarriedDigits, digits, ih]

theorem uncarriedDigits_perm {vs ws : List Int} (h : vs.Perm ws) (width : Nat) :
    uncarriedDigits r width vs = uncarriedDigits r width ws := by
  induction width generalizing vs ws with
  | zero => rfl
  | succ width ih => simp only [uncarriedDigits, h.sum_eq, ih (h.map _)]

theorem uncarriedDigits_range (hr : 0 < r) (width : Nat) (vs : List Int) :
    ∀ d ∈ uncarriedDigits r width vs, 0 ≤ d ∧ d < r := by
  induction width generalizing vs with
  | zero => simp [uncarriedDigits]
  | succ width ih =>
      intro d hd
      rcases List.mem_cons.1 hd with rfl | hd
      · exact ⟨Int.emod_nonneg _ hr.ne', Int.emod_lt_of_pos _ hr⟩
      · exact ih _ d hd

/-- The carry of the greatest digit and one is lost. -/
theorem recompose_uncarriedDigits_carry (hr : 2 ≤ r) :
    recompose r (uncarriedDigits r 2 [r - 1, 1]) = 0 := by
  have first : (r - 1) / r = 0 := Int.ediv_eq_zero_of_lt (by omega) (by omega)
  have second : 1 / r = 0 := Int.ediv_eq_zero_of_lt (by omega) (by omega)
  simp [uncarriedDigits, recompose, first, second]

/-! ### Addition without room -/

/-- Residues are added up as the numbers are. -/
theorem toNat_emod_add {n : Nat} (hn : 0 < n) (a b : Int) :
    ((a % n).toNat + (b % n).toNat) % n = ((a + b) % n).toNat := by
  have pos : (n : Int) ≠ 0 := Int.natCast_ne_zero.2 hn.ne'
  zify
  rw [Int.toNat_of_nonneg (Int.emod_nonneg a pos), Int.toNat_of_nonneg (Int.emod_nonneg b pos),
    Int.toNat_of_nonneg (Int.emod_nonneg (a + b) pos), ← Int.add_emod]

namespace ClearEngine

open SimulatedEngine (expectKey)

variable {k : ClearEngine}

/-- Without a carry, the sum of two blocks wraps around at the end of the message space. -/
theorem sumBlocks_wraps (a b : Nat) {carry? : Option Nat} (hcarry : carry?.getD 0 = 0) :
    k.sumBlocks ⟨.large, a⟩ ⟨.large, b⟩ carry? = .ok ((a + b) % k.totalModulus) := by
  cases carry? with
  | none => rfl
  | some carry =>
      obtain rfl : carry = 0 := hcarry
      rfl

/-- Where the message space is no larger than the radix, sums of digits are reduced to digits, and
leave no carry. -/
theorem addFrom_uncarried (hr : 0 < k.messageModulus) (hbare : k.totalModulus = k.messageModulus)
    (width : Nat) (v : Int) (vs : List Int) {carry? : Option Nat} (hcarry : carry?.getD 0 = 0) :
    k.addFrom carry? ((ofDigits (uncarriedDigits k.messageModulus width vs)).zip
        (ofDigits (digits k.messageModulus width v))) =
      .ok (ofDigits (uncarriedDigits k.messageModulus width (v :: vs))) := by
  -- At every place the carry that comes in is zero, and so is the one that goes out.
  induction width generalizing v vs carry? with
  | zero => rfl
  | succ width ih =>
      generalize hsum : ((vs.sum % k.messageModulus).toNat + (v % k.messageModulus).toNat) %
        k.totalModulus = sum
      have low : sum < k.messageModulus := by
        rw [← hsum, hbare]
        exact Nat.mod_lt _ hr
      have digit : sum = ((v :: vs).sum % k.messageModulus).toNat := by
        rw [← hsum, hbare, toNat_emod_add hr, List.sum_cons, add_comm]
      have rest := ih (v / k.messageModulus) (vs.map (· / (k.messageModulus : Int)))
        (show (some (sum / k.messageModulus)).getD 0 = 0 from Nat.div_eq_of_lt low)
      simp only [uncarriedDigits, digits, ofDigits, List.map_cons, List.zip_cons_cons] at rest ⊢
      unfold addFrom
      rw [sumBlocks_wraps _ _ hcarry, hsum, ← digit]
      simp only [expectKey, bind, Except.bind, pure, Except.pure, if_true, rest,
        Nat.mod_eq_of_lt low]

theorem add_uncarried (hr : 0 < k.messageModulus) (hbare : k.totalModulus = k.messageModulus)
    (width : Nat) (v : Int) (vs : List Int) :
    k.add ⟨ofDigits (uncarriedDigits k.messageModulus width vs)⟩ (k.ofInteger width v) =
      .ok ⟨ofDigits (uncarriedDigits k.messageModulus width (v :: vs))⟩ := by
  have same : (⟨ofDigits (uncarriedDigits k.messageModulus width vs)⟩ :
      RadixInteger ClearBlock).width = (k.ofInteger width v).width := by
    simp [RadixInteger.width, ofDigits, ofInteger]
  unfold add
  rw [if_neg (not_not.2 same)]
  show (k.addFrom none ((ofDigits _).zip (ofDigits _)) >>= _) = _
  rw [addFrom_uncarried hr hbare width v vs rfl]
  rfl

/-- Digits are decrypted to what they make up. -/
theorem decryptInteger_ofDigits {ds : List Int} (hds : ∀ d ∈ ds, 0 ≤ d ∧ d < k.messageModulus) :
    k.decryptInteger ⟨ofDigits ds⟩ = recompose k.messageModulus ds := by
  unfold decryptInteger ofDigits
  rw [List.map_map]
  refine congrArg (recompose _) ((List.map_congr_left fun d hd => ?_).trans (List.map_id ds))
  obtain ⟨low, high⟩ := hds d hd
  show (d.toNat : Int) % k.messageModulus = d
  rw [Int.toNat_of_nonneg low, Int.emod_eq_of_lt low high]

end ClearEngine

/-! ### Authentication without a carry bit -/

namespace SimulatedEngine

variable {e : SimulatedEngine} {s : Strategy} {width : Nat}

theorem totalModulus_of_no_carry (hbare : e.parameters.carryBits = 0) :
    e.totalModulus = e.messageModulus := by
  show e.messageModulus * 2 ^ e.parameters.carryBits = e.messageModulus
  rw [hbare, pow_zero, Nat.mul_one]

theorem formedInteger_ofDigits {x : RadixInteger LweBlock} {ds : List Int}
    (hx : RadixInteger.Each (e.Encodes 6) x ⟨ClearEngine.ofDigits ds⟩) :
    e.FormedInteger ds.length x := by
  refine ⟨hx.width_eq.trans (by simp [RadixInteger.width, ClearEngine.ofDigits]), ?_⟩
  unfold RadixInteger.Each ClearEngine.ofDigits at hx
  rw [List.forall₂_map_right_iff] at hx
  exact forall₂_left hx fun c d hc => hc.formed

/-- An encrypted integer hides numbers that have been added up place by place. -/
def Uncarried (e : SimulatedEngine) (width : Nat) (vs : List Int) (x : RadixInteger LweBlock) :
    Prop :=
  RadixInteger.Each (e.Encodes 6) x
    ⟨ClearEngine.ofDigits (uncarriedDigits e.messageModulus width vs)⟩

theorem Uncarried.formed {vs : List Int} {x : RadixInteger LweBlock}
    (h : e.Uncarried width vs x) : e.FormedInteger width x := by
  have formed := formedInteger_ofDigits h
  rwa [length_uncarriedDigits] at formed

theorem publicZero_uncarried (h : e.Faithful 6) (width : Nat) :
    (e.publicZero width).Yields Session.Silent (e.Uncarried width []) := by
  apply ((publicZero_refines h width).yields rfl).mono
  intro zero hzero
  rw [ClearEngine.publicZero_eq (k := e.clear), Int.toNat_natCast] at hzero
  unfold Uncarried
  rw [uncarriedDigits_nil]
  exact hzero

/-- One number more is added up place by place. -/
theorem add_uncarried (h : e.Faithful 6) (hr : 0 < e.messageModulus)
    (hbare : e.parameters.carryBits = 0) {vs : List Int} {v : Int}
    {x y : RadixInteger LweBlock} (hx : e.Uncarried width vs x)
    (hy : RadixInteger.Each (e.Encodes 6) y (e.clear.ofInteger width v)) :
    (e.add x y).Yields Session.Silent (e.Uncarried width (v :: vs)) :=
  (add_refines h le_rfl hx hy).yields
    (ClearEngine.add_uncarried hr (totalModulus_of_no_carry hbare) width v vs)

/-- Each feature adds the digits of its value to the total, place by place. -/
theorem addFeature_uncarried (h : e.Faithful 6) (hr : 0 < e.messageModulus)
    (hbare : e.parameters.carryBits = 0) (s : Strategy) {encounters : List Encounter}
    (hcount : ∀ x ∈ encounters, x.1.count ≤ width) (debug : Bool) :
    Takes Session.Silent (e.Encodes 6) (answers (encounterRows e.messageModulus encounters))
      (fun done sum => e.Uncarried width
        (done.map fun f => (encounterValues e.messageModulus encounters).getD f 0) sum.total)
      ((e.matcher s).addFeature width debug) := by
  intro done sum f cs row hsum _ hrow hcs
  obtain ⟨x, hx, value, digits⟩ := Matcher.exists_encounter (k := e.clear) hrow hcs
  have widened := (widen_refines h digits width).yields
    (ClearEngine.widen_ofInteger hr (hcount x hx) _)
  rw [clear_messageModulus] at value
  simp only [List.map_cons, value]
  unfold Matcher.addFeature
  refine Matcher.during_yields (widened.bind fun wide hwide => ?_) _
  have added := add_uncarried h hr hbare hsum hwide
  cases debug with
  | true =>
      have formed := formedInteger_ofDigits hwide
      apply (decryptInteger_formed h.intact formed).bind
      intro score _
      exact added.bind fun total htotal => Yields.done htotal
  | false => exact added.bind fun total htotal => Yields.done htotal

section Authentication

variable {compiled : EnrolledTemplate} {d : DigitSystem} {features : List EnrolledFeature}
  {probe : List Int} {plan : LookupPlan}

/-- The total that an authentication reveals has the values of the features added up place by
place, in whatever order they came. -/
theorem authenticate_uncarried (h : e.Faithful 6) (hbare : e.parameters.carryBits = 0)
    (hstaffed : s.Staffed) (hcompiled : compiled.Holds d width features)
    (hcompatible : (e.matcher s).requireCompatible compiled = .ok ())
    (hplan : LookupPlan.build probe compiled = .ok plan) (schedule : Schedule) :
    ((e.matcher s).authenticate probe compiled true schedule).Yields Session.Silent
      fun decision => decision.trace?.map Trace.total =
        some (recompose compiled.radix (uncarriedDigits compiled.radix width
          (encounterValues compiled.radix (features.zip probe)))) := by
  obtain ⟨hradix, _⟩ := Matcher.requireCompatible_eq_ok hcompatible
  obtain ⟨sized, runs, sound, few, _⟩ := runs_of_compatible h hcompiled hcompatible hplan
  have hr : 0 < e.messageModulus := Nat.zero_lt_of_lt sized.radix_pos
  have zero := publicZero_uncarried h width
  have summed := Matcher.sumFeatures_keeps (m := e.matcher s) (h.evaluates_clear (by decide)) sized
    hstaffed runs sound (addFeature_uncarried h hr hbare s few true) zero schedule
  rw [← hcompiled.sumWidth_eq] at summed
  refine (Matcher.authenticate_keeps silent_begin silent_tick hcompatible hplan
    (P := fun _ => True) (T := fun trace => trace.total = recompose e.messageModulus
      (uncarriedDigits e.messageModulus width
        (encounterValues e.messageModulus (features.zip probe)))) summed ?_ ?_).mono ?_
  · rintro sum ⟨done, _, hsum⟩
    exact (atLeast_formed h.intact hsum.formed compiled.threshold).mono fun _ _ => trivial
  · rintro _ sum ⟨done, hdone, hsum⟩
    have count : (encounterRows e.messageModulus (features.zip probe)).length =
        (encounterValues e.messageModulus (features.zip probe)).length := by
      simp [encounterRows, encounterValues]
    have places := map_getD_perm (count ▸ hdone) 0
    apply (decryptInteger_yields h (decodes_each h (by decide) hsum)).bind
    intro total htotal
    refine Yields.done ?_
    show total = _
    rw [htotal, ClearEngine.decryptInteger_ofDigits
      (uncarriedDigits_range (Int.natCast_pos.2 hr) width _), uncarriedDigits_perm places]
    rfl
  · rintro decision ⟨_, trace, htrace, htotal⟩
    rw [htrace, hradix]
    exact congrArg some htotal

end Authentication

end SimulatedEngine

/-! ### Compiled templates -/

namespace TemplateCompiler

variable {configuration : MatchPolicy} {tables : List TableSource} {c : TemplateCompiler}
  {template probe : List Int} {earlyStop : Bool} {compiled : EnrolledTemplate} {plan : LookupPlan}

/-- Without a carry bit, the total that a compiled template reveals has the residues of the scores
added up place by place. -/
theorem total_uncarried (hc : ofTables configuration tables = .ok c)
    (hcompile : c.compile template earlyStop = .ok compiled)
    (hplan : LookupPlan.build probe compiled = .ok plan) {e : SimulatedEngine} {s : Strategy}
    (h : e.Faithful 6) (hbare : e.parameters.carryBits = 0) (hstaffed : s.Staffed)
    (hcompatible : (e.matcher s).requireCompatible compiled = .ok ()) (schedule : Schedule) :
    ((e.matcher s).authenticate probe compiled true schedule).Yields Session.Silent
      fun decision => decision.trace?.map Trace.total =
        some (recompose configuration.radix (uncarriedDigits configuration.radix
          configuration.sumWidth (c.residueTrace template probe compiled).featureValues)) := by
  obtain ⟨rfl, prepared⟩ := ofTables_eq_ok hc
  obtain ⟨features, holds, htables, htemplate, _⟩ := prepared.holds hcompile
  have trace := trace_eq_residueTrace holds holds.radix_eq htables htemplate probe
  have values := congrArg Trace.featureValues trace
  have radix : compiled.radix = c.configuration.radix := holds.radix_eq
  rw [← values, ← radix]
  exact SimulatedEngine.authenticate_uncarried h hbare hstaffed holds hcompatible hplan schedule

end TemplateCompiler

end SealedMatch
