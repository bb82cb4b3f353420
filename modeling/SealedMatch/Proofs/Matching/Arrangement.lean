/-
Module: SealedMatch.Proofs.Matching.Arrangement
Purpose: Wherever the steps of the protocol run, the features that come out are the same.
Trusted boundary: none
Main exports: Evaluation, LookupPlan.Runs, Strategy.encrypt_yields, Arrangement.fold_yields
-/
import SealedMatch.Proofs.Engine.Arithmetic
import SealedMatch.Proofs.Matching.Streams

namespace SealedMatch

open Process hiding bind bind_assoc

/-! ### Evaluations in the clear -/

/-- A code, a lookup and what the lookup makes of the code. -/
structure Evaluation where
  code : Int
  lookup : DigitLookup
  output : Nat

/-- The code is a message, and the lookup makes the output of it. -/
structure Evaluation.Sound (k : ClearEngine) (x : Evaluation) : Prop where
  code_nonneg : 0 ≤ x.code
  code_lt : x.code < k.totalModulus
  output_eq : k.output x.lookup x.code.toNat = .ok x.output

namespace ClearEngine

variable {k : ClearEngine} {x : Evaluation} {xs : List Evaluation}

theorem bootstrap_sound (h : x.Sound k) :
    k.bootstrap ⟨.small, x.code.toNat⟩ x.lookup = .ok ⟨.large, x.output⟩ := by
  simp only [bootstrap, h.output_eq]
  rfl

theorem evaluateTable_sound (h : x.Sound k) :
    k.evaluateTable ⟨.large, x.code.toNat⟩ x.lookup = .ok ⟨.large, x.output⟩ := by
  have switched : keyswitch ⟨.large, x.code.toNat⟩ = .ok ⟨.small, x.code.toNat⟩ := rfl
  unfold evaluateTable
  rw [switched, ok_bind, bootstrap_sound h]

theorem bootstrapAll_sound (h : ∀ x ∈ xs, x.Sound k) :
    k.bootstrapAll ⟨.small, xs.map fun x => x.code.toNat⟩ (xs.map (·.lookup)) =
      .ok ⟨.large, xs.map (·.output)⟩ := by
  have outputs : ((xs.map (·.lookup)).zip (xs.map fun x => x.code.toNat)).mapM
      (fun x => k.output x.1 x.2) = .ok (xs.map (·.output)) := by
    induction xs with
    | nil => rfl
    | cons x xs ih =>
        rw [List.map_cons, List.map_cons, List.zip_cons_cons, List.mapM_cons,
          ih fun y hy => h y (List.mem_cons_of_mem x hy)]
        simp only [(h x (by simp)).output_eq]
        rfl
  unfold bootstrapAll
  simp only [SimulatedEngine.expectKey, if_true, List.length_map, ne_eq, not_true_eq_false,
    if_false, outputs]
  rfl

/-- Blocks of one key make up a batch, if there is one. -/
theorem upload_blocks (key : KeyLabel) {ms : List Nat} (hms : ms ≠ []) :
    upload (ms.map fun m => ⟨key, m⟩) = .ok ⟨key, ms⟩ := by
  cases ms with
  | nil => exact absurd rfl hms
  | cons m ms =>
      have all : (ms.map fun m => (⟨key, m⟩ : ClearBlock)).all (fun b => b.key = key) = true := by
        simp
      have same : (((m :: ms).map fun m => (⟨key, m⟩ : ClearBlock)).map (·.message)) = m :: ms := by
        rw [List.map_map]
        exact List.map_id _
      rw [List.map_cons] at same ⊢
      unfold upload
      simp only [all, if_true]
      rw [same]

/-- Codes in range are accepted. -/
theorem requireMessages_range (h : k.Sized) {values : List Int}
    (hvalues : ∀ v ∈ values, 0 ≤ v ∧ v < k.totalModulus) :
    SimulatedEngine.requireMessages k.totalModulus values = .ok () := by
  have total := h.total_le
  exact SimulatedEngine.requireMessages_ok (by omega) hvalues

end ClearEngine

/-! ### Encrypted codes -/

section Arrangements

variable {σ C B β : Type} {E : CipherEngine σ C B} {G : σ → σ → Prop} {k : ClearEngine}
  {RC : C → ClearBlock → Prop} {RB : B → ClearBatch → Prop}

/-- Codes under encryption, one by one or side by side. -/
inductive Encrypted.Holds (RC : C → ClearBlock → Prop) (RB : B → ClearBatch → Prop)
    (codes : List Int) : Encrypted C B → Prop where
  | singles {cs : List C}
      (h : List.Forall₂ RC cs (codes.map fun code => ⟨.large, code.toNat⟩)) :
      Holds RC RB codes (.singles cs)
  | batch {b : B} (h : RB b ⟨.large, codes.map Int.toNat⟩) : Holds RC RB codes (.batch b)

theorem encryptSingly_yields (hE : E.Evaluates G k RC RB) (hk : k.Sized) {codes : List Int}
    (hcodes : ∀ code ∈ codes, 0 ≤ code ∧ code < k.totalModulus) :
    (Strategy.encryptSingly E codes).Yields G fun cs =>
      List.Forall₂ RC cs (codes.map fun code => ⟨.large, code.toNat⟩) := by
  induction codes with
  | nil => exact Yields.done .nil
  | cons code rest ih =>
      have accepted : k.encrypt code = .ok ⟨.large, code.toNat⟩ := by
        unfold ClearEngine.encrypt
        rw [ClearEngine.requireMessages_range hk (by simpa using hcodes code (by simp))]
        rfl
      unfold Strategy.encryptSingly
      apply ((hE.encrypt code).yields accepted).bind
      intro c hc
      apply (ih fun x hx => hcodes x (List.mem_cons_of_mem code hx)).bind
      intro cs hcs
      exact Yields.done (.cons hc hcs)

theorem Strategy.encrypt_yields (hE : E.Evaluates G k RC RB) (hk : k.Sized) (s : Strategy)
    {codes : List Int} (hcodes : ∀ code ∈ codes, 0 ≤ code ∧ code < k.totalModulus) :
    (s.encrypt E codes).Yields G (Encrypted.Holds RC RB codes) := by
  unfold Strategy.encrypt
  split
  · have accepted : k.encryptAll codes = .ok ⟨.large, codes.map Int.toNat⟩ := by
      unfold ClearEngine.encryptAll
      rw [ClearEngine.requireMessages_range hk hcodes]
      rfl
    apply ((hE.encryptAll codes).yields accepted).bind
    intro b hb
    exact Yields.done (.batch hb)
  · apply (encryptSingly_yields hE hk hcodes).bind
    intro cs hcs
    exact Yields.done (.singles hcs)

theorem Encrypted.onHost_yields (hE : E.Evaluates G k RC RB) {codes : List Int}
    {encrypted : Encrypted C B} (h : encrypted.Holds RC RB codes) :
    (encrypted.onHost E).Yields G fun cs =>
      List.Forall₂ RC cs (codes.map fun code => ⟨.large, code.toNat⟩) := by
  cases h with
  | singles h => exact Yields.done h
  | batch h =>
      apply ((hE.download h).yields rfl).mono
      intro cs hcs
      unfold ClearEngine.download at hcs
      rwa [List.map_map] at hcs

theorem Encrypted.onAccelerator_yields (hE : E.Evaluates G k RC RB) {codes : List Int}
    (hcodes : codes ≠ []) {encrypted : Encrypted C B} (h : encrypted.Holds RC RB codes) :
    (encrypted.onAccelerator E).Yields G fun b => RB b ⟨.large, codes.map Int.toNat⟩ := by
  cases h with
  | singles h =>
      have uploaded := ClearEngine.upload_blocks .large
        (show codes.map Int.toNat ≠ [] by simpa using hcodes)
      rw [List.map_map] at uploaded
      exact (hE.upload h).yields uploaded
  | batch h => exact Yields.done h

/-! ### Arrangements -/

/-- What features look like when they come out: the outputs of their evaluations. -/
def answers (rows : List (List Evaluation)) : List (List ClearBlock) :=
  rows.map (·.map fun x => ⟨.large, x.output⟩)

/-- A plan performs evaluations row by row. -/
structure LookupPlan.Runs (p : LookupPlan) (rows : List (List Evaluation)) : Prop where
  codes_eq : p.codes = rows.flatten.map (·.code)
  lookups_eq : p.lookups = rows.flatten.map (·.lookup)
  numbers : p.Numbers (answers rows)
  cutOutputs_eq : p.cutOutputs (answers rows).flatten = (answers rows).mapIdx fun f row => (f, row)

theorem flatten_answers (rows : List (List Evaluation)) :
    (answers rows).flatten = rows.flatten.map fun x => ⟨.large, x.output⟩ :=
  (List.map_flatten).symm

variable {plan : LookupPlan} {rows : List (List Evaluation)} {J : List Nat → β → Prop}
  {receive : β → Nat × List C → Process σ Failure β}

/-- On the host, evaluations are tasks of single ciphertexts. -/
theorem foldOnHost_answers (hplan : plan.Runs rows)
    (htakes : Takes G RC (answers rows) J receive) (schedule : Schedule) {workers? : Option Int}
    {n : Int} (hworkers : workers? = some n) (hn : 1 ≤ n) {key : KeyLabel}
    {task : C → DigitLookup → Process σ Failure C}
    (htask : ∀ x ∈ rows.flatten, ∀ c, RC c ⟨key, x.code.toNat⟩ →
      (task c x.lookup).Yields G fun c' => RC c' ⟨.large, x.output⟩) {cs : List C}
    (hcs : List.Forall₂ RC cs (plan.codes.map fun code => ⟨key, code.toNat⟩)) {b : β}
    (hb : J [] b) :
    (foldOnHost plan schedule workers? task cs receive b).Yields G fun b =>
      ∃ done, done.Perm (List.range rows.length) ∧ J done b := by
  have count : (answers rows).length = rows.length := by simp [answers]
  rw [← count]
  rw [hplan.codes_eq, List.map_map] at hcs
  refine foldOnHost_yields hplan.numbers htakes schedule hworkers hn ?_ ?_ hb
  · rw [hcs.length_eq, hplan.lookups_eq, List.length_map, List.length_map]
  · rw [hplan.lookups_eq, flatten_answers]
    generalize rows.flatten = xs at htask hcs
    induction xs generalizing cs with
    | nil => simp
    | cons x xs ih =>
        cases hcs with
        | cons head tail =>
            refine .cons (htask x (by simp) _ head) (ih ?_ tail)
            exact fun y hy => htask y (List.mem_cons_of_mem x hy)

/-- On the accelerator, evaluations are one batch. -/
theorem evaluateBatch_answers (hE : E.Evaluates G k RC RB) (hplan : plan.Runs rows)
    (hsound : ∀ x ∈ rows.flatten, x.Sound k) (htakes : Takes G RC (answers rows) J receive) {b : B}
    (hb : RB b ⟨.small, plan.codes.map Int.toNat⟩) {start : β} (hstart : J [] start) :
    (do
      let evaluated ← E.bootstrapAll b plan.lookups
      let outputs ← E.download evaluated
      foldFeatures receive start (plan.cutOutputs outputs)).Yields G fun b =>
        ∃ done : List Nat, done.Perm (List.range rows.length) ∧ J done b := by
  have count : (answers rows).length = rows.length := by simp [answers]
  rw [← count]
  have evaluated := ClearEngine.bootstrapAll_sound hsound
  rw [hplan.codes_eq, List.map_map] at hb
  rw [hplan.lookups_eq]
  apply ((hE.bootstrapAll hb _).yields evaluated).bind
  intro b hb
  apply ((hE.download hb).yields rfl).bind
  intro outputs houtputs
  refine foldFeatures_cutOutputs htakes hplan.cutOutputs_eq ?_ hstart
  rw [flatten_answers]
  unfold ClearEngine.download at houtputs
  rwa [List.map_map] at houtputs

/-- Without lookups there is nothing to cut. -/
theorem foldNothing_answers (hplan : plan.Runs rows)
    (htakes : Takes G RC (answers rows) J receive) (hnone : plan.lookupCount = 0) {start : β}
    (hstart : J [] start) :
    (foldFeatures receive start (plan.cutOutputs [])).Yields G fun b =>
      ∃ done, done.Perm (List.range rows.length) ∧ J done b := by
  have count : (answers rows).length = rows.length := by simp [answers]
  have empty : rows.flatten = [] := by
    unfold LookupPlan.lookupCount at hnone
    rw [hplan.lookups_eq, List.length_map] at hnone
    exact List.length_eq_zero_iff.1 hnone
  rw [← count]
  refine foldFeatures_cutOutputs htakes hplan.cutOutputs_eq ?_ hstart
  rw [flatten_answers, empty]
  exact .nil

theorem LookupPlan.Runs.codes_ne_nil (hplan : plan.Runs rows) (hsome : plan.lookupCount ≠ 0) :
    plan.codes ≠ [] := by
  intro hnil
  apply hsome
  unfold LookupPlan.lookupCount
  rw [hplan.codes_eq, List.map_eq_nil_iff] at hnil
  rw [hplan.lookups_eq, hnil]
  rfl

/-- The codes of sound evaluations are messages. -/
theorem LookupPlan.Runs.codes_inside (hplan : plan.Runs rows)
    (hsound : ∀ x ∈ rows.flatten, x.Sound k) :
    ∀ code ∈ plan.codes, 0 ≤ code ∧ code < k.totalModulus := by
  intro code hcode
  rw [hplan.codes_eq] at hcode
  obtain ⟨x, hx, rfl⟩ := List.mem_map.1 hcode
  exact ⟨(hsound x hx).code_nonneg, (hsound x hx).code_lt⟩

/-- Key switches of single ciphertexts are tasks that cannot fail. -/
theorem switches_yield (hE : E.Evaluates G k RC RB) {codes : List Int} {cs : List C}
    (hcs : List.Forall₂ RC cs (codes.map fun code => ⟨.large, code.toNat⟩)) :
    List.Forall₂ (fun p (b : ClearBlock) => p.Always G fun r => ∃ c, r = .ok c ∧ RC c b)
      (cs.map E.keyswitch) (codes.map fun code => ⟨.small, code.toNat⟩) := by
  rw [List.forall₂_map_left_iff, List.forall₂_map_right_iff]
  rw [List.forall₂_map_right_iff] at hcs
  exact hcs.imp fun c code hc => (hE.keyswitch hc).yields rfl

/-- Every arrangement takes every feature once, under every schedule. -/
theorem Arrangement.fold_yields (hE : E.Evaluates G k RC RB) (hplan : plan.Runs rows)
    (hsound : ∀ x ∈ rows.flatten, x.Sound k) (htakes : Takes G RC (answers rows) J receive)
    (arrangement : Arrangement) (hworkers : arrangement ≠ .accelerator →
      ∃ n, arrangement.workers? = some n ∧ 1 ≤ n) (schedule : Schedule)
    {encrypted : Encrypted C B} (hencrypted : encrypted.Holds RC RB plan.codes) {start : β}
    (hstart : J [] start) :
    (arrangement.fold E schedule plan encrypted receive start).Yields G fun b =>
      ∃ done, done.Perm (List.range rows.length) ∧ J done b := by
  have switchedAll : ∀ b, RB b ⟨.large, plan.codes.map Int.toNat⟩ →
      (E.keyswitchAll b).Yields G fun b => RB b ⟨.small, plan.codes.map Int.toNat⟩ :=
    fun b hb => (hE.keyswitchAll hb).yields rfl
  cases arrangement with
  | host workers? =>
      obtain ⟨n, hcount, hn⟩ := hworkers (by simp)
      apply (encrypted.onHost_yields hE hencrypted).bind
      intro cs hcs
      refine foldOnHost_answers hplan htakes schedule hcount hn ?_ hcs hstart
      exact fun x hx c hc => (hE.evaluateTable hc x.lookup).yields
        (ClearEngine.evaluateTable_sound (hsound x hx))
  | accelerator =>
      unfold Arrangement.fold
      simp only
      split
      · rename_i hnone
        exact foldNothing_answers hplan htakes hnone hstart
      · rename_i hsome
        apply (encrypted.onAccelerator_yields hE (hplan.codes_ne_nil hsome) hencrypted).bind
        intro b hb
        apply (switchedAll b hb).bind
        intro b hb
        exact evaluateBatch_answers hE hplan hsound htakes hb hstart
  | mixed keyswitchOn lookupOn workers? =>
      obtain ⟨n, hcount, hn⟩ := hworkers (by simp)
      unfold Arrangement.fold
      simp only
      split
      · rename_i hnone
        exact foldNothing_answers hplan htakes hnone hstart
      · rename_i hsome
        cases keyswitchOn with
        | accelerator =>
            apply (encrypted.onAccelerator_yields hE (hplan.codes_ne_nil hsome) hencrypted).bind
            intro b hb
            apply (switchedAll b hb).bind
            intro b hb
            apply ((hE.download hb).yields rfl).bind
            intro cs hcs
            unfold ClearEngine.download at hcs
            rw [List.map_map] at hcs
            refine foldOnHost_answers hplan htakes schedule hcount hn ?_ hcs hstart
            exact fun x hx c hc => (hE.bootstrap hc x.lookup).yields
              (ClearEngine.bootstrap_sound (hsound x hx))
        | host =>
            apply (encrypted.onHost_yields hE hencrypted).bind
            intro cs hcs
            apply (requireWorkers_yields hcount hn).bind
            intro _ _
            apply (interleave_always schedule (switches_yield hE hcs)).bind
            intro results hresults
            obtain ⟨switched, hfirst, hswitched⟩ := firstFailure_eq_ok hresults
            apply (Yields.ofExcept hfirst rfl).bind
            intro switched' hsame
            subst hsame
            have uploaded := ClearEngine.upload_blocks .small
              (show plan.codes.map Int.toNat ≠ [] by simpa using hplan.codes_ne_nil hsome)
            rw [List.map_map] at uploaded
            apply ((hE.upload hswitched).yields uploaded).bind
            intro b hb
            exact evaluateBatch_answers hE hplan hsound htakes hb hstart

end Arrangements

end SealedMatch
