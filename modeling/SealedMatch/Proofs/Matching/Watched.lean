/-
Module: SealedMatch.Proofs.Matching.Watched
Purpose: Matchers whose engine is under watch: every call of an operation leaves a record.
Trusted boundary: none
Main exports: CallRecord, Matcher.watched, Matcher.follows_authenticate, Matcher.follows_verify
-/
import SealedMatch.Matching.Matcher
import SealedMatch.Proofs.Process.Watch

namespace SealedMatch

open Process hiding bind bind_assoc

/-- A call of an engine operation that is over, and the failure that it ended with, if any. -/
structure CallRecord where
  operation : EngineOperation
  failure? : Option Failure

/-- The record of a call by its outcome. -/
def CallRecord.of {α : Type} (operation : EngineOperation) : Except Failure α → CallRecord
  | .ok _ => ⟨operation, none⟩
  | .error f => ⟨operation, some f⟩

variable {σ C B β : Type}

/-- An engine that records every call once it is over. What its operations do is the same. -/
def CipherEngine.watched (E : CipherEngine σ C B) :
    CipherEngine (Watched σ CallRecord) C B where
  messageModulus := E.messageModulus
  totalModulus := E.totalModulus
  encrypt v := (E.encrypt v).watch (.of .encrypt)
  encryptAll vs := (E.encryptAll vs).watch (.of .encryptAll)
  keyswitch c := (E.keyswitch c).watch (.of .keyswitch)
  keyswitchAll b := (E.keyswitchAll b).watch (.of .keyswitchAll)
  bootstrap c l := (E.bootstrap c l).watch (.of .bootstrap)
  bootstrapAll b ls := (E.bootstrapAll b ls).watch (.of .bootstrapAll)
  evaluateTable c l := (E.evaluateTable c l).watch (.of .evaluateTable)
  upload cs := (E.upload cs).watch (.of .upload)
  download b := (E.download b).watch (.of .download)
  publicZero n := (E.publicZero n).watch (.of .publicZero)
  widen x n := (E.widen x n).watch (.of .widen)
  add x y := (E.add x y).watch (.of .add)
  atLeast x n := (E.atLeast x n).watch (.of .atLeast)
  decrypt c := (E.decrypt c).watch (.of .decrypt)
  decryptInteger x := (E.decryptInteger x).watch (.of .decryptInteger)
  decryptTruth c := (E.decryptTruth c).watch (.of .decryptTruth)

/-- The instruments of a state beside which records are kept. -/
def Instruments.watched (i : Instruments σ) : Instruments (Watched σ CallRecord) where
  begin := Watched.lift i.begin
  now w := i.now w.state
  tick := Watched.lift i.tick

/-- A matcher whose engine records its calls. -/
def Matcher.watched (m : Matcher σ C B) : Matcher (Watched σ CallRecord) C B :=
  ⟨m.engine.watched, m.strategy, m.instruments.watched⟩

/-! ### What a matcher does is what it does under watch -/

section Streams

variable {plan : LookupPlan} {receive : β → Nat × List C → Process σ Failure β}
  {receive' : β → Nat × List C → Process (Watched σ CallRecord) Failure β}
  {task : C → DigitLookup → Process σ Failure C}
  {task' : C → DigitLookup → Process (Watched σ CallRecord) Failure C}

theorem mirrors_encryptSingly (E : CipherEngine σ C B) (codes : List Int) :
    Mirrors (Strategy.encryptSingly E codes) (Strategy.encryptSingly E.watched codes) := by
  induction codes with
  | nil => exact .done []
  | cons code rest ih =>
      exact (Mirrors.watch _ (E.encrypt code)).bind fun c => ih.bind fun cs => .done (c :: cs)

theorem mirrors_encrypt (s : Strategy) (E : CipherEngine σ C B) (codes : List Int) :
    Mirrors (s.encrypt E codes) (s.encrypt E.watched codes) := by
  unfold Strategy.encrypt
  split
  · exact (Mirrors.watch _ (E.encryptAll codes)).bind fun b => .done (Encrypted.batch b)
  · exact (mirrors_encryptSingly E codes).bind fun cs => .done (Encrypted.singles cs)

theorem mirrors_onHost (E : CipherEngine σ C B) (encrypted : Encrypted C B) :
    Mirrors (encrypted.onHost E) (encrypted.onHost E.watched) := by
  cases encrypted with
  | singles cs => exact .done cs
  | batch b => exact .watch _ (E.download b)

theorem mirrors_onAccelerator (E : CipherEngine σ C B) (encrypted : Encrypted C B) :
    Mirrors (encrypted.onAccelerator E) (encrypted.onAccelerator E.watched) := by
  cases encrypted with
  | singles cs => exact .watch _ (E.upload cs)
  | batch b => exact .done b

theorem mirrors_foldFeatures (hreceive : ∀ b x, Mirrors (receive b x) (receive' b x)) (b : β)
    (features : List (Nat × List C)) :
    Mirrors (foldFeatures receive b features) (foldFeatures receive' b features) := by
  induction features generalizing b with
  | nil => exact .done b
  | cons x rest ih => exact (hreceive b x).bind ih

theorem mirrors_receiveArrival (hreceive : ∀ b x, Mirrors (receive b x) (receive' b x))
    (state : Regrouping C × β) (arrival : Nat × Except Failure C) :
    Mirrors (receiveArrival plan receive state arrival)
      (receiveArrival plan receive' state arrival) := by
  unfold receiveArrival
  split
  · exact .fail _
  · split
    · exact .fail _
    · exact .done _
    · exact (hreceive _ _).bind fun b => .done _

theorem mirrors_requireWorkers (workers? : Option Int) :
    Mirrors (requireWorkers workers? : Process σ Failure Unit)
      (requireWorkers workers? : Process (Watched σ CallRecord) Failure Unit) := by
  unfold requireWorkers
  split
  · exact .fail _
  · split
    · exact .done ()
    · exact .fail _

theorem mirrors_positionTasks (htask : ∀ c l, Mirrors (task c l) (task' c l)) (cs : List C) :
    MirrorTasks (positionTasks plan task cs) (positionTasks plan task' cs) := by
  unfold positionTasks MirrorTasks
  refine List.forall₂_iff_get.2 ⟨by simp, fun i hi hi' => ?_⟩
  simp only [List.get_eq_getElem, List.getElem_mapIdx]
  cases cs[i]? with
  | none => exact ⟨rfl, .fail _⟩
  | some c => exact ⟨rfl, htask c _⟩

theorem follows_foldOnHost (hreceive : ∀ b x, Mirrors (receive b x) (receive' b x))
    (htask : ∀ c l, Mirrors (task c l) (task' c l)) (schedule : Schedule)
    (workers? : Option Int) (cs : List C) (b : β) :
    Follows (foldOnHost plan schedule workers? task cs receive b) fun turns =>
      foldOnHost plan turns workers? task' cs receive' b := by
  unfold foldOnHost
  refine (mirrors_foldFeatures hreceive b _).bind_follows fun b => ?_
  split
  · exact (Mirrors.done b).follows
  · refine (mirrors_requireWorkers workers?).bind_follows fun _ => ?_
    exact (follows_gather (mirrors_receiveArrival hreceive) schedule
      (mirrors_positionTasks htask cs) (.empty, b)).bind fun state => .done state.2

theorem follows_fold (E : CipherEngine σ C B)
    (hreceive : ∀ b x, Mirrors (receive b x) (receive' b x)) (arrangement : Arrangement)
    (schedule : Schedule) (encrypted : Encrypted C B) (b : β) :
    Follows (arrangement.fold E schedule plan encrypted receive b) fun turns =>
      arrangement.fold E.watched turns plan encrypted receive' b := by
  cases arrangement with
  | host workers? =>
      exact (mirrors_onHost E encrypted).bind_follows fun cs =>
        follows_foldOnHost hreceive (fun c l => .watch _ (E.evaluateTable c l)) schedule workers?
          cs b
  | accelerator =>
      unfold Arrangement.fold
      simp only
      split
      · exact (mirrors_foldFeatures hreceive b _).follows
      · refine Mirrors.follows ((mirrors_onAccelerator E encrypted).bind fun batch => ?_)
        refine (Mirrors.watch _ (E.keyswitchAll batch)).bind fun switched => ?_
        refine (Mirrors.watch _ (E.bootstrapAll switched plan.lookups)).bind fun evaluated => ?_
        exact (Mirrors.watch _ (E.download evaluated)).bind fun outputs =>
          mirrors_foldFeatures hreceive b _
  | mixed keyswitchOn lookupOn workers? =>
      unfold Arrangement.fold
      simp only
      split
      · exact (mirrors_foldFeatures hreceive b _).follows
      · cases keyswitchOn with
        | accelerator =>
            refine (mirrors_onAccelerator E encrypted).bind_follows fun batch => ?_
            refine (Mirrors.watch _ (E.keyswitchAll batch)).bind_follows fun switched => ?_
            exact (Mirrors.watch _ (E.download switched)).bind_follows fun cs =>
              follows_foldOnHost hreceive (fun c l => .watch _ (E.bootstrap c l)) schedule
                workers? cs b
        | host =>
            refine (mirrors_onHost E encrypted).bind_follows fun cs => ?_
            refine (mirrors_requireWorkers workers?).bind_follows fun _ => ?_
            have switches : List.Forall₂ Mirrors (cs.map E.keyswitch)
                (cs.map E.watched.keyswitch) := by
              rw [List.forall₂_map_left_iff, List.forall₂_map_right_iff, List.forall₂_same]
              exact fun c _ => .watch _ (E.keyswitch c)
            refine (follows_interleave switches schedule).bind fun results => ?_
            refine (Mirrors.ofExcept (firstFailure results)).bind fun switched => ?_
            refine (Mirrors.watch _ (E.upload switched)).bind fun batch => ?_
            refine (Mirrors.watch _ (E.bootstrapAll batch plan.lookups)).bind fun evaluated => ?_
            exact (Mirrors.watch _ (E.download evaluated)).bind fun outputs =>
              mirrors_foldFeatures hreceive b _

end Streams

namespace Matcher

variable (m : Matcher σ C B)

theorem mirrors_addFeature (width : Int) (debug : Bool) (sum : Sum C) (feature : Nat × List C) :
    Mirrors (m.addFeature width debug sum feature)
      (m.watched.addFeature width debug sum feature) := by
  unfold addFeature during
  refine Mirrors.mapError ?_ _
  refine (Mirrors.watch _ (m.engine.widen ⟨feature.2⟩ width)).bind fun value => ?_
  split
  · refine (Mirrors.watch _ (m.engine.decryptInteger value)).bind fun score => ?_
    exact (Mirrors.watch _ (m.engine.add sum.total value)).bind fun total => .done _
  · exact (Mirrors.watch _ (m.engine.add sum.total value)).bind fun total => .done _

theorem follows_sumFeatures (plan : LookupPlan) (width : Int) (debug : Bool)
    (schedule : Schedule) :
    Follows (m.sumFeatures plan width debug schedule) fun turns =>
      m.watched.sumFeatures plan width debug turns := by
  unfold sumFeatures during
  refine ((mirrors_encrypt m.strategy m.engine plan.codes).mapError _).bind_follows
    fun encrypted => Follows.mapError ?_ _
  exact (Mirrors.watch _ (m.engine.publicZero width)).bind_follows fun zero =>
    follows_fold m.engine (m.mirrors_addFeature width debug) m.strategy.arrangement schedule
      encrypted _

/-- For every run there is a run under watch that ends alike. -/
theorem follows_authenticate (probe : List Int) (compiled : EnrolledTemplate) (debug : Bool)
    (schedule : Schedule) :
    Follows (m.authenticate probe compiled debug schedule) fun turns =>
      m.watched.authenticate probe compiled debug turns := by
  unfold authenticate readClock during
  refine (Mirrors.act _).bind_follows fun _ => ?_
  refine (Mirrors.ofExcept _).bind_follows fun _ => ?_
  refine (Mirrors.ofExcept _).bind_follows fun plan => ?_
  refine (Mirrors.fetch _ _).bind_follows fun started => ?_
  refine (m.follows_sumFeatures plan compiled.sumWidth debug schedule).bind fun sum => ?_
  have compared := Mirrors.watch (CallRecord.of .atLeast)
    (m.engine.atLeast sum.total compiled.threshold)
  refine (compared.mapError _).bind fun decision => ?_
  refine (Mirrors.fetch _ _).bind fun stopped => ?_
  split
  · refine Mirrors.bind ?_ fun trace => .done _
    unfold traceOf
    exact (Mirrors.watch _ (m.engine.decryptInteger sum.total)).bind fun total => .done _
  · exact .done _

theorem follows_verify (stamp : Stamp) (probe : List Int) (compiled : EnrolledTemplate)
    (datasetName : String) (debug : Bool) (schedule : Schedule) :
    Follows (m.verify stamp probe compiled datasetName debug schedule) fun turns =>
      m.watched.verify stamp probe compiled datasetName debug turns := by
  have decided : Follows (m.decide probe compiled debug schedule) fun turns =>
      m.watched.decide probe compiled debug turns := by
    unfold decide
    exact (m.follows_authenticate probe compiled debug schedule).bind fun decision =>
      (Mirrors.watch _ (m.engine.decryptTruth decision.ciphertext)).bind fun accepted => .done _
  unfold verify
  refine (decided.attempt).bind fun r => ?_
  split
  · exact .done _
  · split
    · exact .done _
    · exact .fail _

end Matcher

end SealedMatch
