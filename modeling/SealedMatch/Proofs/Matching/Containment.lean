/-
Module: SealedMatch.Proofs.Matching.Containment
Purpose: What becomes of a fault of the engine: up to the comparison it is contained as an engine
  failure, after it it escapes.
Trusted boundary: none
Main exports: Answers, Honest, Matcher.sumFeatures_honest, Matcher.authenticate_spends,
  Matcher.contains_until_compared
-/
import Mathlib.Algebra.Order.Group.Multiset
import SealedMatch.Engine.FaultPlan
import SealedMatch.Proofs.Matching.Independence
import SealedMatch.Proofs.Matching.Watched

namespace SealedMatch

open Process hiding bind bind_assoc

variable {σ C B α β : Type}

/-! ### Records -/

/-- Records are added and nothing else happens to them. -/
def Notes (d : Multiset CallRecord) (w w' : Watched σ CallRecord) : Prop :=
  (w'.notes : Multiset CallRecord) = w.notes + d

theorem notes_lift (update : σ → σ) (w : Watched σ CallRecord) : Notes 0 w (w.lift update) := by
  unfold Notes
  rw [add_zero]
  rfl

/-- A call under watch adds its own record. -/
theorem watch_spends (operation : EngineOperation) (p : Process σ Failure α)
    (before : Multiset CallRecord) :
    (p.watch (.of operation)).Spends Notes
      (fun calls r => calls = before + {CallRecord.of operation r}) before := by
  induction p generalizing before with
  | done a => exact ⟨{CallRecord.of operation (.ok a)}, fun w => rfl, fun _ => rfl⟩
  | fail e => exact ⟨{CallRecord.of operation (.error e)}, fun w => rfl, fun _ => rfl⟩
  | step update next ih =>
      refine ⟨0, notes_lift update, fun w => ?_⟩
      rw [add_zero]
      exact ih w.state before

/-- Every failure that a call ended with comes from outside the coded families. -/
def Foreign (calls : Multiset CallRecord) : Prop :=
  ∀ c ∈ calls, ∀ f, c.failure? = some f → ∃ fault, f = .fault fault

/-- All calls ended with a result. -/
def Unharmed (calls : Multiset CallRecord) : Prop := ∀ c ∈ calls, c.failure? = none

theorem Foreign.of_le {calls calls' : Multiset CallRecord} (h : Foreign calls')
    (hle : calls ≤ calls') : Foreign calls :=
  fun c hc => h c (Multiset.mem_of_le hle hc)

/-! ### Parts of an authentication before the comparison

A part answers for its calls: if one of them ends with a fault, so does the part. -/

/-- How a part may end, given the calls that it made. Its failure is one of `E`, unless a call ended
with a coded failure. -/
structure Answers (E : Failure → Prop) (calls : Multiset CallRecord) (r : Except Failure α) :
    Prop where
  uncompared : ∀ c ∈ calls, c.operation ≠ .atLeast
  unharmed : ∀ a, r = .ok a → Unharmed calls
  answered : ∀ e, r = .error e → Foreign calls → E e

theorem Answers.none {E : Failure → Prop} {r : Except Failure α} (h : ∀ e, r = .error e → E e) :
    Answers E 0 r :=
  ⟨by simp, fun _ _ c hc => by simp at hc, fun e he _ => h e he⟩

/-- Calls that ended with a result may come first. -/
theorem Answers.after {E : Failure → Prop} {a : β} {before calls : Multiset CallRecord}
    {r : Except Failure α} (hbefore : Answers E before (.ok a : Except Failure β))
    (h : Answers E calls r) : Answers E (before + calls) r := by
  refine ⟨fun c hc => ?_, fun b hb c hc => ?_, fun e he hforeign => ?_⟩
  · rcases Multiset.mem_add.1 hc with hc | hc
    · exact hbefore.uncompared c hc
    · exact h.uncompared c hc
  · rcases Multiset.mem_add.1 hc with hc | hc
    · exact hbefore.unharmed a rfl c hc
    · exact h.unharmed b hb c hc
  · exact h.answered e he (hforeign.of_le (Multiset.le_add_left _ _))

/-- A failure answers whatever the result would have been. -/
theorem Answers.of_error {E : Failure → Prop} {e : Failure} {calls : Multiset CallRecord}
    (h : Answers E calls (.error e : Except Failure α)) :
    Answers E calls (.error e : Except Failure β) := by
  refine ⟨h.uncompared, fun b hb => ?_, fun e' he' => ?_⟩
  · cases hb
  · cases he'
    exact h.answered e rfl

/-- A failure stays the answer when more calls are made beside. -/
theorem Answers.beside {E : Failure → Prop} {e : Failure} {calls more : Multiset CallRecord}
    {r : Except Failure β} (h : Answers E calls (.error e : Except Failure α))
    (hmore : Answers E more r) : Answers E (calls + more) (.error e : Except Failure α) := by
  refine ⟨fun c hc => ?_, fun a ha => ?_, fun e' he' hforeign => ?_⟩
  · rcases Multiset.mem_add.1 hc with hc | hc
    · exact h.uncompared c hc
    · exact hmore.uncompared c hc
  · cases ha
  · exact h.answered e' he' (hforeign.of_le (Multiset.le_add_right _ _))

/-- A part of an authentication that answers for its calls. -/
def Honest (E : Failure → Prop) (p : Process (Watched σ CallRecord) Failure α) : Prop :=
  p.Spends Notes (Answers E) 0

namespace Honest

variable {E : Failure → Prop}

theorem done (a : α) : Honest E (.done a : Process (Watched σ CallRecord) Failure α) :=
  Answers.none (by simp)

theorem fail {e : Failure} (h : E e) :
    Honest E (.fail e : Process (Watched σ CallRecord) Failure α) :=
  Answers.none fun e' he' => by
    cases he'
    exact h

theorem bind {p : Process (Watched σ CallRecord) Failure α}
    {f : α → Process (Watched σ CallRecord) Failure β} (hp : Honest E p)
    (hf : ∀ a, Honest E (f a)) : Honest E (p.bind f) := by
  refine Spends.bind hp (fun calls a ha => ?_) fun calls e he => he.of_error
  refine ((hf a).rebase calls).mono ?_
  rintro _ r ⟨more, rfl, hr⟩
  exact ha.after hr

theorem mapError {E' : Failure → Prop} {p : Process (Watched σ CallRecord) Failure α}
    {f : Failure → Failure} (hp : Honest E p) (h : ∀ e, E e → E' (f e)) :
    Honest E' (p.mapError f) := by
  refine Spends.mapError hp fun calls r hr =>
    ⟨hr.uncompared, fun a ha => ?_, fun e he hforeign => ?_⟩
  · cases r with
    | ok a => exact hr.unharmed a rfl
    | error e => cases ha
  · cases r with
    | ok a => cases he
    | error e' =>
        cases he
        exact h e' (hr.answered e' rfl hforeign)

/-- A call answers for itself. -/
theorem watch {operation : EngineOperation} (hoperation : operation ≠ .atLeast)
    (hfault : ∀ fault, E (.fault fault)) (p : Process σ Failure α) :
    Honest E (p.watch (.of operation)) := by
  refine (watch_spends operation p 0).mono fun calls r hr => ?_
  rw [zero_add] at hr
  subst hr
  refine ⟨fun c hc => ?_, fun a ha c hc => ?_, fun e he hforeign => ?_⟩
  · rw [Multiset.mem_singleton.1 hc]
    cases r <;> exact hoperation
  · rw [Multiset.mem_singleton.1 hc, ha]
    rfl
  · subst he
    obtain ⟨fault, rfl⟩ := hforeign _ (Multiset.mem_singleton_self _) e rfl
    exact hfault fault

end Honest

/-! ### Features -/

/-- An engine failure that presents a fault from outside. -/
def Contained (strategy : String) (e : Failure) : Prop :=
  ∃ step message, e = .engine (.during step message strategy)

/-- A fault from outside, or one that is contained already. -/
def Inner (strategy : String) (e : Failure) : Prop :=
  (∃ fault, e = .fault fault) ∨ Contained strategy e

theorem inner_fault (strategy : String) (fault : Fault) : Inner strategy (.fault fault) :=
  Or.inl ⟨fault, rfl⟩

section Streams

variable {strategy : String} {plan : LookupPlan}
  {receive : β → Nat × List C → Process (Watched σ CallRecord) Failure β}

theorem Regrouping.file_fault {r : Regrouping α} {position : Nat} {result : α} {e : Failure}
    (h : r.file plan position result = .error e) : ∃ fault, e = .fault fault := by
  unfold file at h
  split at h
  · dsimp only at h
    split at h
    · split at h
      · cases h
      · cases h
        exact ⟨_, rfl⟩
    · cases h
  · cases h
    exact ⟨_, rfl⟩

theorem foldFeatures_honest (hreceive : ∀ b x, Honest (Inner strategy) (receive b x)) (b : β)
    (features : List (Nat × List C)) :
    Honest (Inner strategy) (foldFeatures receive b features) := by
  induction features generalizing b with
  | nil => exact .done b
  | cons x rest ih => exact (hreceive b x).bind ih

theorem receiveArrival_honest (hreceive : ∀ b x, Honest (Inner strategy) (receive b x))
    (state : Regrouping C × β) (position : Nat) (c : C) :
    Honest (Inner strategy) (receiveArrival plan receive state (position, .ok c)) := by
  unfold receiveArrival
  simp only
  split
  · rename_i e hfile
    obtain ⟨fault, rfl⟩ := Regrouping.file_fault hfile
    exact .fail (inner_fault strategy fault)
  · exact .done _
  · exact (hreceive _ _).bind fun b => .done _

theorem requireWorkers_honest (workers? : Option Int) :
    Honest (Inner strategy)
      (requireWorkers workers? : Process (Watched σ CallRecord) Failure Unit) := by
  unfold requireWorkers
  split
  · exact .fail (inner_fault strategy _)
  · split
    · exact .done ()
    · exact .fail (inner_fault strategy _)

theorem fst_positionTasks {τ : Type} (plan : LookupPlan)
    (task : C → DigitLookup → Process τ Failure C) (cs : List C) :
    (positionTasks plan task cs).map Prod.fst = List.range plan.lookups.length := by
  unfold positionTasks
  apply List.ext_getElem (by simp)
  intro i hi hi'
  simp only [List.getElem_map, List.getElem_mapIdx, List.getElem_range]
  split <;> rfl

theorem positionTasks_honest {task : C → DigitLookup → Process (Watched σ CallRecord) Failure C}
    (htask : ∀ c l, Honest (Inner strategy) (task c l)) (cs : List C) :
    ∀ t ∈ positionTasks plan task cs, Honest (Inner strategy) t.2 := by
  intro t ht
  unfold positionTasks at ht
  obtain ⟨i, hi, rfl⟩ := List.mem_mapIdx.1 ht
  split
  · exact htask _ _
  · exact .fail (inner_fault strategy _)

/-- Workers and their consumer answer for all calls of both: a failing task is handed over, and a
failing consumer has the last word. -/
theorem gather_honest (hreceive : ∀ b x, Honest (Inner strategy) (receive b x))
    {task : C → DigitLookup → Process (Watched σ CallRecord) Failure C}
    (htask : ∀ c l, Honest (Inner strategy) (task c l)) (schedule : Schedule) (cs : List C)
    (state : Regrouping C × β) :
    Honest (Inner strategy) (Process.gather (receiveArrival plan receive) schedule
      (positionTasks plan task cs) state) := by
  have accepts : Accepts Notes (fun _ => Answers (Inner strategy))
      (fun _ calls (state : Regrouping C × β) =>
        Answers (Inner strategy) calls (.ok state : Except Failure _))
      (fun calls e => Answers (Inner strategy) calls (.error e : Except Failure (Regrouping C × β)))
      ((positionTasks plan task cs).map Prod.fst) (receiveArrival plan receive) := by
    intro taken calls state position more r hstate _ _ hr
    cases r with
    | error e =>
        have first : Answers (Inner strategy) more (.error e : Except Failure (Regrouping C × β)) :=
          hr.of_error
        exact hstate.after first
    | ok c =>
        have arrived := hstate.after hr
        refine ((receiveArrival_honest hreceive state position c).rebase _).mono ?_
        rintro _ r ⟨rest, rfl, hrest⟩
        have all := arrived.after hrest
        cases r with
        | ok state => exact all
        | error e => exact all
  have stands : Stands (fun _ => Answers (α := C) (Inner strategy)) (fun calls e =>
      Answers (Inner strategy) calls (.error e : Except Failure (Regrouping C × β))) :=
    fun calls e _ more r he hr => he.beside hr
  have nodup : ((positionTasks plan task cs).map Prod.fst).Nodup := by
    rw [fst_positionTasks]
    exact List.nodup_range
  refine (gather_spends accepts stands nodup schedule (positionTasks_honest htask cs)
    (Answers.none (by simp))).mono fun calls r hr => ?_
  cases r with
  | ok state =>
      obtain ⟨_, _, hr⟩ := hr
      exact hr
  | error e => exact hr

theorem foldOnHost_honest (hreceive : ∀ b x, Honest (Inner strategy) (receive b x))
    {task : C → DigitLookup → Process (Watched σ CallRecord) Failure C}
    (htask : ∀ c l, Honest (Inner strategy) (task c l)) (schedule : Schedule)
    (workers? : Option Int) (cs : List C) (b : β) :
    Honest (Inner strategy) (foldOnHost plan schedule workers? task cs receive b) := by
  unfold foldOnHost
  refine (foldFeatures_honest hreceive b _).bind fun b => ?_
  split
  · exact .done b
  · refine (requireWorkers_honest workers?).bind fun _ => ?_
    exact (gather_honest hreceive htask schedule cs (.empty, b)).bind fun state => .done _

/-- Calls of one operation on many ciphertexts at once answer for all of them. -/
theorem interleave_honest {ps : List (Process (Watched σ CallRecord) Failure C)}
    (hps : ∀ p ∈ ps, Honest (Inner strategy) p) (schedule : Schedule) :
    Honest (Inner strategy) ((Process.interleave schedule ps).bind fun results =>
      .ofExcept (firstFailure results)) := by
  have specs : List.Forall₂
      (fun (x : Process (Watched σ CallRecord) Failure C × Multiset CallRecord)
        (_ : Process (Watched σ CallRecord) Failure C) =>
        x.1.Spends Notes (fun calls r => Answers (Inner strategy) calls r) x.2)
      (ps.map fun p => (p, 0)) ps := by
    rw [List.forall₂_map_left_iff, List.forall₂_same]
    exact hps
  have started : (Process.interleave schedule _ : Process _ Failure _).Pays _ _ _ :=
    interleave_spends schedule specs 0
  have unpaid : (ps.map fun p => (p, (0 : Multiset CallRecord))).map Prod.fst = ps := by
    rw [List.map_map]
    exact List.map_id _
  have nothing : ((ps.map fun p => (p, (0 : Multiset CallRecord))).map Prod.snd).sum = 0 := by
    rw [List.map_map]
    exact List.sum_map_zero
  rw [unpaid, nothing, zero_add] at started
  refine Spends.bind started ?_ (by rintro calls e ⟨rs, hrs, _⟩; cases hrs)
  rintro _ _ ⟨_, hrs, ys, rfl, rfl, hys⟩
  cases hrs
  rw [spends_ofExcept, zero_add]
  -- the first failure answers for its own call, and the others were made beside it
  clear started nothing unpaid specs hps
  induction hys with
  | nil => exact .none (by simp [firstFailure])
  | cons head tail ih =>
      rename_i y p ys ps
      obtain ⟨r, calls⟩ := y
      rw [List.map_cons, List.map_cons, List.sum_cons]
      cases r with
      | ok c =>
          unfold firstFailure
          have rest := head.after ih
          cases hrest : firstFailure (ys.map Prod.fst) with
          | ok cs =>
              rw [hrest] at rest
              refine ⟨rest.uncompared, fun a _ => rest.unharmed cs rfl, fun e he => ?_⟩
              cases he
          | error e =>
              rw [hrest] at rest
              exact rest.of_error
      | error e => exact (head.beside ih).of_error

theorem fold_honest (E : CipherEngine σ C B)
    (hreceive : ∀ b x, Honest (Inner strategy) (receive b x)) (arrangement : Arrangement)
    (schedule : Schedule) (encrypted : Encrypted C B) (b : β) :
    Honest (Inner strategy)
      (arrangement.fold E.watched schedule plan encrypted receive b) := by
  have onHost : Honest (Inner strategy) (encrypted.onHost E.watched) := by
    cases encrypted with
    | singles cs => exact .done cs
    | batch b => exact .watch (by decide) (inner_fault strategy) (E.download b)
  have upload : ∀ cs, Honest (Inner strategy) (E.watched.upload cs) :=
    fun cs => .watch (by decide) (inner_fault strategy) (E.upload cs)
  have onAccelerator : Honest (Inner strategy) (encrypted.onAccelerator E.watched) := by
    cases encrypted with
    | singles cs => exact upload cs
    | batch b => exact .done b
  have switchAll : ∀ batch, Honest (Inner strategy) (E.watched.keyswitchAll batch) :=
    fun batch => .watch (by decide) (inner_fault strategy) (E.keyswitchAll batch)
  have download : ∀ batch, Honest (Inner strategy) (E.watched.download batch) :=
    fun batch => .watch (by decide) (inner_fault strategy) (E.download batch)
  have lookAll : ∀ batch, Honest (Inner strategy) (do
      let evaluated ← E.watched.bootstrapAll batch plan.lookups
      let outputs ← E.watched.download evaluated
      foldFeatures receive b (plan.cutOutputs outputs)) := fun batch =>
    (Honest.watch (by decide) (inner_fault strategy) (E.bootstrapAll batch plan.lookups)).bind
      fun evaluated => (download evaluated).bind fun outputs =>
        foldFeatures_honest hreceive b _
  cases arrangement with
  | host workers? =>
      exact onHost.bind fun cs => foldOnHost_honest hreceive
        (fun c l => .watch (by decide) (inner_fault strategy) (E.evaluateTable c l)) schedule
        workers? cs b
  | accelerator =>
      unfold Arrangement.fold
      simp only
      split
      · exact foldFeatures_honest hreceive b _
      · exact onAccelerator.bind fun batch => (switchAll batch).bind lookAll
  | mixed keyswitchOn lookupOn workers? =>
      unfold Arrangement.fold
      simp only
      split
      · exact foldFeatures_honest hreceive b _
      · cases keyswitchOn with
        | accelerator =>
            refine onAccelerator.bind fun batch => (switchAll batch).bind fun switched => ?_
            exact (download switched).bind fun cs => foldOnHost_honest hreceive
              (fun c l => .watch (by decide) (inner_fault strategy) (E.bootstrap c l)) schedule
              workers? cs b
        | host =>
            refine onHost.bind fun cs => (requireWorkers_honest workers?).bind fun _ => ?_
            have switches : ∀ p ∈ cs.map E.watched.keyswitch, Honest (Inner strategy) p := by
              intro p hp
              obtain ⟨c, _, rfl⟩ := List.mem_map.1 hp
              exact .watch (by decide) (inner_fault strategy) (E.keyswitch c)
            have switched := (interleave_honest switches schedule).bind fun cs =>
              (upload cs).bind lookAll
            rw [Process.bind_assoc] at switched
            exact switched

end Streams

namespace Matcher

variable (m : Matcher σ C B)

/-- A step contains the faults met in it. -/
theorem during_honest (step : String) {p : Process (Watched σ CallRecord) Failure α}
    (hp : Honest (Inner m.strategy.name) p) :
    Honest (Contained m.strategy.name) (m.watched.during step p) := by
  refine hp.mapError fun e he => ?_
  rcases he with ⟨fault, rfl⟩ | ⟨step', message, rfl⟩
  · exact ⟨step, fault.message, rfl⟩
  · exact ⟨step', message, rfl⟩

theorem encrypt_honest (s : Strategy) (E : CipherEngine σ C B) (strategy : String)
    (codes : List Int) : Honest (Inner strategy) (s.encrypt E.watched codes) := by
  have singly : Honest (Inner strategy) (Strategy.encryptSingly E.watched codes) := by
    induction codes with
    | nil => exact .done []
    | cons code rest ih =>
        exact (Honest.watch (by decide) (inner_fault strategy) (E.encrypt code)).bind fun c =>
          ih.bind fun cs => .done (c :: cs)
  unfold Strategy.encrypt
  split
  · exact (Honest.watch (by decide) (inner_fault strategy) (E.encryptAll codes)).bind fun b =>
      .done (Encrypted.batch b)
  · exact singly.bind fun cs => .done (Encrypted.singles cs)

theorem addFeature_honest (width : Int) (debug : Bool) (sum : Sum C) (feature : Nat × List C) :
    Honest (Inner m.strategy.name) (m.watched.addFeature width debug sum feature) := by
  have within : Honest (Contained m.strategy.name)
      (m.watched.addFeature width debug sum feature) := by
    refine m.during_honest "sum" ?_
    refine (Honest.watch (by decide) (inner_fault _) (m.engine.widen ⟨feature.2⟩ width)).bind
      fun value => ?_
    split
    · refine (Honest.watch (by decide) (inner_fault _) (m.engine.decryptInteger value)).bind
        fun score => ?_
      exact (Honest.watch (by decide) (inner_fault _) (m.engine.add sum.total value)).bind
        fun total => .done _
    · exact (Honest.watch (by decide) (inner_fault _) (m.engine.add sum.total value)).bind
        fun total => .done _
  refine Spends.mono within fun calls r hr => ⟨hr.uncompared, hr.unharmed, fun e he hforeign => ?_⟩
  exact Or.inr (hr.answered e he hforeign)

/-- Encryption, evaluation and summation answer for their calls with engine failures. -/
theorem sumFeatures_honest (plan : LookupPlan) (width : Int) (debug : Bool)
    (schedule : Schedule) :
    Honest (Contained m.strategy.name) (m.watched.sumFeatures plan width debug schedule) := by
  refine (m.during_honest "encrypt" (encrypt_honest m.strategy m.engine _ plan.codes)).bind
    fun encrypted => m.during_honest "evaluate" ?_
  exact (Honest.watch (by decide) (inner_fault _) (m.engine.publicZero width)).bind fun zero =>
    fold_honest m.engine (m.addFeature_honest width debug) m.strategy.arrangement schedule encrypted
      _

end Matcher

/-! ### The whole of an authentication -/

/-- The comparison ended with a result. -/
def Compared (calls : Multiset CallRecord) : Prop := ⟨.atLeast, none⟩ ∈ calls

/-- How an authentication may end, given the calls that it made: with a result, if all of them ended
with one. Otherwise, as long as no call ended with a coded failure, its failure is an engine failure
up to the comparison, and the fault itself after it. -/
structure Surfaces (strategy : String) (calls : Multiset CallRecord) (r : Except Failure α) :
    Prop where
  finished : ∀ a, r = .ok a → Unharmed calls ∧ Compared calls
  contained : ∀ e, r = .error e → ¬ Unharmed calls → Foreign calls → ¬ Compared calls →
    Contained strategy e
  escaped : ∀ e, r = .error e → ¬ Unharmed calls → Foreign calls → Compared calls →
    ∃ c ∈ calls, c.failure? = some e

/-- A process that makes no calls. -/
def Quiet (p : Process (Watched σ CallRecord) Failure α) : Prop :=
  ∀ calls, p.Spends Notes (fun calls' _ => calls' = calls) calls

theorem quiet_act (update : σ → σ) :
    Quiet (Process.act (Watched.lift update) : Process (Watched σ CallRecord) Failure Unit) :=
  fun calls => ⟨0, notes_lift update, fun _ => add_zero calls⟩

theorem quiet_fetch (update : σ → σ) (view : Watched σ CallRecord → α) :
    Quiet (Process.fetch (Watched.lift update) view :
      Process (Watched σ CallRecord) Failure α) :=
  fun calls => ⟨0, notes_lift update, fun _ => add_zero calls⟩

theorem quiet_ofExcept (x : Except Failure α) :
    Quiet (Process.ofExcept x : Process (Watched σ CallRecord) Failure α) :=
  fun _ => spends_ofExcept.2 rfl

theorem Quiet.bind {p : Process (Watched σ CallRecord) Failure α}
    {f : α → Process (Watched σ CallRecord) Failure β}
    {Q : Multiset CallRecord → Except Failure β → Prop} {calls : Multiset CallRecord}
    (hp : Quiet p) (hok : ∀ a, (f a).Spends Notes Q calls) (herror : ∀ e, Q calls (.error e)) :
    (p.bind f).Spends Notes Q calls := by
  refine Spends.bind (hp calls) ?_ ?_
  · rintro _ a rfl
    exact hok a
  · rintro _ e rfl
    exact herror e

/-- Without a call nothing has to be answered for. -/
theorem Surfaces.refused (strategy : String) (e : Failure) :
    Surfaces strategy 0 (.error e : Except Failure α) := by
  have unharmed : Unharmed 0 := fun c hc => by simp at hc
  refine ⟨fun a ha => ?_, fun _ _ h => absurd unharmed h, fun _ _ h => absurd unharmed h⟩
  cases ha

theorem Surfaces.of_error {strategy : String} {calls : Multiset CallRecord} {e : Failure}
    (h : Surfaces strategy calls (.error e : Except Failure α)) :
    Surfaces strategy calls (.error e : Except Failure β) := by
  refine ⟨fun b hb => ?_, fun e' he' => ?_, fun e' he' => ?_⟩
  · cases hb
  · cases he'
    exact h.contained e rfl
  · cases he'
    exact h.escaped e rfl

theorem Surfaces.of_answers {strategy : String} {calls : Multiset CallRecord} {e : Failure}
    (h : Answers (Contained strategy) calls (.error e : Except Failure α)) :
    Surfaces strategy calls (.error e : Except Failure β) := by
  refine ⟨fun b hb => ?_, fun e' he' _ hforeign _ => ?_, fun _ _ _ _ hcompared => ?_⟩
  · cases hb
  · cases he'
    exact h.answered e rfl hforeign
  · exact absurd rfl (h.uncompared _ hcompared)

/-- What follows a comparison that ended with a result. -/
def Late (strategy : String) (p : Process (Watched σ CallRecord) Failure α) : Prop :=
  ∀ calls, Unharmed calls ∧ Compared calls → p.Spends Notes (Surfaces strategy) calls

namespace Late

variable {strategy : String}

theorem done (a : α) : Late strategy (.done a : Process (Watched σ CallRecord) Failure α) := by
  refine fun calls hcalls => ⟨fun _ _ => hcalls, fun e he => ?_, fun e he => ?_⟩
  · cases he
  · cases he

theorem fetch (update : σ → σ) (view : Watched σ CallRecord → α) :
    Late strategy (Process.fetch (Watched.lift update) view) := by
  refine fun calls hcalls => ⟨0, notes_lift update, fun w => ?_⟩
  rw [add_zero]
  exact done _ calls hcalls

/-- Late calls let their faults out. -/
theorem watch (operation : EngineOperation) (p : Process σ Failure α) :
    Late strategy (p.watch (.of operation)) := by
  refine fun calls hcalls => (watch_spends operation p calls).mono ?_
  rintro _ r rfl
  have compared : Compared (calls + {CallRecord.of operation r}) :=
    Multiset.mem_add.2 (Or.inl hcalls.2)
  refine ⟨fun a ha => ⟨fun c hc => ?_, compared⟩, fun e _ _ _ h => absurd compared h,
    fun e he _ _ _ => ?_⟩
  · subst ha
    rcases Multiset.mem_add.1 hc with hc | hc
    · exact hcalls.1 c hc
    · rw [Multiset.mem_singleton.1 hc]
      rfl
  · subst he
    exact ⟨_, Multiset.mem_add.2 (Or.inr (Multiset.mem_singleton_self _)), rfl⟩

theorem bind {p : Process (Watched σ CallRecord) Failure α}
    {f : α → Process (Watched σ CallRecord) Failure β} {calls : Multiset CallRecord}
    (hp : p.Spends Notes (Surfaces strategy) calls) (hf : ∀ a, Late strategy (f a)) :
    (p.bind f).Spends Notes (Surfaces strategy) calls :=
  Spends.bind hp (fun calls a ha => hf a calls (ha.finished a rfl)) fun _ _ he => he.of_error

end Late

namespace Matcher

variable (m : Matcher σ C B)

/-- The comparison is the last step that contains its faults. -/
theorem compare_spends {calls : Multiset CallRecord} {sum : Sum C}
    (hcalls : Answers (Contained m.strategy.name) calls (.ok sum : Except Failure (Sum C)))
    (total : RadixInteger C) (threshold : Int) :
    (m.watched.during "compare" (m.watched.engine.atLeast total threshold)).Spends Notes
      (Surfaces m.strategy.name) calls := by
  refine Spends.mapError (watch_spends .atLeast (m.engine.atLeast total threshold) calls) ?_
  rintro _ r rfl
  cases r with
  | ok c =>
      refine ⟨fun a _ => ⟨fun c hc => ?_, ?_⟩, fun e he => ?_, fun e he => ?_⟩
      · rcases Multiset.mem_add.1 hc with hc | hc
        · exact hcalls.unharmed sum rfl c hc
        · rw [Multiset.mem_singleton.1 hc]
          rfl
      · exact Multiset.mem_add.2 (Or.inr (Multiset.mem_singleton_self _))
      · cases he
      · cases he
  | error e =>
      have last : (⟨.atLeast, some e⟩ : CallRecord) ∈
          calls + {CallRecord.of .atLeast (.error e : Except Failure C)} :=
        Multiset.mem_add.2 (Or.inr (Multiset.mem_singleton_self _))
      refine ⟨fun a ha => ?_, fun e' he' _ hforeign _ => ?_, fun e' _ _ _ hcompared => ?_⟩
      · cases ha
      · cases he'
        obtain ⟨fault, rfl⟩ := hforeign _ last e rfl
        exact ⟨"compare", fault.message, rfl⟩
      · rcases Multiset.mem_add.1 hcompared with h | h
        · exact absurd rfl (hcalls.uncompared _ h)
        · cases Multiset.mem_singleton.1 h

theorem authenticate_spends (probe : List Int) (compiled : EnrolledTemplate) (debug : Bool)
    (schedule : Schedule) :
    (m.watched.authenticate probe compiled debug schedule).Spends Notes
      (Surfaces m.strategy.name) 0 := by
  unfold authenticate readClock
  refine (quiet_act m.instruments.begin).bind (fun _ => ?_) (Surfaces.refused _)
  refine (quiet_ofExcept _).bind (fun _ => ?_) (Surfaces.refused _)
  refine (quiet_ofExcept _).bind (fun plan => ?_) (Surfaces.refused _)
  refine (quiet_fetch m.instruments.tick _).bind (fun started => ?_) (Surfaces.refused _)
  refine Spends.bind (m.sumFeatures_honest plan compiled.sumWidth debug schedule)
    (fun calls sum hsum => ?_) fun calls e he => .of_answers he
  refine Late.bind (m.compare_spends hsum sum.total compiled.threshold) fun decision => ?_
  refine fun calls hcalls => Late.bind (Late.fetch m.instruments.tick _ calls hcalls)
    fun stopped => ?_
  split
  · have total : Late m.strategy.name (m.watched.traceOf plan sum) := fun calls hcalls =>
      Late.bind (Late.watch .decryptInteger (m.engine.decryptInteger sum.total) calls hcalls)
        fun total => .done _
    exact fun calls hcalls => Late.bind (total calls hcalls) fun trace => .done _
  · exact .done _

/-- How a verification may end, given the calls that it made: with a failed result for a fault up to
the comparison, and with the fault itself after it. -/
structure Reports (strategy : String) (calls : Multiset CallRecord)
    (r : Except Failure Verification) : Prop where
  contained : ¬ Unharmed calls → Foreign calls → ¬ Compared calls →
    ∃ v, r = .ok v ∧ v.status = .failed ∧ ∃ step message,
      v.errorDetails? = some (EngineFault.during step message strategy).report.toValue
  escaped : ¬ Unharmed calls → Foreign calls → Compared calls →
    ∃ e, r = .error e ∧ ∃ c ∈ calls, c.failure? = some e

theorem verify_spends (stamp : Stamp) (probe : List Int) (compiled : EnrolledTemplate)
    (datasetName : String) (debug : Bool) (schedule : Schedule) :
    (m.watched.verify stamp probe compiled datasetName debug schedule).Spends Notes
      (Reports m.strategy.name) 0 := by
  have decided : (m.watched.decide probe compiled debug schedule).Spends Notes
      (Surfaces m.strategy.name) 0 :=
    Late.bind (m.authenticate_spends probe compiled debug schedule) fun decision calls hcalls =>
      Late.bind (Late.watch .decryptTruth (m.engine.decryptTruth decision.ciphertext) calls hcalls)
        fun accepted => .done _
  unfold verify
  refine Spends.bind (decided.attempt (Q := fun calls r =>
    ∃ r', r = .ok r' ∧ Surfaces m.strategy.name calls r') fun calls r hr => ⟨r, rfl, hr⟩) ?_ ?_
  · rintro calls r ⟨r', hr, hsurfaces⟩
    have same : r = r' := Except.ok.inj hr
    subst same
    cases r with
    | ok x =>
        have unharmed := (hsurfaces.finished x rfl).1
        exact ⟨fun h => absurd unharmed h, fun h => absurd unharmed h⟩
    | error e =>
        cases hreport : e.engineReport? with
        | some report =>
            simp only [hreport]
            refine ⟨fun h hforeign hcompared => ?_, fun h hforeign hcompared => ?_⟩
            · obtain ⟨step, message, rfl⟩ := hsurfaces.contained e rfl h hforeign hcompared
              cases hreport
              exact ⟨_, rfl, rfl, step, message, rfl⟩
            · obtain ⟨c, hc, hfailure⟩ := hsurfaces.escaped e rfl h hforeign hcompared
              obtain ⟨fault, rfl⟩ := hforeign c hc _ hfailure
              cases hreport
        | none =>
            simp only [hreport]
            refine ⟨fun h hforeign hcompared => ?_, fun h hforeign hcompared => ?_⟩
            · obtain ⟨step, message, rfl⟩ := hsurfaces.contained e rfl h hforeign hcompared
              cases hreport
            · exact ⟨e, rfl, hsurfaces.escaped e rfl h hforeign hcompared⟩
  · rintro calls e ⟨r, hr, _⟩
    cases hr

end Matcher

/-! ### Runs -/

/-- A call ended with a failure. -/
def CallRecord.harmed (c : CallRecord) : Bool := c.failure?.isSome

/-- A call ended with a result, or with a fault from outside the coded families. -/
def CallRecord.foreign (c : CallRecord) : Bool :=
  match c.failure? with
  | none => true
  | some (.fault _) => true
  | some _ => false

/-- The comparison ended with a result. -/
def CallRecord.compares (c : CallRecord) : Bool := c.operation = .atLeast && !c.harmed

/-- Calls of which some ended with a failure, and none with a coded one. -/
def struck (calls : List CallRecord) : Bool :=
  calls.any CallRecord.harmed && calls.all CallRecord.foreign

theorem CallRecord.foreign_iff (c : CallRecord) :
    c.foreign = true ↔ ∀ f, c.failure? = some f → ∃ fault, f = .fault fault := by
  unfold foreign
  split
  · rename_i hnone
    simp [hnone]
  · rename_i fault hfault
    simp [hfault]
  · rename_i f hnot hf
    refine ⟨fun h => by simp at h, fun h => ?_⟩
    obtain ⟨fault, rfl⟩ := h f hf
    exact absurd rfl (hnot fault)

theorem struck_iff (calls : List CallRecord) :
    struck calls = true ↔ ¬ Unharmed (calls : Multiset CallRecord) ∧
      Foreign (calls : Multiset CallRecord) := by
  unfold struck Unharmed Foreign
  simp only [Bool.and_eq_true, List.any_eq_true, List.all_eq_true, Multiset.mem_coe,
    CallRecord.foreign_iff, CallRecord.harmed, Option.isSome_iff_ne_none, not_forall,
    exists_prop]

theorem any_compares_iff (calls : List CallRecord) :
    calls.any CallRecord.compares = true ↔ Compared (calls : Multiset CallRecord) := by
  unfold Compared CallRecord.compares CallRecord.harmed
  rw [List.any_eq_true, Multiset.mem_coe]
  constructor
  · rintro ⟨⟨operation, failure?⟩, hc, h⟩
    cases failure? with
    | none =>
        have same : operation = .atLeast := by simpa using h
        rw [← same]
        exact hc
    | some f => simp at h
  · exact fun h => ⟨_, h, rfl⟩

/-- The code in the details of a result. -/
def Verification.errorCode? (r : Verification) : Option Value :=
  match r.errorDetails? with
  | some (.record fields) => fields.lookup "error_code"
  | _ => none

namespace Matcher

open Process (Echoes)
open TemplateCompiler (samplePolicy sampleTables placed sampleStamp)

/-- Whatever an engine does: if calls of its operations end with faults from outside, and none with
a coded failure, an authentication fails with an engine failure, and a verification has a failed
result with its code, exactly if the comparison has not ended with a result by then. After it, the
fault of the call, which decrypts the total or the decision, is let out of both.

Calls are seen by watching the engine, which changes nothing: every run ends like one under
watch. -/
theorem contains_until_compared (m : Matcher σ C B) (stamp : Stamp) (probe : List Int)
    (compiled : EnrolledTemplate) (datasetName : String) (debug : Bool) :
    (∀ schedule s, ∃ schedule',
      Echoes ((m.authenticate probe compiled debug schedule).run s)
        ((m.watched.authenticate probe compiled debug schedule').run ⟨s, []⟩)) ∧
    (∀ schedule s, ∃ schedule',
      Echoes ((m.verify stamp probe compiled datasetName debug schedule).run s)
        ((m.watched.verify stamp probe compiled datasetName debug schedule').run ⟨s, []⟩)) ∧
    (∀ schedule s r w,
      (m.watched.authenticate probe compiled debug schedule).run ⟨s, []⟩ = (r, w) →
      struck w.notes = true →
        if w.notes.any CallRecord.compares then
          ∃ fault, r = .error (.fault fault) ∧ ∃ c ∈ w.notes, c.failure? = some (.fault fault)
        else
          ∃ step message, r = .error (.engine (.during step message m.strategy.name))) ∧
    ∀ schedule s r w,
      (m.watched.verify stamp probe compiled datasetName debug schedule).run ⟨s, []⟩ = (r, w) →
      struck w.notes = true →
        if w.notes.any CallRecord.compares then
          ∃ fault, r = .error (.fault fault) ∧ ∃ c ∈ w.notes, c.failure? = some (.fault fault)
        else
          ∃ v, r = .ok v ∧ v.status = .failed ∧ v.errorCode? = some (.text "ENGINE_001") := by
  refine ⟨fun schedule s => m.follows_authenticate probe compiled debug schedule ⟨s, []⟩,
    fun schedule s => m.follows_verify stamp probe compiled datasetName debug schedule ⟨s, []⟩,
    fun schedule s r w hrun hstruck => ?_, fun schedule s r w hrun hstruck => ?_⟩
  · obtain ⟨harmed, hforeign⟩ := (struck_iff _).1 hstruck
    obtain ⟨calls, hcalls, hsurfaces⟩ :=
      (m.authenticate_spends probe compiled debug schedule).run ⟨s, []⟩
    rw [hrun] at hcalls hsurfaces
    have same : (w.notes : Multiset CallRecord) = calls := hcalls.trans (zero_add calls)
    rw [zero_add, ← same] at hsurfaces
    cases r with
    | ok decision => exact absurd (hsurfaces.finished decision rfl).1 harmed
    | error e =>
        by_cases hcompared : w.notes.any CallRecord.compares = true
        · rw [if_pos hcompared]
          obtain ⟨c, hc, hfailure⟩ :=
            hsurfaces.escaped e rfl harmed hforeign ((any_compares_iff _).1 hcompared)
          obtain ⟨fault, rfl⟩ := hforeign c hc e hfailure
          exact ⟨fault, rfl, c, hc, hfailure⟩
        · rw [if_neg hcompared]
          obtain ⟨step, message, rfl⟩ := hsurfaces.contained e rfl harmed hforeign
            fun h => hcompared ((any_compares_iff _).2 h)
          exact ⟨step, message, rfl⟩
  · obtain ⟨harmed, hforeign⟩ := (struck_iff _).1 hstruck
    obtain ⟨calls, hcalls, hreports⟩ :=
      (m.verify_spends stamp probe compiled datasetName debug schedule).run ⟨s, []⟩
    rw [hrun] at hcalls hreports
    have same : (w.notes : Multiset CallRecord) = calls := hcalls.trans (zero_add calls)
    rw [zero_add, ← same] at hreports
    by_cases hcompared : w.notes.any CallRecord.compares = true
    · rw [if_pos hcompared]
      obtain ⟨e, rfl, c, hc, hfailure⟩ :=
        hreports.escaped harmed hforeign ((any_compares_iff _).1 hcompared)
      obtain ⟨fault, rfl⟩ := hforeign c hc e hfailure
      exact ⟨fault, rfl, c, hc, hfailure⟩
    · rw [if_neg hcompared]
      obtain ⟨v, rfl, hstatus, step, message, hdetails⟩ := hreports.contained harmed hforeign
        fun h => hcompared ((any_compares_iff _).2 h)
      refine ⟨v, rfl, hstatus, ?_⟩
      unfold Verification.errorCode?
      rw [hdetails]
      rfl

/-! ### Two faults -/

/-- The message of a fault that comes out. -/
def faultMessage? {α : Type} : Except Failure α → Option String
  | .ok _ => none
  | .error e =>
    match e with
    | .fault fault => some fault.message
    | _ => none

theorem eq_fault_of_message {α : Type} {x : Except Failure α} {message : String}
    (h : faultMessage? x = some message) : ∃ fault, x = .error (.fault fault) := by
  cases x with
  | ok a => cases h
  | error e =>
      cases e with
      | fault fault => exact ⟨fault, rfl⟩
      | _ => cases h

/-- The smallest engine, where one call of an operation fails. -/
def failing (operation : EngineOperation) (call : Int) : SimulatedEngine :=
  { SimulatedEngine.smallest with
    guard := FaultPlan.guard
      [⟨operation, .fault (.machine "device lost"), none, some call, none, none⟩] }

/-- What is compiled of the sample template, if anything. -/
def sampleCompiled : Except Failure EnrolledTemplate := do
  let c ← TemplateCompiler.ofTables samplePolicy sampleTables
  c.compile [0, 1] true

/-- The verification of a compiled template on the host, where the second table evaluation
fails. -/
def failingVerify (compiled : EnrolledTemplate) :
    Process (Watched Session CallRecord) Failure Verification :=
  ((failing .evaluateTable 2).matcher (placed .host)).watched.verify sampleStamp [1, 2] compiled
    "faces" false []

/-- A fault in a table evaluation of the host is contained. -/
theorem contains_until_compared_sample :
    ∃ compiled r w, sampleCompiled = .ok compiled ∧
      (failingVerify compiled).run ⟨.start, []⟩ = (r, w) ∧
      struck w.notes = true ∧ w.notes.any CallRecord.compares = false ∧
      ∃ v, r = .ok v ∧ v.status = .failed ∧ v.errorCode? = some (.text "ENGINE_001") := by
  have strikes : (do
      let compiled ← sampleCompiled.toOption
      let w := ((failingVerify compiled).run ⟨.start, []⟩).2
      return struck w.notes && !w.notes.any CallRecord.compares) = some true := by
    decide +kernel
  obtain ⟨compiled, hcompiled, hstrikes⟩ := Option.bind_eq_some_iff.1 strikes
  obtain ⟨r, w, hrun⟩ : ∃ r w,
      (failingVerify compiled).run ⟨Session.start, []⟩ = (r, w) := ⟨_, _, rfl⟩
  simp only [hrun] at hstrikes
  obtain ⟨hstruck, hearly⟩ := Bool.and_eq_true_iff.1 (Option.some.inj hstrikes)
  have early : w.notes.any CallRecord.compares = false := (Bool.not_eq_true' _).mp hearly
  obtain ⟨_, _, _, verified⟩ := contains_until_compared
    ((failing .evaluateTable 2).matcher (placed .host)) sampleStamp [1, 2] compiled "faces" false
  have contained := verified [] Session.start r w hrun hstruck
  rw [early, if_neg Bool.false_ne_true] at contained
  exact ⟨compiled, r, w, toOption_eq_some hcompiled, hrun, hstruck, early, contained⟩

/-- A fault in the decryption of the decision is let out of the verification, and one in the
decryption of the total for the trace of the authentication. -/
theorem escapes_after_comparison :
    ∃ compiled, sampleCompiled = .ok compiled ∧
      (∃ fault, (((failing .decryptTruth 1).matcher (placed .host)).verify sampleStamp [1, 2]
        compiled "faces" false [] |>.run Session.start).1 = .error (.fault fault)) ∧
      ∃ fault, (((failing .decryptInteger 3).matcher (placed .host)).authenticate [1, 2] compiled
        true [] |>.run Session.start).1 = .error (.fault fault) := by
  have escapes : (do
      let compiled ← sampleCompiled.toOption
      let verified ← faultMessage? (((failing .decryptTruth 1).matcher (placed .host)).verify
        sampleStamp [1, 2] compiled "faces" false [] |>.run Session.start).1
      let authenticated ← faultMessage? (((failing .decryptInteger 3).matcher
        (placed .host)).authenticate [1, 2] compiled true [] |>.run Session.start).1
      return (verified, authenticated)) = some ("device lost", "device lost") := by
    decide +kernel
  obtain ⟨compiled, hcompiled, h⟩ := Option.bind_eq_some_iff.1 escapes
  obtain ⟨_, hverified, h⟩ := Option.bind_eq_some_iff.1 h
  obtain ⟨_, hauthenticated, _⟩ := Option.bind_eq_some_iff.1 h
  exact ⟨compiled, toOption_eq_some hcompiled, eq_fault_of_message hverified,
    eq_fault_of_message hauthenticated⟩

end Matcher

end SealedMatch
