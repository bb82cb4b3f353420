/-
Module: SealedMatch.Proofs.Matching.Conduct
Purpose: What an engine does to the shared state at every action, a verification does, whatever the
  inputs and however it ends.
Trusted boundary: none
Main exports: CipherEngine.Heeds, SimulatedEngine.Supervised, SimulatedEngine.Supervised.heeds,
  Matcher.verify_heeds
-/
import SealedMatch.Matching.Provision
import SealedMatch.Proofs.Process.Conduct

namespace SealedMatch

open Process hiding bind bind_assoc

/-- Every operation of an engine keeps to a guarantee, whatever it is given. -/
structure CipherEngine.Heeds {σ C B : Type} (E : CipherEngine σ C B) (G : σ → σ → Prop) :
    Prop where
  encrypt (value : Int) : (E.encrypt value).Heeds G
  encryptAll (values : List Int) : (E.encryptAll values).Heeds G
  keyswitch (c : C) : (E.keyswitch c).Heeds G
  keyswitchAll (b : B) : (E.keyswitchAll b).Heeds G
  bootstrap (c : C) (lookup : DigitLookup) : (E.bootstrap c lookup).Heeds G
  bootstrapAll (b : B) (lookups : List DigitLookup) : (E.bootstrapAll b lookups).Heeds G
  evaluateTable (c : C) (lookup : DigitLookup) : (E.evaluateTable c lookup).Heeds G
  upload (cs : List C) : (E.upload cs).Heeds G
  download (b : B) : (E.download b).Heeds G
  publicZero (width : Int) : (E.publicZero width).Heeds G
  widen (x : RadixInteger C) (width : Int) : (E.widen x width).Heeds G
  add (x y : RadixInteger C) : (E.add x y).Heeds G
  atLeast (x : RadixInteger C) (scalar : Int) : (E.atLeast x scalar).Heeds G
  decryptInteger (x : RadixInteger C) : (E.decryptInteger x).Heeds G
  decryptTruth (c : C) : (E.decryptTruth c).Heeds G

/-! ### The simulated engine

All of its operations are made of the guard, of counting and of draws from the tape. -/

namespace SimulatedEngine

/-- The guard, the counters and the tape keep to a guarantee. -/
structure Supervised (e : SimulatedEngine) (G : Session → Session → Prop) : Prop where
  guard (call : EngineCall) : (e.guard call).Heeds G
  counts (op : CountedOperation) (n : Nat) (s : Session) : G s (s.count op n)
  draws (n : Nat) (s : Session) : G s (s.advance n)

namespace Supervised

variable {e : SimulatedEngine} {G : Session → Session → Prop} (h : e.Supervised G)

include h

theorem enter {α : Type} (operation : EngineOperation) {f : Unit → Action α}
    (hf : ∀ u, (f u).Heeds G) : ((e.enter operation).bind f).Heeds G :=
  (h.guard _).bind hf

theorem enterWith {α : Type} (operation : EngineOperation) (lookup : DigitLookup)
    {f : Unit → Action α} (hf : ∀ u, (f u).Heeds G) :
    ((e.enterWith operation lookup).bind f).Heeds G :=
  (h.guard _).bind hf

theorem count {α : Type} (op : CountedOperation) (n : Nat) {f : Unit → Action α}
    (hf : ∀ u, (f u).Heeds G) : ((SimulatedEngine.count op n).bind f).Heeds G :=
  (Heeds.act (h.counts op n)).bind hf

theorem encryptRows (messages : List Int) (key : KeyLabel) : (e.encryptRows messages key).Heeds G :=
  Heeds.check fun _ => Heeds.fetch (h.draws _) _

theorem encryptRow (message : Int) (key : KeyLabel) : (e.encryptRow message key).Heeds G := by
  refine (h.encryptRows [message] key).bind fun rows => ?_
  split
  · exact .done _
  · exact .fail _

theorem encryptBatch (messages : List Int) (key : KeyLabel) (place : Place) :
    (e.encryptBatch messages key place).Heeds G :=
  Heeds.check fun _ => (h.encryptRows messages key).bind fun _ => .done _

theorem encrypt (value : Int) : (e.encrypt value).Heeds G :=
  h.enter _ fun _ => Heeds.check fun _ => h.count _ _ fun _ => h.encryptRow _ _

theorem encryptAll (values : List Int) : (e.encryptAll values).Heeds G :=
  h.enter _ fun _ => Heeds.check fun _ => h.count _ _ fun _ => h.encryptBatch _ _ _

theorem keyswitch (c : LweBlock) : (e.keyswitch c).Heeds G :=
  h.enter _ fun _ => Heeds.check fun _ => h.count _ _ fun _ =>
    Heeds.check fun _ => h.encryptRow _ _

theorem keyswitchAll (b : LweBatch) : (e.keyswitchAll b).Heeds G :=
  h.enter _ fun _ => Heeds.check fun _ => h.count _ _ fun _ =>
    Heeds.check fun _ => h.encryptBatch _ _ _

theorem bootstrapWith (c : LweBlock) (table : Nat → Int) : (e.bootstrapWith c table).Heeds G :=
  Heeds.check fun _ => h.count _ _ fun _ => Heeds.check fun _ => h.encryptRow _ _

theorem bootstrap (c : LweBlock) (lookup : DigitLookup) : (e.bootstrap c lookup).Heeds G := by
  refine h.enterWith _ _ fun _ => ?_
  cases lookup.tabulate e.totalModulus with
  | ok table => exact h.bootstrapWith c (tableEntry table)
  | error f => exact .fail f

theorem bootstrapAll (b : LweBatch) (lookups : List DigitLookup) :
    (e.bootstrapAll b lookups).Heeds G := by
  refine h.enter _ fun _ => Heeds.check fun _ => ?_
  split
  · exact .fail _
  · refine h.count _ _ fun _ => Heeds.check fun _ => Heeds.check fun _ => ?_
    split
    · exact .fail _
    · exact h.encryptBatch _ _ _

theorem evaluateTable (c : LweBlock) (lookup : DigitLookup) : (e.evaluateTable c lookup).Heeds G :=
  h.enterWith _ _ fun _ => (h.keyswitch c).bind fun _ => h.bootstrap _ _

theorem applyTable (c : LweBlock) (table : Nat → Int) : (e.applyTable c table).Heeds G := by
  unfold SimulatedEngine.applyTable
  split
  · exact Heeds.check fun _ => .done _
  · exact (h.keyswitch c).bind fun _ => h.bootstrapWith _ _

theorem applyTables (a b : LweBlock) (f : Nat → Nat → Nat) : (e.applyTables a b f).Heeds G := by
  refine Heeds.check fun _ => Heeds.check fun _ => ?_
  split
  · exact .done _
  · exact h.count _ _ fun _ => h.count _ _ fun _ => h.encryptRow _ _

theorem upload (cs : List LweBlock) : (e.upload cs).Heeds G := by
  refine h.enter _ fun _ => ?_
  split
  · exact .fail _
  · split
    · split
      · exact .fail _
      · split
        · exact .fail _
        · exact .done _
    · exact .fail _

theorem download (b : LweBatch) : (e.download b).Heeds G := by
  refine h.enter _ fun _ => ?_
  split
  · exact .fail _
  · exact .done _

theorem widen (x : RadixInteger LweBlock) (width : Int) : (e.widen x width).Heeds G := by
  refine h.enter _ fun _ => ?_
  split
  · exact .fail _
  · exact .done _

theorem addPairs (carry? : Option LweBlock) (pairs : List (LweBlock × LweBlock)) :
    (e.addPairs carry? pairs).Heeds G := by
  induction pairs generalizing carry? with
  | nil => exact .done []
  | cons pair rest ih =>
      refine Heeds.check fun sum => (h.applyTable sum _).bind fun digit => ?_
      exact (h.applyTable sum _).bind fun carry => (ih (some carry)).bind fun _ => .done _

theorem add (x y : RadixInteger LweBlock) : (e.add x y).Heeds G := by
  refine h.enter _ fun _ => ?_
  split
  · exact .fail _
  · exact (h.addPairs none _).bind fun _ => .done _

theorem comparePairs (found? : Option LweBlock) (pairs : List (LweBlock × Int)) :
    (e.comparePairs found? pairs).Heeds G := by
  induction pairs generalizing found? with
  | nil => exact .done found?
  | cons pair rest ih =>
      refine (h.applyTable pair.1 _).bind fun here => ?_
      cases found? with
      | none => exact ih (some here)
      | some below => exact (h.applyTables here below _).bind fun found => ih (some found)

theorem atLeast (x : RadixInteger LweBlock) (scalar : Int) : (e.atLeast x scalar).Heeds G := by
  refine h.enter _ fun _ => ?_
  split
  · exact .done _
  · split
    · exact .done _
    · refine (h.comparePairs none _).bind fun found? => ?_
      cases found? with
      | some found => exact h.applyTable found _
      | none => exact .fail _

theorem decrypt (c : LweBlock) : (e.decrypt c).Heeds G :=
  h.enter _ fun _ => Heeds.check fun _ => .done _

theorem decryptBlocks (cs : List LweBlock) : (e.decryptBlocks cs).Heeds G := by
  induction cs with
  | nil => exact .done []
  | cons c rest ih => exact (h.decrypt c).bind fun _ => ih.bind fun _ => .done _

/-- An engine keeps to what its guard, its counters and its tape keep to. -/
theorem heeds : e.engine.Heeds G where
  encrypt := h.encrypt
  encryptAll := h.encryptAll
  keyswitch := h.keyswitch
  keyswitchAll := h.keyswitchAll
  bootstrap := h.bootstrap
  bootstrapAll := h.bootstrapAll
  evaluateTable := h.evaluateTable
  upload := h.upload
  download := h.download
  publicZero _ := h.enter _ fun _ => .done _
  widen := h.widen
  add := h.add
  atLeast := h.atLeast
  decryptInteger x := h.enter _ fun _ => (h.decryptBlocks x.blocks).bind fun _ => .done _
  decryptTruth c := h.enter _ fun _ => (h.decrypt c).bind fun _ => .done _

end Supervised

end SimulatedEngine

/-! ### Streams of features -/

section Streams

variable {σ C B β : Type} {G : σ → σ → Prop} {plan : LookupPlan}
  {receive : β → Nat × List C → Process σ Failure β}

theorem foldFeatures_heeds (hreceive : ∀ b x, (receive b x).Heeds G) (b : β)
    (features : List (Nat × List C)) : (foldFeatures receive b features).Heeds G := by
  induction features generalizing b with
  | nil => exact .done b
  | cons feature rest ih => exact (hreceive b feature).bind ih

theorem receiveArrival_heeds (hreceive : ∀ b x, (receive b x).Heeds G) (state : Regrouping C × β)
    (arrival : Nat × Except Failure C) : (receiveArrival plan receive state arrival).Heeds G := by
  unfold receiveArrival
  split
  · exact .fail _
  · split
    · exact .fail _
    · exact .done _
    · exact (hreceive _ _).bind fun _ => .done _

theorem requireWorkers_heeds (workers? : Option Int) :
    (requireWorkers workers? : Process σ Failure Unit).Heeds G := by
  unfold requireWorkers
  split
  · exact .fail _
  · split
    · exact .done ()
    · exact .fail _

theorem positionTasks_heeds {task : C → DigitLookup → Process σ Failure C}
    (htask : ∀ c l, (task c l).Heeds G) (cs : List C) :
    ∀ t ∈ positionTasks plan task cs, t.2.Heeds G := by
  intro t ht
  obtain ⟨position, inside, rfl⟩ := List.mem_iff_getElem.1 ht
  simp only [positionTasks, List.getElem_mapIdx]
  split
  · exact htask _ _
  · exact .fail _

theorem foldOnHost_heeds {task : C → DigitLookup → Process σ Failure C}
    (hreceive : ∀ b x, (receive b x).Heeds G) (htask : ∀ c l, (task c l).Heeds G)
    (schedule : Schedule) (workers? : Option Int) (cs : List C) (b : β) :
    (foldOnHost plan schedule workers? task cs receive b).Heeds G := by
  refine (foldFeatures_heeds hreceive b _).bind fun b => ?_
  split
  · exact .done b
  · refine (requireWorkers_heeds workers?).bind fun _ => ?_
    exact (Heeds.gather (receiveArrival_heeds hreceive) schedule
      (positionTasks_heeds htask cs) (.empty, b)).bind fun _ => .done _

variable {E : CipherEngine σ C B} (hE : E.Heeds G)

include hE

theorem onHost_heeds (encrypted : Encrypted C B) : (encrypted.onHost E).Heeds G := by
  cases encrypted with
  | singles cs => exact .done cs
  | batch b => exact hE.download b

theorem onAccelerator_heeds (encrypted : Encrypted C B) : (encrypted.onAccelerator E).Heeds G := by
  cases encrypted with
  | singles cs => exact hE.upload cs
  | batch b => exact .done b

theorem fold_heeds (hreceive : ∀ b x, (receive b x).Heeds G) (arrangement : Arrangement)
    (schedule : Schedule) (encrypted : Encrypted C B) (b : β) :
    (arrangement.fold E schedule plan encrypted receive b).Heeds G := by
  unfold Arrangement.fold
  cases arrangement with
  | host workers? =>
      exact (onHost_heeds hE encrypted).bind fun cs =>
        foldOnHost_heeds hreceive hE.evaluateTable schedule workers? cs b
  | accelerator =>
      dsimp only
      split
      · exact foldFeatures_heeds hreceive b _
      · refine (onAccelerator_heeds hE encrypted).bind fun batch => ?_
        refine (hE.keyswitchAll batch).bind fun switched => ?_
        refine (hE.bootstrapAll switched _).bind fun evaluated => ?_
        exact (hE.download evaluated).bind fun outputs => foldFeatures_heeds hreceive b _
  | mixed keyswitchOn lookupOn workers? =>
      dsimp only
      split
      · exact foldFeatures_heeds hreceive b _
      · cases keyswitchOn with
        | accelerator =>
            refine (onAccelerator_heeds hE encrypted).bind fun batch => ?_
            refine (hE.keyswitchAll batch).bind fun switched => ?_
            exact (hE.download switched).bind fun cs =>
              foldOnHost_heeds hreceive hE.bootstrap schedule workers? cs b
        | host =>
            refine (onHost_heeds hE encrypted).bind fun cs => ?_
            refine (requireWorkers_heeds workers?).bind fun _ => ?_
            have switches : ∀ p ∈ cs.map E.keyswitch, p.Heeds G :=
              List.forall_mem_map.2 fun c _ => hE.keyswitch c
            refine (Heeds.interleave switches schedule).bind fun results => ?_
            refine Heeds.check fun switched => (hE.upload switched).bind fun batch => ?_
            refine (hE.bootstrapAll batch _).bind fun evaluated => ?_
            exact (hE.download evaluated).bind fun outputs => foldFeatures_heeds hreceive b _

theorem encrypt_heeds (s : Strategy) (codes : List Int) : (s.encrypt E codes).Heeds G := by
  have singly : (Strategy.encryptSingly E codes).Heeds G := by
    induction codes with
    | nil => exact .done []
    | cons code rest ih => exact (hE.encrypt code).bind fun _ => ih.bind fun _ => .done _
  unfold Strategy.encrypt
  split
  · exact (hE.encryptAll codes).bind fun _ => .done _
  · exact singly.bind fun _ => .done _

end Streams

/-! ### Verification -/

namespace Matcher

variable {σ C B : Type} {G : σ → σ → Prop} {m : Matcher σ C B} (hE : m.engine.Heeds G)

include hE

theorem addFeature_heeds (width : Int) (debug : Bool) (sum : Sum C) (feature : Nat × List C) :
    (m.addFeature width debug sum feature).Heeds G := by
  refine Heeds.mapError ((hE.widen _ width).bind fun value => ?_) _
  split
  · refine (hE.decryptInteger value).bind fun score => ?_
    exact (hE.add sum.total value).bind fun _ => .done _
  · exact (hE.add sum.total value).bind fun _ => .done _

theorem sumFeatures_heeds (plan : LookupPlan) (width : Int) (debug : Bool) (schedule : Schedule) :
    (m.sumFeatures plan width debug schedule).Heeds G := by
  refine ((encrypt_heeds hE m.strategy plan.codes).mapError _).bind fun encrypted => ?_
  refine Heeds.mapError ((hE.publicZero width).bind fun zero => ?_) _
  exact fold_heeds hE (addFeature_heeds hE width debug) m.strategy.arrangement schedule encrypted _

variable (begins : ∀ s, G s (m.instruments.begin s)) (ticks : ∀ s, G s (m.instruments.tick s))

include begins ticks

theorem authenticate_heeds (probe : List Int) (compiled : EnrolledTemplate) (debug : Bool)
    (schedule : Schedule) : (m.authenticate probe compiled debug schedule).Heeds G := by
  refine (Heeds.act begins).bind fun _ => Heeds.check fun _ => Heeds.check fun plan => ?_
  refine (Heeds.fetch ticks _).bind fun started => ?_
  refine (sumFeatures_heeds hE plan compiled.sumWidth debug schedule).bind fun sum => ?_
  refine ((hE.atLeast sum.total compiled.threshold).mapError _).bind fun decision => ?_
  refine (Heeds.fetch ticks _).bind fun stopped => ?_
  split
  · exact ((hE.decryptInteger sum.total).bind fun _ => .done _).bind fun _ => .done _
  · exact .done _

/-- What an engine and the instruments keep to, a verification keeps to. -/
theorem verify_heeds (stamp : Stamp) (probe : List Int) (compiled : EnrolledTemplate)
    (datasetName : String) (debug : Bool) (schedule : Schedule) :
    (m.verify stamp probe compiled datasetName debug schedule).Heeds G := by
  have decided : (m.decide probe compiled debug schedule).Heeds G :=
    (authenticate_heeds hE begins ticks probe compiled debug schedule).bind fun decision =>
      (hE.decryptTruth decision.ciphertext).bind fun _ => .done _
  refine decided.attempt.bind fun r => ?_
  split
  · exact .done _
  · split
    · exact .done _
    · exact .fail _

end Matcher

end SealedMatch
