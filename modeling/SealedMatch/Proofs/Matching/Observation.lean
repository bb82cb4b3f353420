/-
Module: SealedMatch.Proofs.Matching.Observation
Purpose: To ask for the values of an authentication changes nothing of it.
Trusted boundary: none
Main exports: CipherEngine.Keeps, Matcher.Ledger, Matcher.recordAuthentication,
  Matcher.twins_authenticate, Matcher.Reads, SimulatedEngine.debug_only_observes
-/
import SealedMatch.Proofs.Engine.Failures
import SealedMatch.Proofs.Matching.Completion
import SealedMatch.Proofs.Matching.Concurrency
import SealedMatch.Proofs.Process.Twins

namespace SealedMatch

open Process hiding bind bind_assoc

/-! ### Ciphertexts that can be decrypted

A decryption draws nothing and counts nothing, so it cannot be noticed by what comes after it,
unless it fails. On what an engine has made itself, whatever the noise, it does not. -/

/-- From ciphertexts of a kind an engine makes only ciphertexts of the kind, if it does not fail,
and integers of them are decrypted without any action. -/
structure CipherEngine.Keeps {σ C B : Type} (E : CipherEngine σ C B) (P : C → Prop)
    (PB : B → Prop) : Prop where
  encrypt (value : Int) : (E.encrypt value).Delivers P
  encryptAll (values : List Int) : (E.encryptAll values).Delivers PB
  keyswitch {c} (h : P c) : (E.keyswitch c).Delivers P
  keyswitchAll {b} (h : PB b) : (E.keyswitchAll b).Delivers PB
  bootstrap {c} (h : P c) (lookup : DigitLookup) : (E.bootstrap c lookup).Delivers P
  bootstrapAll {b} (h : PB b) (lookups : List DigitLookup) : (E.bootstrapAll b lookups).Delivers PB
  evaluateTable {c} (h : P c) (lookup : DigitLookup) : (E.evaluateTable c lookup).Delivers P
  upload {cs} (h : ∀ c ∈ cs, P c) : (E.upload cs).Delivers PB
  download {b} (h : PB b) : (E.download b).Delivers fun cs => ∀ c ∈ cs, P c
  publicZero (width : Int) : (E.publicZero width).Delivers fun x => ∀ c ∈ x.blocks, P c
  widen {x} (h : ∀ c ∈ x.blocks, P c) (width : Int) :
    (E.widen x width).Delivers fun x => ∀ c ∈ x.blocks, P c
  add {x y} (hx : ∀ c ∈ x.blocks, P c) (hy : ∀ c ∈ y.blocks, P c) :
    (E.add x y).Delivers fun x => ∀ c ∈ x.blocks, P c
  decryptInteger {x} (h : ∀ c ∈ x.blocks, P c) : ∃ value, E.decryptInteger x = .done value

/-- A process that has counted something and fails comes to no result. -/
theorem Process.Wastes.delivers {α : Type} {P : α → Prop} {p : Process Session Failure α}
    (hp : p.Wastes) : p.Delivers P :=
  Spends.delivers hp fun _ _ ⟨_, _, hfailed⟩ => nomatch hfailed

namespace SimulatedEngine

variable {e : SimulatedEngine}

theorem bootstrapAll_delivers (h : e.Intact) {b : LweBatch} (hb : e.MadeAll b)
    (lookups : List DigitLookup) : (e.bootstrapAll b lookups).Delivers e.MadeAll := by
  by_cases caught : b.key = .small ∧ lookups.length = b.length ∧
      ∃ l ∈ lookups, (l.tabulate e.totalModulus).isOk = false
  · obtain ⟨hkey, hcount, l, hl, hbad⟩ := caught
    exact (bootstrapAll_wastes h hb hkey hcount hl hbad).delivers
  · refine (bootstrapAll_upfront h hb fun hkey hcount l hl => ?_).delivers
    by_contra hbad
    exact caught ⟨hkey, hcount, l, hl, by simpa using hbad⟩

theorem evaluateTable_delivers (h : e.Intact) {c : LweBlock} (hc : e.Made c)
    (lookup : DigitLookup) : (e.evaluateTable c lookup).Delivers e.Made := by
  unfold evaluateTable
  rw [bind_eq, enterWith_bind h.unguarded]
  exact (keyswitch_upfront h hc).delivers.bind fun _ hc' =>
    (bootstrap_upfront h hc' lookup).delivers

theorem add_delivers (h : e.Intact) {x y : RadixInteger LweBlock} (hx : e.MadeInteger x)
    (hy : e.MadeInteger y) : (e.add x y).Delivers e.MadeInteger := by
  by_cases caught : x.width = y.width ∧ CaughtMidway BothLarge OneLive (x.blocks.zip y.blocks)
  · exact (add_wastes h hx hy caught.1 caught.2).delivers
  · exact (add_upfront h hx hy fun same midway => caught ⟨same, midway⟩).delivers

theorem decryptInteger_done (h : e.Intact) {x : RadixInteger LweBlock} (hx : e.MadeInteger x) :
    ∃ value, e.decryptInteger x = .done value := by
  obtain ⟨cs⟩ := x
  have blocks : ∃ digits, e.decryptBlocks cs = .done digits := by
    unfold MadeInteger at hx
    induction cs with
    | nil => exact ⟨[], rfl⟩
    | cons c rest ih =>
        obtain ⟨m, hm⟩ := (hx c (by simp)).decode
        obtain ⟨digits, hdigits⟩ := ih fun c hc => hx c (List.mem_cons_of_mem _ hc)
        refine ⟨(m : Int) % e.messageModulus :: digits, ?_⟩
        unfold decryptBlocks decrypt
        simp only [bind_eq, pure_eq, enter_bind h.unguarded, hm, ofExcept_ok_bind, bind_done,
          hdigits]
  obtain ⟨digits, hdigits⟩ := blocks
  refine ⟨recompose e.messageModulus digits, ?_⟩
  unfold decryptInteger
  rw [bind_eq, enter_bind h.unguarded, hdigits]
  rfl

/-- Whatever its noise, an engine keeps to the ciphertexts that it makes. -/
theorem Intact.keeps (h : e.Intact) : e.engine.Keeps e.Made e.MadeAll where
  encrypt value := (encrypt_upfront h value).delivers
  encryptAll values := (encryptAll_upfront h values).delivers
  keyswitch hc := (keyswitch_upfront h hc).delivers
  keyswitchAll hb := (keyswitchAll_upfront h hb).delivers
  bootstrap hc lookup := (bootstrap_upfront h hc lookup).delivers
  bootstrapAll := bootstrapAll_delivers h
  evaluateTable := evaluateTable_delivers h
  upload hcs := (upload_upfront h hcs).delivers
  download hb := (download_upfront h hb).delivers
  publicZero width := (publicZero_upfront h width).delivers
  widen hx width := (widen_upfront h hx width).delivers
  add := add_delivers h
  decryptInteger := decryptInteger_done h

end SimulatedEngine

/-! ### Streams in lock step -/

/-- All results on file are of a kind. -/
def Regrouping.All {α : Type} (P : α → Prop) (r : Regrouping α) : Prop :=
  ∀ entry ∈ r.pending, ∀ digit ∈ entry.2, P digit.2

namespace Regrouping

variable {α : Type} {P : α → Prop} {r : Regrouping α}

theorem All.arrived (h : r.All P) (feature : Nat) : ∀ digit ∈ r.arrived feature, P digit.2 := by
  intro digit hdigit
  unfold Regrouping.arrived at hdigit
  cases hlookup : r.pending.lookup feature with
  | none =>
      rw [hlookup] at hdigit
      cases hdigit
  | some digits =>
      rw [hlookup] at hdigit
      obtain ⟨before, after, hpending, -⟩ := List.lookup_eq_some_iff.1 hlookup
      exact h (feature, digits) (by rw [hpending]; simp) digit hdigit

/-- What is collected of items has been found for one of them. -/
theorem exists_of_mem_mapM {β : Type} {f : β → Option α} {items : List β} {found : List α}
    (h : items.mapM f = some found) : ∀ x ∈ found, ∃ item ∈ items, f item = some x := by
  induction items generalizing found with
  | nil =>
      cases h
      simp
  | cons item rest ih =>
      rw [List.mapM_cons] at h
      obtain ⟨y, hy, h⟩ := Option.bind_eq_some_iff.1 h
      obtain ⟨ys, hys, h⟩ := Option.bind_eq_some_iff.1 h
      cases h
      refine List.forall_mem_cons.2 ⟨⟨item, by simp, hy⟩, fun x hx => ?_⟩
      obtain ⟨item', hitem', hx⟩ := ih hys x hx
      exact ⟨item', List.mem_cons_of_mem _ hitem', hx⟩

theorem mem_of_inOrder {digits : List (Int × α)} {count : Nat} {ordered : List α}
    (h : inOrder digits count = some ordered) :
    ∀ x ∈ ordered, ∃ block, (block, x) ∈ digits := by
  intro x hx
  obtain ⟨block, _, hblock⟩ := exists_of_mem_mapM h x hx
  obtain ⟨before, after, hdigits, -⟩ := List.lookup_eq_some_iff.1 hblock
  exact ⟨block, by rw [hdigits]; simp⟩

/-- What is filed and what comes out complete is of the kind of what has arrived. -/
theorem All.file (h : r.All P) {plan : LookupPlan} {position : Nat} {x : α} (hx : P x)
    {r' : Regrouping α} {feature? : Option (Nat × List α)}
    (hfile : r.file plan position x = .ok (r', feature?)) :
    r'.All P ∧ ∀ feature ∈ feature?, ∀ y ∈ feature.2, P y := by
  have kept : ∀ feature, ∀ entry ∈ r.without feature, ∀ digit ∈ entry.2, P digit.2 :=
    fun feature entry hentry => h entry (List.mem_of_mem_filter hentry)
  unfold Regrouping.file at hfile
  dsimp only at hfile
  split at hfile
  · rename_i feature block _ _
    have digits : ∀ digit ∈ (block, x) :: (r.arrived feature).filter fun entry =>
        entry.1 != block, P digit.2 :=
      List.forall_mem_cons.2 ⟨hx, fun d hd => h.arrived feature d (List.mem_of_mem_filter hd)⟩
    split at hfile
    · split at hfile
      · rename_i ordered hordered
        cases hfile
        refine ⟨kept feature, ?_⟩
        rintro _ ⟨⟩ y hy
        obtain ⟨block', hmem⟩ := mem_of_inOrder hordered y hy
        exact digits _ hmem
      · cases hfile
    · cases hfile
      exact ⟨List.forall_mem_cons.2 ⟨digits, kept feature⟩, nofun⟩
  · cases hfile

end Regrouping

/-- The same results are on file, all of a kind, beside related states. -/
def Alongside {C β γ : Type} (P : C → Prop) (R : β → γ → Prop) (s : Regrouping C × β)
    (s' : Regrouping C × γ) : Prop :=
  s'.1 = s.1 ∧ s.1.All P ∧ R s.2 s'.2

/-- Encrypted codes of a kind. -/
def Encrypted.All {C B : Type} (P : C → Prop) (PB : B → Prop) : Encrypted C B → Prop
  | .singles cs => ∀ c ∈ cs, P c
  | .batch b => PB b

section Streams

variable {σ C B β γ : Type} {P : C → Prop} {PB : B → Prop} {R : β → γ → Prop} {plan : LookupPlan}
  {receive : β → Nat × List C → Process σ Failure β}
  {receive' : γ → Nat × List C → Process σ Failure γ}

section Encrypted

variable {E : CipherEngine σ C B} (hE : E.Keeps P PB)

include hE

theorem encryptSingly_delivers (codes : List Int) :
    (Strategy.encryptSingly E codes).Delivers fun cs => ∀ c ∈ cs, P c := by
  induction codes with
  | nil => exact Delivers.done (by simp)
  | cons code rest ih =>
      unfold Strategy.encryptSingly
      refine (hE.encrypt code).bind fun c hc => ?_
      exact ih.bind fun cs hcs => Delivers.done (List.forall_mem_cons.2 ⟨hc, hcs⟩)

theorem Strategy.encrypt_delivers (s : Strategy) (codes : List Int) :
    (s.encrypt E codes).Delivers (Encrypted.All P PB) := by
  unfold Strategy.encrypt
  split
  · exact (hE.encryptAll codes).bind fun b hb => Delivers.done hb
  · exact (encryptSingly_delivers hE codes).bind fun cs hcs => Delivers.done hcs

theorem Encrypted.onHost_delivers {encrypted : Encrypted C B} (h : encrypted.All P PB) :
    (encrypted.onHost E).Delivers fun cs => ∀ c ∈ cs, P c := by
  cases encrypted with
  | singles cs => exact Delivers.done h
  | batch b => exact hE.download h

theorem Encrypted.onAccelerator_delivers {encrypted : Encrypted C B} (h : encrypted.All P PB) :
    (encrypted.onAccelerator E).Delivers PB := by
  cases encrypted with
  | singles cs => exact hE.upload h
  | batch b => exact Delivers.done h

end Encrypted

/-- Features cut from a buffer of a kind. -/
theorem cutOutputs_all {outputs : List C} (h : ∀ c ∈ outputs, P c) :
    ∀ x ∈ plan.cutOutputs outputs, ∀ y ∈ x.2, P y := by
  intro x hx y hy
  obtain ⟨f, _, rfl⟩ := List.mem_mapIdx.1 hx
  exact h y (List.mem_of_mem_drop (List.mem_of_mem_take hy))

variable (hreceive : ∀ b c x, R b c → (∀ y ∈ x.2, P y) → Twins R (receive b x) (receive' c x))

include hreceive

theorem twins_foldFeatures {features : List (Nat × List C)}
    (hfeatures : ∀ x ∈ features, ∀ y ∈ x.2, P y) {b : β} {c : γ} (hbc : R b c) :
    Twins R (foldFeatures receive b features) (foldFeatures receive' c features) := by
  induction features generalizing b c with
  | nil => exact .done hbc
  | cons x rest ih =>
      refine (hreceive b c x hbc (hfeatures x (by simp))).bind fun b c hbc => ?_
      exact ih (fun x hx => hfeatures x (List.mem_cons_of_mem _ hx)) hbc

/-- Both sides file the same arrivals. -/
theorem twins_receiveArrival {state : Regrouping C × β} {state' : Regrouping C × γ}
    (hstate : Alongside P R state state') {arrival : Nat × Except Failure C}
    (harrival : Settles P (fun _ => True) arrival.2) :
    Twins (Alongside P R) (receiveArrival plan receive state arrival)
      (receiveArrival plan receive' state' arrival) := by
  obtain ⟨r, b⟩ := state
  obtain ⟨r', c⟩ := state'
  obtain ⟨rfl, hr, hbc⟩ := hstate
  obtain ⟨position, result⟩ := arrival
  unfold receiveArrival
  cases result with
  | error e => exact .fail e
  | ok x =>
      simp only
      cases hfile : r'.file plan position x with
      | error e => exact .fail e
      | ok filed =>
          obtain ⟨filed, feature?⟩ := filed
          obtain ⟨hfiled, hfeature⟩ := hr.file harrival hfile
          cases feature? with
          | none => exact .done ⟨rfl, hfiled, hbc⟩
          | some feature =>
              refine (hreceive b c feature hbc (hfeature feature rfl)).bind fun b c hbc => ?_
              exact .done ⟨rfl, hfiled, hbc⟩

theorem twins_foldOnHost (schedule : Schedule) (workers? : Option Int)
    {task : C → DigitLookup → Process σ Failure C} (htask : ∀ c l, P c → (task c l).Delivers P)
    {cs : List C} (hcs : ∀ c ∈ cs, P c) {b : β} {c : γ} (hbc : R b c) :
    Twins R (foldOnHost plan schedule workers? task cs receive b)
      (foldOnHost plan schedule workers? task cs receive' c) := by
  have tasks : ∀ t ∈ positionTasks plan task cs, t.2.Delivers P := by
    intro t ht
    obtain ⟨position, _, rfl⟩ := List.mem_mapIdx.1 ht
    cases hposition : cs[position]? with
    | none => exact .fail _
    | some c => exact htask c _ (hcs c (List.mem_of_getElem? hposition))
  unfold foldOnHost
  refine (twins_foldFeatures hreceive (by simp) hbc).bind fun b c hbc => ?_
  split
  · exact .done hbc
  · refine Twins.same (Delivers.any (requireWorkers workers?)) fun _ _ => ?_
    have start : Alongside P R (Regrouping.empty, b) (Regrouping.empty, c) := ⟨rfl, nofun, hbc⟩
    have received : ∀ s s' a, Alongside P R s s' → Settles P (fun _ => True) a.2 →
        Twins (Alongside P R) (receiveArrival plan receive s a)
          (receiveArrival plan receive' s' a) :=
      fun _ _ _ hstate harrival => twins_receiveArrival hreceive hstate harrival
    refine (Twins.gather received schedule tasks start).bind ?_
    rintro ⟨_, b⟩ ⟨_, c⟩ ⟨_, _, hbc⟩
    exact .done hbc

/-- The features of a batch are taken in lock step. -/
theorem twins_evaluateBatch {E : CipherEngine σ C B} (hE : E.Keeps P PB) {batch : B}
    (hbatch : PB batch) {b : β} {c : γ} (hbc : R b c) :
    Twins R
      (do
        let evaluated ← E.bootstrapAll batch plan.lookups
        let outputs ← E.download evaluated
        foldFeatures receive b (plan.cutOutputs outputs))
      (do
        let evaluated ← E.bootstrapAll batch plan.lookups
        let outputs ← E.download evaluated
        foldFeatures receive' c (plan.cutOutputs outputs)) := by
  refine Twins.same (hE.bootstrapAll hbatch plan.lookups) fun evaluated hevaluated => ?_
  refine Twins.same (hE.download hevaluated) fun outputs houtputs => ?_
  exact twins_foldFeatures hreceive (cutOutputs_all houtputs) hbc

/-- Wherever the steps run and under every schedule, the features are taken in lock step. -/
theorem twins_fold {E : CipherEngine σ C B} (hE : E.Keeps P PB) (a : Arrangement)
    (schedule : Schedule) {encrypted : Encrypted C B} (hencrypted : encrypted.All P PB) {b : β}
    {c : γ} (hbc : R b c) :
    Twins R (a.fold E schedule plan encrypted receive b)
      (a.fold E schedule plan encrypted receive' c) := by
  have toHost := encrypted.onHost_delivers hE hencrypted
  have toAccelerator := encrypted.onAccelerator_delivers hE hencrypted
  have nothing : Twins R (foldFeatures receive b (plan.cutOutputs []))
      (foldFeatures receive' c (plan.cutOutputs [])) :=
    twins_foldFeatures hreceive (cutOutputs_all (by simp)) hbc
  cases a with
  | host workers? =>
      exact Twins.same toHost fun cs hcs => twins_foldOnHost hreceive schedule workers?
        (fun c l hc => hE.evaluateTable hc l) hcs hbc
  | accelerator =>
      unfold Arrangement.fold
      simp only
      split
      · exact nothing
      · refine Twins.same toAccelerator fun batch hbatch => ?_
        refine Twins.same (hE.keyswitchAll hbatch) fun switched hswitched => ?_
        exact twins_evaluateBatch hreceive hE hswitched hbc
  | mixed keyswitchOn lookupOn workers? =>
      unfold Arrangement.fold
      simp only
      split
      · exact nothing
      · cases keyswitchOn with
        | accelerator =>
            refine Twins.same toAccelerator fun batch hbatch => ?_
            refine Twins.same (hE.keyswitchAll hbatch) fun switched hswitched => ?_
            refine Twins.same (hE.download hswitched) fun cs hcs => ?_
            exact twins_foldOnHost hreceive schedule workers? (fun c l hc => hE.bootstrap hc l) hcs
              hbc
        | host =>
            refine Twins.same toHost fun cs hcs => ?_
            refine Twins.same (Delivers.any (requireWorkers workers?)) fun _ _ => ?_
            have each : ∀ p ∈ cs.map E.keyswitch, p.Delivers P := by
              intro p hp
              obtain ⟨c, hc, rfl⟩ := List.mem_map.1 hp
              exact hE.keyswitch (hcs c hc)
            refine Twins.same (interleave_delivers each schedule) fun results hresults => ?_
            refine Twins.same (firstFailure_delivers hresults) fun switched hswitched => ?_
            refine Twins.same (hE.upload hswitched) fun batch hbatch => ?_
            exact twins_evaluateBatch hreceive hE hbatch hbc

end Streams

/-! ### Authentications on record

What is added to a total can be kept without a look at it. Such a recording is the measure for both
ways to authenticate: neither does anything else than the recording does, and the trace of one reads
what is on record. -/

namespace Matcher

variable {σ C B : Type} (m : Matcher σ C B)

/-- The encrypted total so far, and what has been added to it, each with the number of its feature,
the first one first. -/
structure Ledger (C : Type) where
  total : RadixInteger C
  entries : List (Nat × RadixInteger C)

/-- Widen the digits of a feature, add them to the total, and keep them. -/
def recordFeature (width : Int) (ledger : Ledger C) (feature : Nat × List C) :
    Process σ Failure (Ledger C) :=
  m.during "sum" do
    let value ← m.engine.widen ⟨feature.2⟩ width
    let total ← m.engine.add ledger.total value
    pure ⟨total, ledger.entries ++ [(feature.1, value)]⟩

/-- Sum up features, and keep what is added. -/
def recordFeatures (plan : LookupPlan) (width : Int) (schedule : Schedule) :
    Process σ Failure (Ledger C) := do
  let encrypted ← m.during "encrypt" (m.strategy.encrypt m.engine plan.codes)
  m.during "evaluate" do
    let zero ← m.engine.publicZero width
    m.strategy.arrangement.fold m.engine schedule plan encrypted (m.recordFeature width) ⟨zero, []⟩

/-- Authenticate, and keep what is added to the total. -/
def recordAuthentication (probe : List Int) (compiled : EnrolledTemplate) (schedule : Schedule) :
    Process σ Failure (Ledger C × C) := do
  .act m.instruments.begin
  .ofExcept (m.requireCompatible compiled)
  let plan ← .ofExcept (LookupPlan.build probe compiled)
  let _ ← m.readClock
  let ledger ← m.recordFeatures plan compiled.sumWidth schedule
  let decision ← m.during "compare" (m.engine.atLeast ledger.total compiled.threshold)
  let _ ← m.readClock
  pure (ledger, decision)

variable {P : C → Prop} {PB : B → Prop} {m}

/-- A sum has the total on record. Its values, if it is asked for them, are those of the entries. -/
structure Tracks (E : CipherEngine σ C B) (P : C → Prop) (debug : Bool) (sum : Sum C)
    (ledger : Ledger C) : Prop where
  total_eq : sum.total = ledger.total
  kept : ∀ c ∈ ledger.total.blocks, P c
  values : debug = true → List.Forall₂
    (fun v x => v.1 = x.1 ∧ E.decryptInteger x.2 = .done v.2) sum.values ledger.entries

theorem twins_addFeature (hE : m.engine.Keeps P PB) (width : Int) (debug : Bool) {sum : Sum C}
    {ledger : Ledger C} {feature : Nat × List C} (hsum : Tracks m.engine P debug sum ledger)
    (hfeature : ∀ c ∈ feature.2, P c) :
    Twins (Tracks m.engine P debug) (m.addFeature width debug sum feature)
      (m.recordFeature width ledger feature) := by
  unfold addFeature recordFeature during
  refine Twins.mapError ?_ _
  refine Twins.same (hE.widen (x := ⟨feature.2⟩) hfeature width) fun value hvalue => ?_
  rw [hsum.total_eq]
  cases debug with
  | true =>
      obtain ⟨score, hscore⟩ := hE.decryptInteger hvalue
      rw [if_pos rfl, hscore]
      refine Twins.same (hE.add hsum.kept hvalue) fun total htotal => .done ⟨rfl, htotal, ?_⟩
      exact fun _ => List.rel_append (hsum.values rfl) (.cons ⟨rfl, hscore⟩ .nil)
  | false =>
      rw [if_neg Bool.false_ne_true]
      exact Twins.same (hE.add hsum.kept hvalue) fun total htotal => .done ⟨rfl, htotal, nofun⟩

theorem twins_sumFeatures (hE : m.engine.Keeps P PB) (plan : LookupPlan) (width : Int)
    (debug : Bool) (schedule : Schedule) :
    Twins (Tracks m.engine P debug) (m.sumFeatures plan width debug schedule)
      (m.recordFeatures plan width schedule) := by
  unfold sumFeatures recordFeatures during
  refine Twins.same ((m.strategy.encrypt_delivers hE plan.codes).mapError _)
    fun encrypted hencrypted => Twins.mapError ?_ _
  refine Twins.same (hE.publicZero width) fun zero hzero => ?_
  exact twins_fold (fun _ _ _ => twins_addFeature hE width debug) hE _ schedule hencrypted
    ⟨rfl, hzero, fun _ => .nil⟩

/-- A trace reads what is on record: it has the values of so many features, each at the place of its
feature whatever the order in which they were added, and the value of the total. -/
structure Reads (E : CipherEngine σ C B) (count : Nat) (ledger : Ledger C) (trace : Trace) :
    Prop where
  names_perm : (ledger.entries.map Prod.fst).Perm (List.range count)
  length_eq : trace.featureValues.length = count
  value : ∀ x ∈ ledger.entries,
    ∃ v, trace.featureValues[x.1]? = some v ∧ E.decryptInteger x.2 = .done v
  total : E.decryptInteger ledger.total = .done trace.total

/-- Where names do not repeat, a pair is found by its name. -/
theorem lookup_of_mem {values : List (Nat × Int)} (h : (values.map Prod.fst).Nodup) {x : Nat × Int}
    (hx : x ∈ values) : values.lookup x.1 = some x.2 := by
  induction values with
  | nil => cases hx
  | cons y rest ih =>
      obtain ⟨fresh, distinct⟩ := List.nodup_cons.1 h
      rcases List.mem_cons.1 hx with rfl | hx
      · rw [List.lookup_cons, beq_self_eq_true]
      · have apart : (x.1 == y.1) = false :=
          beq_eq_false_iff_ne.2 fun same => fresh (same ▸ List.mem_map_of_mem hx)
        rw [List.lookup_cons, apart]
        exact ih distinct hx

theorem Tracks.reads {plan : LookupPlan} {sum : Sum C} {ledger : Ledger C}
    (h : Tracks m.engine P true sum ledger)
    (hnames : (ledger.entries.map Prod.fst).Perm (List.range plan.featureCount)) {total : Int}
    (htotal : m.engine.decryptInteger sum.total = .done total) :
    Reads m.engine plan.featureCount ledger
      ⟨(List.range plan.featureCount).map fun f => (sum.values.lookup f).getD 0, total⟩ := by
  have names : sum.values.map Prod.fst = ledger.entries.map Prod.fst := by
    rw [← List.forall₂_eq_eq_eq, List.forall₂_map_left_iff, List.forall₂_map_right_iff]
    exact (h.values rfl).imp fun _ _ hx => hx.1
  have distinct : (sum.values.map Prod.fst).Nodup := by
    rw [names]
    exact hnames.nodup_iff.2 List.nodup_range
  have inside : ∀ x ∈ sum.values, x.1 < plan.featureCount := fun x hx =>
    List.mem_range.1 (hnames.subset (names ▸ List.mem_map_of_mem hx))
  refine ⟨hnames, by simp, fun x hx => ?_, by rw [← h.total_eq]; exact htotal⟩
  obtain ⟨i, hi, rfl⟩ := List.getElem_of_mem hx
  obtain ⟨size, each⟩ := List.forall₂_iff_get.1 (h.values rfl)
  obtain ⟨hname, hvalue⟩ := each i (size ▸ hi) hi
  have mem : sum.values.get ⟨i, size ▸ hi⟩ ∈ sum.values := List.get_mem _ _
  simp only [List.get_eq_getElem] at hname hvalue mem
  refine ⟨_, ?_, hvalue⟩
  rw [← hname, List.getElem?_map, List.getElem?_range (inside _ mem), Option.map_some,
    lookup_of_mem distinct mem, Option.getD_some]

/-- A decision is the one on record. Its trace, if it is asked for, reads the record. -/
structure Displays (E : CipherEngine σ C B) (count : Nat) (debug : Bool) (x : SealedDecision C)
    (y : Ledger C × C) : Prop where
  ciphertext_eq : x.ciphertext = y.2
  trace : if debug then ∃ trace, x.trace? = some trace ∧ Reads E count y.1 trace
    else x.trace? = none

/-- With and without a trace, an authentication goes along with its recording. -/
theorem twins_authenticate (hE : m.engine.Keeps P PB) {probe : List Int}
    {compiled : EnrolledTemplate} {count : Nat} {schedule : Schedule}
    (hnames : ∀ plan, LookupPlan.build probe compiled = .ok plan → plan.featureCount = count ∧
      (m.recordFeatures plan compiled.sumWidth schedule).Delivers fun ledger =>
        (ledger.entries.map Prod.fst).Perm (List.range count)) (debug : Bool) :
    Twins (Displays m.engine count debug) (m.authenticate probe compiled debug schedule)
      (m.recordAuthentication probe compiled schedule) := by
  unfold authenticate recordAuthentication
  refine Twins.same (Delivers.any _) fun _ _ => ?_
  refine Twins.same (Delivers.any _) fun _ _ => ?_
  cases hplan : LookupPlan.build probe compiled with
  | error failure => exact .fail failure
  | ok plan =>
      obtain ⟨rfl, names⟩ := hnames plan hplan
      simp only [bind_eq, ofExcept_ok_bind]
      refine Twins.same (Delivers.any m.readClock) fun started _ => ?_
      have summed := twins_sumFeatures hE plan compiled.sumWidth debug schedule
      refine (summed.and_delivers names).bind fun sum ledger hsum => ?_
      obtain ⟨tracks, perm⟩ := hsum
      rw [tracks.total_eq]
      refine Twins.same (Delivers.any _) fun decision _ => ?_
      refine Twins.same (Delivers.any m.readClock) fun stopped _ => ?_
      cases debug with
      | true =>
          obtain ⟨total, htotal⟩ := hE.decryptInteger tracks.kept
          rw [← tracks.total_eq] at htotal
          simp only [if_true, traceOf, htotal, bind_eq, pure_eq, bind_done]
          exact .done ⟨rfl, _, rfl, tracks.reads perm htotal⟩
      | false => exact .done ⟨rfl, rfl⟩

end Matcher

/-! ### Names on record -/

section Names

variable {e : SimulatedEngine} {s : Strategy}

theorem Charges.delivers {α : Type} {bill : Bill} {P : α → Prop} {p : Process Session Failure α}
    (hp : Charges bill P p) : p.Delivers P :=
  hp.spends.delivers fun _ _ ha => ha.2

namespace SimulatedEngine

theorem add_tallies (h : e.guard = unguarded) (x y : RadixInteger LweBlock) :
    (e.add x y).Tallies := by
  unfold add
  rw [bind_eq, enter_bind h]
  split
  · exact Tallies.fail _
  · exact (addPairs_tallies h _ none).bind fun blocks => Tallies.done _

/-- A feature goes on record behind those before it. -/
theorem recordFeature_absorbs (h : e.guard = unguarded) {γ : Type} (rows : List (List γ))
    (width : Int) :
    Absorbs Session.Counted (fun c (_ : γ) => Live c) rows
      (fun _ done ledger => ledger.entries.map Prod.fst = done.reverse) (fun _ => True)
      ((e.matcher s).recordFeature width) := by
  intro m done ledger f cs row hnames _ _ _
  have counts : ((e.matcher s).recordFeature width ledger (f, cs)).Tallies := by
    have added : (((e.matcher s).engine.widen ⟨cs⟩ width).bind fun value =>
        ((e.matcher s).engine.add ledger.total value).bind fun total =>
          .done (⟨total, ledger.entries ++ [(f, value)]⟩ : Matcher.Ledger LweBlock)).Tallies :=
      Tallies.bind (widen_charges h ⟨cs⟩ width).tallies fun value =>
        Tallies.bind (add_tallies h _ _) fun total => Tallies.done _
    exact Spends.mapError added fun _ _ _ => trivial
  have named : ((e.matcher s).recordFeature width ledger (f, cs)).Delivers fun ledger =>
      ledger.entries.map Prod.fst = (f :: done).reverse := by
    refine Delivers.mapError ?_ _
    refine (Delivers.any _).bind fun value _ => (Delivers.any _).bind fun total _ => ?_
    exact Delivers.done (by simp [hnames])
  refine ((counts.and_always named).rebase m).mono ?_
  rintro _ r ⟨_, rfl, _, hr⟩
  exact hr

/-- Every feature of a plan goes on record once. -/
theorem recordFeatures_names (h : e.guard = unguarded) {plan : LookupPlan}
    {rows : List (List Evaluation)} (hplan : plan.Runs rows) (width : Int) (schedule : Schedule) :
    ((e.matcher s).recordFeatures plan width schedule).Delivers fun ledger =>
      (ledger.entries.map Prod.fst).Perm (List.range plan.digitCounts.length) := by
  have encrypted := Strategy.encrypt_charges h (s := s) plan.codes
  rw [hplan.length_codes] at encrypted
  unfold Matcher.recordFeatures Matcher.during
  refine (encrypted.delivers.mapError _).bind fun encrypted hencrypted => Delivers.mapError ?_ _
  refine (Delivers.any _).bind fun zero _ => ?_
  have absorbs := recordFeature_absorbs h (s := s) (answers rows) width
  have start : (⟨zero, []⟩ : Matcher.Ledger LweBlock).entries.map Prod.fst = [].reverse := rfl
  have folded := s.arrangement.fold_charges h hplan absorbs schedule hencrypted start
  refine folded.spends.delivers ?_
  rintro _ ledger ⟨_, _, done, perm, _, hnames⟩
  rw [hnames]
  exact (List.reverse_perm done).trans perm

/-- The features that go on record are those of the template, each of them once. -/
theorem names_of_plan (h : e.guard = unguarded) {compiled : EnrolledTemplate} {d : DigitSystem}
    {width : Nat} {features : List EnrolledFeature} (holds : compiled.Holds d width features)
    {probe : List Int} {plan : LookupPlan} (hplan : LookupPlan.build probe compiled = .ok plan)
    (schedule : Schedule) :
    plan.featureCount = compiled.featureCount ∧
      ((e.matcher s).recordFeatures plan compiled.sumWidth schedule).Delivers fun ledger =>
        (ledger.entries.map Prod.fst).Perm (List.range compiled.featureCount) := by
  have count : plan.digitCounts.length = compiled.featureCount := by
    rw [counts_of_plan hplan, EnrolledTemplate.digitCounts, List.length_map]
    rfl
  have recorded := recordFeatures_names h (s := s) (holds.runs hplan compiled.radix)
    compiled.sumWidth schedule
  rw [count] at recorded
  exact ⟨by rw [← count, LookupPlan.digitCounts, List.length_map]; rfl, recorded⟩

/-! ### With and without a trace -/

/-- A spacing of at least one leaves room for messages, carries and the padding bit. -/
theorem bits_le_of_spacing_pos {p : LweParameters} (h : 0 < spacing p.totalModulus) :
    p.messageBits + p.carryBits ≤ 31 := by
  by_contra wide
  have total : p.totalModulus = 2 ^ (p.messageBits + p.carryBits) := (pow_add 2 _ _).symm
  have large : 2 ^ 32 ≤ p.totalModulus := by
    rw [total]
    exact Nat.pow_le_pow_right (by decide) (by omega)
  have none : spacing p.totalModulus = 0 := by
    refine Nat.div_eq_of_lt ?_
    unfold ciphertextModulus
    omega
  omega

/-- Under little noise and with a carry bit, whatever comes to a decision shows the values of the
features, and their sum as far as its digits hold it. -/
theorem trace_ofValues (h : e.Faithful 6) (hcarry : 1 ≤ e.parameters.carryBits)
    {compiled : EnrolledTemplate} {d : DigitSystem} {width : Nat} {features : List EnrolledFeature}
    (hcompiled : compiled.Holds d width features) {probe : List Int} {schedule : Schedule}
    {session after : Session} {decision : SealedDecision LweBlock}
    (hrun : ((e.matcher s).authenticate probe compiled true schedule).run session =
      (.ok decision, after)) :
    ∃ values, decision.trace? = some (.ofValues compiled.radix width values) := by
  cases hscreen : (e.matcher s).screen probe compiled with
  | error failure =>
      rw [Matcher.authenticate_run_of_refused hscreen] at hrun
      cases hrun
  | ok plan =>
      obtain ⟨_, hcompatible, hplan⟩ := bind_eq_ok hscreen
      have shown : ∀ s' : Strategy, e.Hosts s' compiled →
          ((e.matcher s').authenticate probe compiled true schedule).run session =
            (.ok decision, after) →
          ∃ values, decision.trace? = some (.ofValues compiled.radix width values) := by
        intro s' hosts hrun
        obtain ⟨decision', hdecision, resolved⟩ :=
          (hosts.authenticate_yields hcompiled hplan true schedule).run session
        rw [hrun] at hdecision
        cases hdecision
        exact ⟨_, resolved.trace_eq⟩
      have hosts : e.Hosts s.hiring compiled := ⟨h, hcarry, s.staffed_hiring, hcompatible⟩
      by_cases hidle : s.arrangement = .accelerator ∨ plan.lookupCount = 0
      · rw [authenticate_hiring hplan hidle] at hrun
        exact shown s.hiring hosts hrun
      · rcases s.staffed_or_refused with staffed | ⟨failure, hworkers⟩
        · exact shown s ⟨h, hcarry, staffed, hcompatible⟩ hrun
        · obtain ⟨hhost, hsome⟩ := not_or.1 hidle
          obtain ⟨_, _, _, hfailed⟩ := (hosts.authenticate_aborts hcompiled hplan hhost hworkers
            hsome true schedule).spends.run_counted session
          rw [hrun] at hfailed
          cases hfailed

/-- The total of a trace is the sum of its values, as far as the digits of the sum hold it. -/
theorem total_of_trace {p : LweParameters} {tape : Tape} (he : ofTape p tape unguarded = .ok e)
    {compiled : EnrolledTemplate} {d : DigitSystem} {width : Nat} {features : List EnrolledFeature}
    (holds : compiled.Holds d width features) (hcarry : 1 ≤ p.carryBits)
    (hnoise : ∀ key position, 6 * |tape.noise key position| < spacing p.totalModulus)
    {probe : List Int} {schedule : Schedule} {session after : Session}
    {decision : SealedDecision LweBlock}
    (hrun : ((e.matcher s).authenticate probe compiled true schedule).run session =
      (.ok decision, after))
    {trace : Trace} (htrace : decision.trace? = some trace) :
    trace.total = trace.featureValues.sum % compiled.radix ^ compiled.sumWidth.toNat := by
  have pos : 0 < spacing p.totalModulus := by
    have := hnoise .large 0
    have := abs_nonneg (tape.noise .large 0)
    omega
  have faithful : e.Faithful 6 := faithful_ofTape he (bits_le_of_spacing_pos pos) hnoise
  have carry : 1 ≤ e.parameters.carryBits := by
    rw [(ofTape_eq_ok he).1]
    exact hcarry
  obtain ⟨values, hvalues⟩ := trace_ofValues faithful carry holds hrun
  rw [htrace] at hvalues
  cases hvalues
  rw [holds.sumWidth_eq]
  rfl

/-- To ask for the values of an authentication changes nothing of it. For every engine and session,
compiled template, probe and strategy, and under every schedule, with and without a trace it leaves
the same session behind, counters and place on the tape included, and comes to the same failure or
to the same ciphertext. The trace has the values of the features in their order, whatever the order
in which they went on record, and with a carry bit and little noise its total is their sum as far as
the digits of the sum hold it. A probe that is accepted comes to a decision, if the words of the
engine have room for its blocks and the host has workers. -/
theorem debug_only_observes {p : LweParameters} {tape : Tape}
    (he : ofTape p tape unguarded = .ok e) {compiled : EnrolledTemplate}
    (hcompiled : compiled.Compiled) (s : Strategy) (probe : List Int) (schedule : Schedule)
    (session : Session) :
    let run := fun debug =>
      ((e.matcher s).authenticate probe compiled debug schedule).run session
    (run true).2 = (run false).2 ∧
    Agree (fun traced plain => traced.ciphertext = plain.ciphertext ∧ plain.trace? = none ∧
        ∃ trace ledger after, traced.trace? = some trace ∧
          ((e.matcher s).recordAuthentication probe compiled schedule).run session =
            (.ok (ledger, plain.ciphertext), after) ∧
          Matcher.Reads e.engine compiled.featureCount ledger trace ∧
          (1 ≤ p.carryBits →
            (∀ key position, 6 * |tape.noise key position| < spacing p.totalModulus) →
            trace.total = trace.featureValues.sum % compiled.radix ^ compiled.sumWidth.toNat))
      (run true).1 (run false).1 ∧
    ∀ plan, (e.matcher s).screen probe compiled = .ok plan → p.messageBits + p.carryBits ≤ 31 →
      s.Staffed → ∃ decision, (run false).1 = .ok decision := by
  intro run
  obtain ⟨d, width, features, holds⟩ := hcompiled.holds
  have intact := intact_ofTape he
  have names := fun plan (hplan : LookupPlan.build probe compiled = .ok plan) =>
    names_of_plan (s := s) intact.unguarded holds hplan schedule
  have twins := Matcher.twins_authenticate (m := e.matcher s) intact.keeps names
  obtain ⟨tracedAgrees, tracedState⟩ := (twins true).run session
  obtain ⟨plainAgrees, plainState⟩ := (twins false).run session
  refine ⟨tracedState.trans plainState.symm, ?_, fun plan hscreen hbits hstaffed => ?_⟩
  · show Agree _ (run true).1 (run false).1
    have traced : Agree _ (run true).1 _ := tracedAgrees
    have plain : Agree _ (run false).1 _ := plainAgrees
    generalize ((e.matcher s).recordAuthentication probe compiled schedule).run session =
      record at traced plain ⊢
    obtain ⟨record, after⟩ := record
    cases hrun : run true with
    | mk outcome left =>
        rw [hrun] at traced
        cases traced with
        | error failure =>
            rw [(plain.error_iff failure).2 rfl]
            exact .error failure
        | @ok decision entry shown =>
            obtain ⟨ledger, ciphertext⟩ := entry
            obtain ⟨decision', hdecision', hidden⟩ := plain.exists_ok
            obtain ⟨trace, htrace, reads⟩ := shown.trace
            rw [hdecision']
            refine .ok ⟨shown.ciphertext_eq.trans hidden.ciphertext_eq.symm, hidden.trace, trace,
              ledger, after, htrace, ?_, reads, fun hcarry hnoise => ?_⟩
            · rw [hidden.ciphertext_eq]
            · exact total_of_trace he holds hcarry hnoise hrun htrace
  · obtain ⟨decision, hdecision, _⟩ := (authenticate_completes (faithful_of_bits he hbits) hstaffed
      holds hscreen false schedule).run session
    exact ⟨decision, hdecision⟩

open TemplateCompiler (samplePolicy sampleTables placed staffed_placed) in
/-- Two features whose workers take turns, seen and unseen. -/
theorem debug_only_observes_sample :
    ∃ compiled traced plain trace, compiled.Compiled ∧
      (let run := fun debug => ((smallest.matcher (placed .host)).authenticate [1, 2] compiled debug
        [2, 1, 2, 0]).run Session.start
      (run true).2 = (run false).2 ∧ (run true).1 = .ok traced ∧ (run false).1 = .ok plain) ∧
      traced.ciphertext = plain.ciphertext ∧ plain.trace? = none ∧ traced.trace? = some trace ∧
      trace.total = trace.featureValues.sum % compiled.radix ^ compiled.sumWidth.toNat := by
  have built : ofTape smallest.parameters smallest.tape unguarded = .ok smallest := rfl
  have accepted : (do
      let c ← TemplateCompiler.ofTables samplePolicy sampleTables
      let compiled ← c.compile [0, 1] true
      (smallest.matcher (placed .host)).screen [1, 2] compiled).isOk = true := by
    decide +kernel
  obtain ⟨plan, hu⟩ := exists_of_isOk accepted
  obtain ⟨c, hc, hu⟩ := bind_eq_ok hu
  obtain ⟨compiled, hcompile, hscreen⟩ := bind_eq_ok hu
  have made : compiled.Compiled := ⟨_, _, c, _, _, hc, hcompile⟩
  obtain ⟨state, agrees, decides⟩ := debug_only_observes built made (placed .host) [1, 2]
    [2, 1, 2, 0] Session.start
  obtain ⟨plain, hplain⟩ := decides plan hscreen (by decide) (staffed_placed .host)
  rw [hplain] at agrees
  obtain ⟨traced, htraced, same, hidden, trace, _, _, shown, _, _, total⟩ := agrees.exists_ok
  exact ⟨compiled, traced, plain, trace, made, ⟨state, htraced, hplain⟩, same, hidden, shown,
    total (by decide) faithful_smallest.noise_lt⟩

end SimulatedEngine

end Names

end SealedMatch
