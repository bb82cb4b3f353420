/-
Module: SealedMatch.Proofs.Engine.Charges
Purpose: What the operations of the simulated engine count, by which of their operands are public.
Trusted boundary: none
Main exports: Bill, Session.Counted, Charges, ChargesBeside, Aborts, Process.Tallies,
  SimulatedEngine.add_live, SimulatedEngine.atLeast_live
-/
import Mathlib.Algebra.Group.Defs
import SealedMatch.Engine.Simulated
import SealedMatch.Proofs.Process.Interleave

namespace SealedMatch

open Process hiding bind bind_assoc

/-! ### Bills -/

/-- Numbers of counted operations. -/
def Bill : Type := CountedOperation → Nat

namespace Bill

instance : Zero Bill := ⟨fun _ => 0⟩

instance : Add Bill := ⟨fun a b k => a k + b k⟩

instance : AddCommMonoid Bill where
  add_assoc a b c := funext fun k => Nat.add_assoc (a k) (b k) (c k)
  add_comm a b := funext fun k => Nat.add_comm (a k) (b k)
  zero_add a := funext fun k => Nat.zero_add (a k)
  add_zero a := funext fun k => Nat.add_zero (a k)
  nsmul := nsmulRec

@[simp] theorem add_apply (a b : Bill) (k : CountedOperation) : (a + b) k = a k + b k := rfl

@[simp] theorem zero_apply (k : CountedOperation) : (0 : Bill) k = 0 := rfl

/-- So many operations of one kind. -/
def of (op : CountedOperation) (n : Nat) : Bill := fun k => if op = k then n else 0

/-- So many key switches, each with a bootstrap. -/
def refreshes (n : Nat) : Bill := of .keyswitch n + of .bootstrap n

@[simp] theorem of_zero (op : CountedOperation) : of op 0 = 0 := by
  funext k
  simp [of]

theorem of_add (op : CountedOperation) (m n : Nat) : of op (m + n) = of op m + of op n := by
  funext k
  by_cases h : op = k <;> simp [of, h]

@[simp] theorem refreshes_zero : refreshes 0 = 0 := by
  unfold refreshes
  rw [of_zero, of_zero, add_zero]

/-- So many times one operation. -/
theorem nsmul_of (op : CountedOperation) (n : Nat) : n • of op 1 = of op n := by
  induction n with
  | zero => rw [zero_nsmul, of_zero]
  | succ n ih => rw [succ_nsmul, ih, ← of_add]

theorem refreshes_add (m n : Nat) : refreshes (m + n) = refreshes m + refreshes n := by
  unfold refreshes
  rw [of_add, of_add, add_add_add_comm]

theorem nsmul_refreshes (n : Nat) : n • refreshes 1 = refreshes n := by
  unfold refreshes
  rw [nsmul_add, nsmul_of, nsmul_of]

end Bill

/-- What has been counted so far. -/
def Session.billed (s : Session) : Bill := s.counts.count

theorem Session.billed_eq {s s' : Session} (h : s'.counts = s.counts) : s'.billed = s.billed := by
  unfold billed
  rw [h]

/-- The counters have moved by a bill. -/
def Session.Counted (bill : Bill) (before after : Session) : Prop :=
  after.billed = before.billed + bill

/-- Alone, a process moves the counters by what it counts. -/
theorem Process.Spends.run_counted {α : Type} {Q : Bill → Except Failure α → Prop}
    {p : Process Session Failure α} (hp : p.Spends Session.Counted Q 0) (session : Session) :
    ∃ m, (p.run session).2.billed = session.billed + m ∧ Q m (p.run session).1 := by
  have viewed : p.Spends (fun d s s' => s'.billed = s.billed + d) Q 0 := hp
  obtain ⟨m, hcounts, hQ⟩ := viewed.run session
  rw [zero_add] at hQ
  exact ⟨m, hcounts, hQ⟩

/-- A process that has counted a bill when it comes to a result, and the result has a property. What
it counts before a failure is left open. -/
structure Charges {α : Type} (bill : Bill) (Q : α → Prop) (p : Process Session Failure α) :
    Prop where
  spends :
    p.Spends Session.Counted (fun m => Settles (fun a => m = bill ∧ Q a) fun _ => True) 0

namespace Charges

variable {α β : Type} {bill bill' : Bill} {P Q : α → Prop} {R : β → Prop}
  {p : Process Session Failure α} {f : α → Process Session Failure β}

theorem done {a : α} (h : Q a) : Charges 0 Q (Process.done a) := ⟨rfl, h⟩

theorem fail (e : Failure) : Charges bill Q (Process.fail e) := ⟨True.intro⟩

theorem mono (hp : Charges bill P p) (h : ∀ a, P a → Q a) : Charges bill Q p := by
  refine ⟨hp.spends.mono fun m r hr => ?_⟩
  cases r with
  | ok a => exact ⟨hr.1, h a hr.2⟩
  | error e => trivial

/-- A bill counts on top of what has been counted before. -/
theorem after (hp : Charges bill Q p) (before : Bill) :
    p.Spends Session.Counted
      (fun m => Settles (fun a => m = before + bill ∧ Q a) fun _ => True) before := by
  refine (hp.spends.rebase before).mono fun m r hr => ?_
  obtain ⟨m', rfl, hr⟩ := hr
  cases r with
  | ok a => exact ⟨by rw [hr.1], hr.2⟩
  | error e => trivial

theorem bind (hp : Charges bill P p) (hf : ∀ a, P a → Charges bill' R (f a)) :
    Charges (bill + bill') R (p.bind f) := by
  refine ⟨hp.spends.bind ?_ fun _ _ _ => trivial⟩
  rintro m a ⟨rfl, ha⟩
  exact (hf a ha).after m

/-- The first part counts nothing. -/
theorem free_bind (hp : Charges 0 P p) (hf : ∀ a, P a → Charges bill R (f a)) :
    Charges bill R (p.bind f) := by
  rw [← zero_add bill]
  exact hp.bind hf

/-- The second part counts nothing. -/
theorem bind_free (hp : Charges bill P p) (hf : ∀ a, P a → Charges 0 R (f a)) :
    Charges bill R (p.bind f) := by
  rw [← add_zero bill]
  exact hp.bind hf

/-- A check counts nothing. -/
theorem check {x : Except Failure α} (hf : ∀ a, x = .ok a → Charges bill R (f a)) :
    Charges bill R ((Process.ofExcept x).bind f) := by
  cases x with
  | ok a => exact hf a rfl
  | error e => exact fail e

theorem mapError (hp : Charges bill Q p) (g : Failure → Failure) :
    Charges bill Q (p.mapError g) := by
  refine ⟨hp.spends.mapError fun m r hr => ?_⟩
  cases r with
  | ok a => exact hr
  | error e => trivial

/-- Results that came at one bill each came at all of these together. -/
theorem sum_of_results {γ : Type} {ys : List (Except Failure α × Bill)} {specs : List γ}
    (hys : List.Forall₂ (fun y (_ : γ) => Settles (fun a => y.2 = bill ∧ Q a) (fun _ => True) y.1)
      ys specs) {as : List α} (h : ys.map Prod.fst = as.map .ok) :
    (ys.map Prod.snd).sum = specs.length • bill ∧ as.length = specs.length ∧ ∀ a ∈ as, Q a := by
  induction hys generalizing as with
  | nil =>
      cases as with
      | nil => exact ⟨(zero_nsmul bill).symm, rfl, by simp⟩
      | cons a as => cases h
  | cons head tail ih =>
      rename_i y spec ys specs
      cases as with
      | nil => cases h
      | cons a as =>
          obtain ⟨r, m⟩ := y
          rw [List.map_cons, List.map_cons, List.cons.injEq] at h
          obtain ⟨rfl, h⟩ := h
          obtain ⟨rfl, ha⟩ := head
          obtain ⟨sum, count, has⟩ := ih h
          refine ⟨?_, by rw [List.length_cons, count, List.length_cons],
            List.forall_mem_cons.2 ⟨ha, has⟩⟩
          rw [List.map_cons, List.sum_cons, sum, List.length_cons, succ_nsmul, add_comm]

/-- Processes at once count what they count one by one, unless one of them fails. -/
theorem interleave {ps : List (Process Session Failure α)} (hps : ∀ p ∈ ps, Charges bill Q p)
    (schedule : Schedule) :
    Charges (ps.length • bill) (fun as => as.length = ps.length ∧ ∀ a ∈ as, Q a)
      ((Process.interleave schedule ps).bind fun rs => .ofExcept (firstFailure rs)) := by
  have together : (Process.interleave schedule ps : Process Session Failure _).Pays _ _ _ :=
    interleave_pays (R := fun m r _ => Settles (fun a => m = bill ∧ Q a) (fun _ => True) r)
      schedule (List.forall₂_same.2 fun p hp => (hps p hp).spends)
  refine ⟨Spends.bind together ?_ fun _ _ _ => trivial⟩
  rintro m rs ⟨_, hrs, ys, rfl, rfl, hys⟩
  cases hrs
  refine spends_ofExcept.2 ?_
  cases hfirst : firstFailure (ys.map Prod.fst) with
  | error e => trivial
  | ok as =>
      obtain ⟨sum, all⟩ := sum_of_results hys (eq_map_ok_of_firstFailure hfirst)
      exact ⟨by rw [sum, zero_add], all⟩

/-- An action beside the counters. -/
theorem fetch {update : Session → Session} (hupdate : ∀ s, (update s).counts = s.counts)
    {view : Session → α} (hview : ∀ s, Q (view s)) : Charges 0 Q (Process.fetch update view) := by
  refine ⟨0, fun s => ?_, fun s => ⟨add_zero 0, hview s⟩⟩
  unfold Session.Counted
  rw [Session.billed_eq (hupdate s), add_zero]

theorem act {update : Session → Session} (hupdate : ∀ s, (update s).counts = s.counts) :
    Charges 0 (fun _ => True) (Process.act update : Process Session Failure Unit) := by
  refine ⟨0, fun s => ?_, fun s => ⟨add_zero 0, trivial⟩⟩
  unfold Session.Counted
  rw [Session.billed_eq (hupdate s), add_zero]

end Charges

/-- A process that has counted a bill and something else when it comes to a result, and the result
has a property that speaks of what else it has counted. -/
structure ChargesBeside {α : Type} (bill : Bill) (K : Bill → α → Prop)
    (p : Process Session Failure α) : Prop where
  spends :
    p.Spends Session.Counted
      (fun m => Settles (fun a => ∃ m', m = bill + m' ∧ K m' a) fun _ => True) 0

namespace ChargesBeside

variable {α β : Type} {bill bill' : Bill} {P : α → Prop} {K : Bill → β → Prop}
  {p : Process Session Failure α} {q : Process Session Failure β}
  {f : α → Process Session Failure β}

theorem bind (hp : Charges bill P p) (hf : ∀ a, P a → ChargesBeside bill' K (f a)) :
    ChargesBeside (bill + bill') K (p.bind f) := by
  refine ⟨hp.spends.bind ?_ fun _ _ _ => trivial⟩
  rintro m a ⟨rfl, ha⟩
  refine ((hf a ha).spends.rebase m).mono fun _ r hr => ?_
  obtain ⟨m', rfl, hr⟩ := hr
  cases r with
  | error e => trivial
  | ok b =>
      obtain ⟨m'', rfl, hb⟩ := hr
      exact ⟨m'', (add_assoc _ _ _).symm, hb⟩

/-- The first part counts nothing. -/
theorem free_bind (hp : Charges 0 P p) (hf : ∀ a, P a → ChargesBeside bill K (f a)) :
    ChargesBeside bill K (p.bind f) := by
  rw [← zero_add bill]
  exact bind hp hf

/-- If it is known what else has been counted, all is known. -/
theorem charges {Q : β → Prop} (hq : ChargesBeside bill K q)
    (h : ∀ m b, K m b → m = bill' ∧ Q b) : Charges (bill + bill') Q q := by
  refine ⟨hq.spends.mono fun _ r hr => ?_⟩
  cases r with
  | error e => trivial
  | ok b =>
      obtain ⟨m', rfl, hb⟩ := hr
      obtain ⟨rfl, hb⟩ := h _ _ hb
      exact ⟨rfl, hb⟩

end ChargesBeside

/-! ### Failures at a known bill -/

/-- A process that cannot fail has counted its bill whenever it ends. -/
theorem Charges.pays {α : Type} {bill : Bill} {P Q : α → Prop} {p : Process Session Failure α}
    {H : Session → Session → Prop} (hp : Charges bill P p) (hq : p.Yields H Q) :
    p.Pays Session.Counted (fun m a => m = bill ∧ P a ∧ Q a) 0 := by
  refine (hp.spends.and_always hq).mono ?_
  rintro m _ ⟨hr, a, rfl, ha⟩
  exact ⟨a, rfl, hr.1, hr.2, ha⟩

/-- A process that ends with a failure and has counted a bill by then. -/
structure Aborts {α : Type} (bill : Bill) (failure : Failure) (p : Process Session Failure α) :
    Prop where
  spends : p.Spends Session.Counted (fun m r => m = bill ∧ r = .error failure) 0

namespace Aborts

variable {α β : Type} {bill bill' : Bill} {failure : Failure} {P : α → Prop}
  {p : Process Session Failure α} {f : α → Process Session Failure β}

theorem fail (failure : Failure) :
    Aborts 0 failure (Process.fail failure : Process Session Failure α) :=
  ⟨rfl, rfl⟩

/-- What comes after the failure does not matter. -/
theorem cut (hp : Aborts bill failure p) : Aborts bill failure (p.bind f) := by
  refine ⟨hp.spends.bind ?_ ?_⟩
  · rintro m a ⟨_, ha⟩
    cases ha
  · rintro m _ ⟨rfl, he⟩
    cases he
    exact ⟨rfl, rfl⟩

theorem bind (hp : p.Pays Session.Counted (fun m a => m = bill ∧ P a) 0)
    (hf : ∀ a, P a → Aborts bill' failure (f a)) : Aborts (bill + bill') failure (p.bind f) := by
  refine ⟨Spends.bind hp ?_ ?_⟩
  · rintro m a ⟨b, hb, rfl, hP⟩
    cases hb
    refine ((hf a hP).spends.rebase m).mono ?_
    rintro _ r ⟨m', rfl, rfl, rfl⟩
    exact ⟨rfl, rfl⟩
  · rintro m e ⟨b, hb, _⟩
    cases hb

/-- The first part counts nothing. -/
theorem free_bind (hp : p.Pays Session.Counted (fun m a => m = 0 ∧ P a) 0)
    (hf : ∀ a, P a → Aborts bill failure (f a)) : Aborts bill failure (p.bind f) := by
  rw [← zero_add bill]
  exact bind hp hf

theorem mapError (hp : Aborts bill failure p) (g : Failure → Failure) :
    Aborts bill (g failure) (p.mapError g) := by
  refine ⟨hp.spends.mapError ?_⟩
  rintro m _ ⟨rfl, rfl⟩
  exact ⟨rfl, rfl⟩

end Aborts

/-! ### Counters that only grow -/

/-- Every action of a process adds to the counters, or leaves them alone. -/
def Process.Tallies {α : Type} (p : Process Session Failure α) : Prop :=
  p.Spends Session.Counted (fun _ _ => True) 0

namespace Process.Tallies

variable {α β : Type} {p : Process Session Failure α} {f : α → Process Session Failure β}

theorem done (a : α) : (Process.done a : Process Session Failure α).Tallies := trivial

theorem fail (failure : Failure) : (Process.fail failure : Process Session Failure α).Tallies :=
  trivial

theorem bind (hp : p.Tallies) (hf : ∀ a, (f a).Tallies) : (p.bind f).Tallies := by
  refine Spends.bind hp (fun m a _ => ?_) fun _ _ _ => trivial
  exact ((hf a).rebase m).mono fun _ _ _ => trivial

theorem check {x : Except Failure α} (hf : ∀ a, (f a).Tallies) :
    ((Process.ofExcept x).bind f).Tallies := by
  cases x with
  | ok a => exact hf a
  | error e => exact fail e

end Process.Tallies

theorem Charges.tallies {α : Type} {bill : Bill} {Q : α → Prop} {p : Process Session Failure α}
    (hp : Charges bill Q p) : p.Tallies :=
  hp.spends.mono fun _ _ _ => trivial

namespace SimulatedEngine

variable {e : SimulatedEngine}

theorem count_charges (op : CountedOperation) (n : Nat) :
    Charges (Bill.of op n) (fun _ => True) (count op n) := by
  refine ⟨Bill.of op n, fun s => ?_, fun s => ⟨zero_add _, trivial⟩⟩
  funext k
  exact Tally.count_add s.counts op k n

/-! ### Ciphertexts -/

/-- A block that is no public constant. -/
def Live (c : LweBlock) : Prop := c.trivial = false

/-- A batch of so many ciphertexts. -/
structure Filled (n : Nat) (b : LweBatch) : Prop where
  bodies : b.bodies.length = n
  masks : b.masks.length = n

theorem encryptRows_charges (messages : List Int) (key : KeyLabel) :
    Charges 0 (fun rows => rows.length = messages.length) (e.encryptRows messages key) := by
  unfold encryptRows
  refine .check fun secret _ => ?_
  refine Charges.fetch (fun s => ?_) fun s => ?_
  · rfl
  · unfold sealRows
    rw [List.length_mapIdx]

theorem encryptRow_charges (message : Int) (key : KeyLabel) :
    Charges 0 Live (e.encryptRow message key) := by
  unfold encryptRow
  refine (encryptRows_charges [message] key).free_bind fun rows _ => ?_
  split
  · exact .done rfl
  · exact .fail _

theorem encryptBatch_charges (messages : List Int) (key : KeyLabel) (place : Place) :
    Charges 0 (Filled messages.length) (e.encryptBatch messages key place) := by
  unfold encryptBatch
  refine .check fun secret _ => ?_
  refine (encryptRows_charges messages key).free_bind fun rows hrows => .done ?_
  constructor <;> simp [LweBatch.ofRows, hrows]

theorem decodeAll_length {b : LweBatch} {key : KeyLabel} {n : Nat} (hb : Filled n b)
    {messages : List Nat} (h : e.decodeAll b key = .ok messages) : messages.length = n := by
  unfold decodeAll at h
  obtain ⟨secret, _, h⟩ := bind_eq_ok h
  have lengths : b.bodies.length = (b.masks.map fun mask => maskProduct mask secret).length := by
    rw [List.length_map, hb.bodies, hb.masks]
  obtain ⟨rows, hrows, h⟩ := bind_eq_ok h
  rw [stretch_of_length_eq lengths] at hrows
  cases hrows
  cases h
  simp [hb.bodies, hb.masks]

section Unguarded

variable (h : e.guard = unguarded)

include h

theorem enter_eq (operation : EngineOperation) : e.enter operation = .done () := by
  unfold enter
  rw [h]
  rfl

theorem enterWith_eq (operation : EngineOperation) (lookup : DigitLookup) :
    e.enterWith operation lookup = .done () := by
  unfold enterWith
  rw [h]
  rfl

theorem enter_bind {α : Type} (operation : EngineOperation) (f : Unit → Action α) :
    (e.enter operation).bind f = f () := by
  rw [enter_eq h]
  rfl

theorem enterWith_bind {α : Type} (operation : EngineOperation) (lookup : DigitLookup)
    (f : Unit → Action α) : (e.enterWith operation lookup).bind f = f () := by
  rw [enterWith_eq h]
  rfl

/-- Entering an operation counts nothing. -/
theorem entered {β : Type} {bill : Bill} {R : β → Prop} {f : Unit → Action β}
    (operation : EngineOperation) (hf : Charges bill R (f ())) :
    Charges bill R ((e.enter operation).bind f) := by
  rw [enter_bind h]
  exact hf

theorem enteredWith {β : Type} {bill : Bill} {R : β → Prop} {f : Unit → Action β}
    (operation : EngineOperation) (lookup : DigitLookup) (hf : Charges bill R (f ())) :
    Charges bill R ((e.enterWith operation lookup).bind f) := by
  rw [enterWith_bind h]
  exact hf

theorem encrypt_charges (value : Int) : Charges (Bill.of .encrypt 1) Live (e.encrypt value) := by
  unfold encrypt
  refine entered h _ ?_
  refine .check fun _ _ => ?_
  exact (count_charges .encrypt 1).bind_free fun _ _ => encryptRow_charges value .large

theorem encryptAll_charges (values : List Int) :
    Charges (Bill.of .encrypt values.length) (Filled values.length) (e.encryptAll values) := by
  unfold encryptAll
  refine entered h _ ?_
  refine .check fun _ _ => ?_
  exact (count_charges .encrypt _).bind_free fun _ _ => encryptBatch_charges values .large _

theorem keyswitch_charges (c : LweBlock) :
    Charges (Bill.of .keyswitch 1) Live (e.keyswitch c) := by
  unfold keyswitch
  refine entered h _ ?_
  refine .check fun _ _ => ?_
  refine (count_charges .keyswitch 1).bind_free fun _ _ => ?_
  refine .check fun m _ => ?_
  exact encryptRow_charges _ .small

theorem keyswitchAll_charges {n : Nat} {b : LweBatch} (hb : Filled n b) :
    Charges (Bill.of .keyswitch n) (Filled n) (e.keyswitchAll b) := by
  unfold keyswitchAll
  refine entered h _ ?_
  refine .check fun _ _ => ?_
  rw [show b.length = n from hb.bodies]
  refine (count_charges .keyswitch n).bind_free fun _ _ => ?_
  refine .check fun messages hdecoded => ?_
  have hmessages := decodeAll_length hb hdecoded
  have batch := encryptBatch_charges (e := e) (messages.map Int.ofNat) .small b.place
  rwa [List.length_map, hmessages] at batch

omit h in
theorem bootstrapWith_charges (c : LweBlock) (table : Nat → Int) :
    Charges (Bill.of .bootstrap 1) Live (e.bootstrapWith c table) := by
  unfold bootstrapWith
  refine .check fun _ _ => ?_
  refine (count_charges .bootstrap 1).bind_free fun _ _ => ?_
  refine .check fun m _ => ?_
  exact encryptRow_charges _ .large

theorem bootstrap_charges (c : LweBlock) (lookup : DigitLookup) :
    Charges (Bill.of .bootstrap 1) Live (e.bootstrap c lookup) := by
  unfold bootstrap
  refine enteredWith h _ _ ?_
  refine .check fun table _ => ?_
  exact bootstrapWith_charges c _

omit h in
theorem tableOutputs_length {lookups : List DigitLookup} {messages : List Nat}
    {outputs : List Int} (houtputs : e.tableOutputs lookups messages = .ok outputs) :
    outputs.length = min lookups.length messages.length := by
  unfold tableOutputs at houtputs
  have each := (mapM_eq_ok houtputs).length_eq
  rw [← each, List.length_zip]

theorem bootstrapAll_charges {n : Nat} {b : LweBatch} (hb : Filled n b)
    (lookups : List DigitLookup) :
    Charges (Bill.of .bootstrap n) (Filled n) (e.bootstrapAll b lookups) := by
  unfold bootstrapAll
  refine entered h _ ?_
  refine .check fun _ _ => ?_
  rw [show b.length = n from hb.bodies]
  split
  · exact .fail _
  · rename_i count
    refine (count_charges .bootstrap n).bind_free fun _ _ => ?_
    refine .check fun messages hdecoded => ?_
    have hmessages := decodeAll_length hb hdecoded
    refine .check fun outputs hlookups => ?_
    have houtputs := tableOutputs_length hlookups
    split
    · exact .fail _
    · have all : outputs.length = n := by omega
      have batch := encryptBatch_charges (e := e) outputs .large b.place
      rwa [all] at batch

theorem evaluateTable_charges (c : LweBlock) (lookup : DigitLookup) :
    Charges (Bill.refreshes 1) Live (e.evaluateTable c lookup) := by
  unfold evaluateTable
  refine enteredWith h _ _ ?_
  exact (keyswitch_charges h c).bind fun switched _ => bootstrap_charges h switched lookup

theorem upload_charges (cs : List LweBlock) : Charges 0 (Filled cs.length) (e.upload cs) := by
  unfold upload
  refine entered h _ ?_
  split
  · exact .fail _
  · split
    · split
      · exact .fail _
      · split
        · exact .fail _
        · refine .done ?_
          constructor <;> simp [LweBatch.ofRows]
    · exact .fail _

theorem download_charges {n : Nat} {b : LweBatch} (hb : Filled n b) :
    Charges 0 (fun cs => cs.length = n ∧ ∀ c ∈ cs, Live c) (e.download b) := by
  unfold download
  refine entered h _ ?_
  split
  · exact .fail _
  · refine .done ⟨by simp [hb.bodies, hb.masks], fun c hc => ?_⟩
    obtain ⟨⟨mask, body⟩, _, rfl⟩ := List.mem_map.1 hc
    rfl

/-! ### Tables on blocks -/

theorem applyTable_charges (c : LweBlock) (table : Nat → Int) :
    Charges (if c.trivial then 0 else Bill.refreshes 1) (fun c' => c'.trivial = c.trivial)
      (e.applyTable c table) := by
  unfold applyTable
  cases hc : c.trivial with
  | true =>
      exact .check fun message _ => .done rfl
  | false =>
      exact (keyswitch_charges h c).bind fun switched _ => bootstrapWith_charges switched table

theorem applyTable_live {c : LweBlock} (hc : Live c) (table : Nat → Int) :
    Charges (Bill.refreshes 1) Live (e.applyTable c table) := by
  have charges := applyTable_charges h c table
  rwa [show c.trivial = false from hc] at charges

theorem applyTable_public {c : LweBlock} (hc : c.trivial = true) (table : Nat → Int) :
    Charges 0 (fun c' => c'.trivial = true) (e.applyTable c table) := by
  have charges := applyTable_charges h c table
  rwa [hc] at charges

omit h in
theorem applyTables_live {a b : LweBlock} (ha : Live a) (f : Nat → Nat → Nat) :
    Charges (Bill.refreshes 1) Live (e.applyTables a b f) := by
  unfold applyTables
  refine .check fun x _ => ?_
  refine .check fun y _ => ?_
  rw [show a.trivial = false from ha]
  exact (count_charges .keyswitch 1).bind fun _ _ =>
    (count_charges .bootstrap 1).bind_free fun _ _ => encryptRow_charges _ .large

omit h in
theorem applyTables_public {a b : LweBlock} (ha : a.trivial = true) (hb : b.trivial = true)
    (f : Nat → Nat → Nat) : Charges 0 (fun c => c.trivial = true) (e.applyTables a b f) := by
  unfold applyTables
  refine .check fun x _ => ?_
  refine .check fun y _ => ?_
  rw [ha, hb]
  exact .done rfl

/-! ### Radix arithmetic -/

omit h in
theorem trivial_of_addUnderOneKey {a b c : LweBlock} (hc : addUnderOneKey a b = .ok c) :
    c.trivial = (a.trivial && b.trivial) := by
  unfold addUnderOneKey at hc
  obtain ⟨_, _, hc⟩ := bind_eq_ok hc
  have sum := mapError_eq_ok hc
  unfold addCiphertexts at sum
  simp only at sum
  split at sum
  · cases sum
    rfl
  · obtain ⟨_, _, sum⟩ := bind_eq_ok sum
    cases sum
    rfl

omit h in
theorem addWithCarry_public {a b sum : LweBlock} {carry? : Option LweBlock}
    (ha : a.trivial = true) (hb : b.trivial = true)
    (hcarry : ∀ c ∈ carry?, c.trivial = true) (hsum : addWithCarry a b carry? = .ok sum) :
    sum.trivial = true := by
  unfold addWithCarry at hsum
  obtain ⟨first, hfirst, hsum⟩ := bind_eq_ok hsum
  have public_ := trivial_of_addUnderOneKey hfirst
  rw [ha, hb, Bool.and_self] at public_
  cases carry? with
  | none =>
      cases hsum
      exact public_
  | some carry =>
      rw [trivial_of_addUnderOneKey hsum, public_, hcarry carry rfl, Bool.and_self]

omit h in
theorem addWithCarry_live {a b sum : LweBlock} {carry? : Option LweBlock}
    (hlive : Live a ∨ Live b ∨ ∃ c ∈ carry?, Live c) (hsum : addWithCarry a b carry? = .ok sum) :
    Live sum := by
  unfold addWithCarry at hsum
  obtain ⟨first, hfirst, hsum⟩ := bind_eq_ok hsum
  have flag := trivial_of_addUnderOneKey hfirst
  unfold Live at hlive ⊢
  cases carry? with
  | none =>
      cases hsum
      rw [flag]
      rcases hlive with ha | hb | ⟨c, hc, _⟩
      · rw [ha, Bool.false_and]
      · rw [hb, Bool.and_false]
      · cases hc
  | some carry =>
      rw [trivial_of_addUnderOneKey hsum, flag]
      rcases hlive with ha | hb | ⟨c, hc, hlive⟩
      · rw [ha, Bool.false_and, Bool.false_and]
      · rw [hb, Bool.and_false, Bool.false_and]
      · cases hc
        rw [hlive, Bool.and_false]

/-- Public blocks are added for nothing. -/
theorem addPairs_public {carry? : Option LweBlock} {pairs : List (LweBlock × LweBlock)}
    (hcarry : ∀ c ∈ carry?, c.trivial = true)
    (hpairs : ∀ x ∈ pairs, x.1.trivial = true ∧ x.2.trivial = true) :
    Charges 0 (fun cs => cs.length = pairs.length ∧ ∀ c ∈ cs, c.trivial = true)
      (e.addPairs carry? pairs) := by
  induction pairs generalizing carry? with
  | nil => exact .done ⟨rfl, by simp⟩
  | cons x rest ih =>
      obtain ⟨a, b⟩ := x
      obtain ⟨ha, hb⟩ := hpairs (a, b) (by simp)
      unfold addPairs
      refine .check fun sum hsum => ?_
      have public_ := addWithCarry_public ha hb hcarry hsum
      refine (applyTable_public h public_ _).free_bind fun digit hdigit => ?_
      refine (applyTable_public h public_ _).free_bind fun carry hcarry => ?_
      have carried : ∀ c ∈ some carry, c.trivial = true := by simpa using hcarry
      refine (ih carried fun y hy => hpairs y (List.mem_cons_of_mem _ hy)).free_bind
        fun digits hdigits => ?_
      exact .done ⟨by simp [hdigits.1], List.forall_mem_cons.2 ⟨hdigit, hdigits.2⟩⟩

/-- From the first live block on, every block takes two tables: one for the digit, one for the
carry. -/
theorem addPairs_live {carry? : Option LweBlock} {pairs : List (LweBlock × LweBlock)}
    (hlive : ∀ x ∈ pairs.head?, Live x.1 ∨ Live x.2 ∨ ∃ c ∈ carry?, Live c) :
    Charges (Bill.refreshes (2 * pairs.length))
      (fun cs => cs.length = pairs.length ∧ ∀ c ∈ cs, Live c) (e.addPairs carry? pairs) := by
  induction pairs generalizing carry? with
  | nil =>
      rw [List.length_nil, Nat.mul_zero, Bill.refreshes_zero]
      exact .done ⟨rfl, by simp⟩
  | cons x rest ih =>
      obtain ⟨a, b⟩ := x
      have two : Bill.refreshes (2 * (rest.length + 1)) =
          Bill.refreshes 1 + (Bill.refreshes 1 + Bill.refreshes (2 * rest.length)) := by
        rw [← Bill.refreshes_add, ← Bill.refreshes_add]
        congr 1
        omega
      rw [List.length_cons, two]
      unfold addPairs
      refine .check fun sum hsum => ?_
      have live := addWithCarry_live (hlive (a, b) rfl) hsum
      refine (applyTable_live h live _).bind fun digit hdigit => ?_
      refine (applyTable_live h live _).bind fun carry hcarry => ?_
      -- the carry of a live sum is live, and so is every sum that it is added to
      have carried : ∀ x ∈ rest.head?, Live x.1 ∨ Live x.2 ∨ ∃ c ∈ some carry, Live c :=
        fun _ _ => Or.inr (Or.inr ⟨carry, rfl, hcarry⟩)
      refine (ih carried).bind_free fun digits hdigits => ?_
      exact .done ⟨by simp [hdigits.1], List.forall_mem_cons.2 ⟨hdigit, hdigits.2⟩⟩

/-- An integer of public digits. -/
structure PublicInteger (width : Nat) (x : RadixInteger LweBlock) : Prop where
  length_eq : x.blocks.length = width
  digits : ∀ c ∈ x.blocks, c.trivial = true

/-- An integer of live digits. -/
structure LiveInteger (width : Nat) (x : RadixInteger LweBlock) : Prop where
  length_eq : x.blocks.length = width
  digits : ∀ c ∈ x.blocks, Live c

/-- The least digit is live. -/
def LeadsLive (x : RadixInteger LweBlock) : Prop := ∀ c ∈ x.blocks.head?, Live c

omit h in
theorem LiveInteger.leads {width : Nat} {x : RadixInteger LweBlock} (hx : LiveInteger width x) :
    LeadsLive x :=
  fun c hc => hx.digits c (List.mem_of_mem_head? hc)

theorem publicZero_charges (width : Int) :
    Charges 0 (PublicInteger width.toNat) (e.publicZero width) := by
  unfold publicZero publicZeros
  refine entered h _ (.done ⟨by simp, fun c hc => ?_⟩)
  rw [(List.mem_replicate.1 hc).2]
  rfl

/-- Public zeros are added behind the digits. -/
theorem widen_charges (x : RadixInteger LweBlock) (width : Int) :
    Charges 0 (fun y => y.blocks.length = width.toNat ∧
      ∃ zeros, (∀ c ∈ zeros, c.trivial = true) ∧ y.blocks = x.blocks ++ zeros)
      (e.widen x width) := by
  unfold widen
  refine entered h _ ?_
  split
  · exact .fail _
  · rename_i hwide
    refine .done ⟨?_, _, fun c hc => ?_, rfl⟩
    · unfold publicZeros RadixInteger.width at *
      rw [List.length_append, List.length_replicate]
      omega
    · rw [(List.mem_replicate.1 hc).2]
      rfl

theorem add_public {width : Nat} {x y : RadixInteger LweBlock} (hx : PublicInteger width x)
    (hy : PublicInteger width y) : Charges 0 (PublicInteger width) (e.add x y) := by
  unfold add
  refine entered h _ ?_
  split
  · exact .fail _
  · have pairs : ∀ z ∈ x.blocks.zip y.blocks, z.1.trivial = true ∧ z.2.trivial = true :=
      fun z hz => ⟨hx.digits _ (List.of_mem_zip hz).1, hy.digits _ (List.of_mem_zip hz).2⟩
    refine (addPairs_public h (by simp) pairs).free_bind fun blocks hblocks => .done ⟨?_, ?_⟩
    · rw [hblocks.1, List.length_zip, hx.length_eq, hy.length_eq, Nat.min_self]
    · exact hblocks.2

/-- If the least digit of one of two integers is live, all digits of their sum are, at two tables a
digit. -/
theorem add_live {width : Nat} {x y : RadixInteger LweBlock} (hx : x.blocks.length = width)
    (hy : y.blocks.length = width) (hlive : LeadsLive x ∨ LeadsLive y) :
    Charges (Bill.refreshes (2 * width)) (LiveInteger width) (e.add x y) := by
  have count : (x.blocks.zip y.blocks).length = width := by
    rw [List.length_zip, hx, hy, Nat.min_self]
  have leads : ∀ z ∈ (x.blocks.zip y.blocks).head?,
      Live z.1 ∨ Live z.2 ∨ ∃ c ∈ (none : Option LweBlock), Live c := by
    intro z hz
    unfold LeadsLive at hlive
    generalize x.blocks = as at hz hlive
    generalize y.blocks = bs at hz hlive
    cases as with
    | nil => cases hz
    | cons a as =>
        cases bs with
        | nil => cases hz
        | cons b bs =>
            cases hz
            exact hlive.imp (fun hlive => hlive a rfl) fun hlive => Or.inl (hlive b rfl)
  unfold add
  refine entered h _ ?_
  split
  · exact .fail _
  · have added := addPairs_live h leads
    rw [count] at added
    exact added.bind_free fun blocks hblocks => .done ⟨hblocks.1, hblocks.2⟩

/-! ### Comparison -/

theorem comparePairs_public {found? : Option LweBlock} {pairs : List (LweBlock × Int)}
    (hfound : ∀ c ∈ found?, c.trivial = true) (hpairs : ∀ x ∈ pairs, x.1.trivial = true) :
    Charges 0 (fun found? => ∀ c ∈ found?, c.trivial = true) (e.comparePairs found? pairs) := by
  induction pairs generalizing found? with
  | nil => exact .done hfound
  | cons x rest ih =>
      obtain ⟨block, digit⟩ := x
      have tail : ∀ x ∈ rest, x.1.trivial = true :=
        fun y hy => hpairs y (List.mem_cons_of_mem _ hy)
      unfold comparePairs
      refine (applyTable_public h (hpairs (block, digit) (by simp)) _).free_bind
        fun here hhere => ?_
      cases found? with
      | none => exact ih (by simpa using hhere) tail
      | some below =>
          refine (applyTables_public hhere (hfound below rfl) _).free_bind fun found hfound => ?_
          exact ih (by simpa using hfound) tail

/-- Every live block takes a table of its own and one with what has been found below it. -/
theorem comparePairs_live {below : LweBlock} {pairs : List (LweBlock × Int)}
    (hbelow : Live below) (hpairs : ∀ x ∈ pairs, Live x.1) :
    Charges (Bill.refreshes (2 * pairs.length)) (fun found? => ∀ c ∈ found?, Live c)
      (e.comparePairs (some below) pairs) := by
  induction pairs generalizing below with
  | nil =>
      rw [List.length_nil, Nat.mul_zero, Bill.refreshes_zero]
      refine .done fun c hc => ?_
      cases hc
      exact hbelow
  | cons x rest ih =>
      obtain ⟨block, digit⟩ := x
      have two : Bill.refreshes (2 * (rest.length + 1)) =
          Bill.refreshes 1 + (Bill.refreshes 1 + Bill.refreshes (2 * rest.length)) := by
        rw [← Bill.refreshes_add, ← Bill.refreshes_add]
        congr 1
        omega
      rw [List.length_cons, two]
      unfold comparePairs
      refine (applyTable_live h (hpairs (block, digit) (by simp)) _).bind fun here hhere => ?_
      refine (applyTables_live hhere _).bind fun found hfound => ?_
      exact ih hfound fun y hy => hpairs y (List.mem_cons_of_mem _ hy)

theorem atLeast_public {width : Nat} {x : RadixInteger LweBlock} (hx : PublicInteger width x)
    (scalar : Int) : Charges 0 (fun _ => True) (e.atLeast x scalar) := by
  unfold atLeast
  refine entered h _ ?_
  split
  · exact .done trivial
  · split
    · exact .done trivial
    · have pairs : ∀ z ∈ x.blocks.zip (digits e.messageModulus x.width scalar),
          z.1.trivial = true := fun z hz => hx.digits _ (List.of_mem_zip hz).1
      refine (comparePairs_public h (by simp) pairs).free_bind fun found? hfound => ?_
      split
      · exact (applyTable_public h (hfound _ rfl) _).mono fun _ _ => trivial
      · exact .fail _

/-- Comparing live digits takes two tables a digit, unless the scalar is beyond all sums or not
positive. -/
theorem atLeast_live {width : Nat} {x : RadixInteger LweBlock} (hx : LiveInteger width x)
    (scalar : Int) :
    Charges (if 0 < scalar ∧ scalar < (e.messageModulus : Int) ^ width
        then Bill.refreshes (2 * width) else 0) (fun _ => True) (e.atLeast x scalar) := by
  have same : x.width = width := hx.length_eq
  unfold atLeast
  refine entered h _ ?_
  rw [same]
  by_cases hlow : scalar ≤ 0
  · rw [if_pos hlow, if_neg (by omega)]
    exact .done trivial
  · rw [if_neg hlow]
    by_cases hhigh : (e.messageModulus : Int) ^ width ≤ scalar
    · rw [if_pos hhigh, if_neg (by omega)]
      exact .done trivial
    · rw [if_neg hhigh, if_pos (by omega)]
      -- the least digit takes one table, every other one two, and the truth value one
      have live : ∀ z ∈ x.blocks.zip (digits e.messageModulus width scalar), Live z.1 :=
        fun z hz => hx.digits _ (List.of_mem_zip hz).1
      have count : (x.blocks.zip (digits e.messageModulus width scalar)).length = width := by
        rw [List.length_zip, hx.length_eq, length_digits, Nat.min_self]
      generalize x.blocks.zip (digits e.messageModulus width scalar) = pairs at live count
      cases pairs with
      | nil => exact .fail _
      | cons z rest =>
          obtain ⟨block, digit⟩ := z
          have split_ : Bill.refreshes (2 * width) =
              Bill.refreshes 1 + Bill.refreshes (2 * rest.length) + Bill.refreshes 1 := by
            rw [← Bill.refreshes_add, ← Bill.refreshes_add, ← count, List.length_cons]
            congr 1
            omega
          rw [split_]
          unfold comparePairs
          refine Charges.bind ((applyTable_live h (live (block, digit) (by simp)) _).bind
            fun here hhere => comparePairs_live h hhere
              fun y hy => live y (List.mem_cons_of_mem _ hy)) fun found? hfound => ?_
          split
          · exact (applyTable_live h (hfound _ rfl) _).mono fun _ _ => trivial
          · exact .fail _

/-! ### Decryption -/

theorem decryptInteger_charges (x : RadixInteger LweBlock) :
    Charges 0 (fun _ => True) (e.decryptInteger x) := by
  have blocks : ∀ cs, Charges 0 (fun _ => True) (e.decryptBlocks cs) := by
    intro cs
    induction cs with
    | nil => exact .done trivial
    | cons c rest ih =>
        unfold decryptBlocks decrypt
        refine Charges.free_bind (P := fun _ => True) (entered h _ (.check fun _ _ =>
          .done trivial)) fun message _ => ?_
        exact ih.free_bind fun digits _ => .done trivial
  unfold decryptInteger
  exact entered h _ ((blocks x.blocks).free_bind fun digits _ => .done trivial)

end Unguarded

end SimulatedEngine

end SealedMatch
