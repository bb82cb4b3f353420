/-
Module: SealedMatch.Proofs.Process.Always
Purpose: What holds of a process whatever states its actions find, beside any other processes.
Trusted boundary: none
Main exports: Process.Always, Process.Yields, Process.Ensures, Process.Upfront, Process.Refines
-/
import Mathlib.Logic.Relation
import SealedMatch.Process.Basic
import SealedMatch.Proofs.Outcome

namespace SealedMatch

/-! ### Guarantee and outcome

A process that shares its state can rely on nothing about the state that its next action finds.
`Always` therefore quantifies over every state anew at every action. What it says of one process
survives any interleaving, which is why the schedules of workers need no case analysis later. -/

namespace Process

variable {σ ε ε' α β γ : Type}

/-- Whatever states its actions find, every action of a process keeps to the guarantee `G`, and its
outcome has the property `Q`. -/
def Always (G : σ → σ → Prop) (Q : Except ε α → Prop) : Process σ ε α → Prop
  | done a => Q (.ok a)
  | fail e => Q (.error e)
  | step update next => (∀ s, G s (update s)) ∧ ∀ s, Always G Q (next s)

variable {G : σ → σ → Prop}

@[simp] theorem ofExcept_ok_bind (a : α) (f : α → Process σ ε β) :
    (ofExcept (.ok a)).bind f = f a := rfl

@[simp] theorem ofExcept_error_bind (e : ε) (f : α → Process σ ε β) :
    (ofExcept (.error e)).bind f = fail e := rfl

theorem always_ofExcept {Q : Except ε α → Prop} {x : Except ε α} :
    (ofExcept x : Process σ ε α).Always G Q ↔ Q x := by
  cases x with
  | ok a => exact Iff.rfl
  | error e => exact Iff.rfl

/-- Both the guarantee and the property may be weakened. -/
theorem Always.mono {G' : σ → σ → Prop} {P Q : Except ε α → Prop} {p : Process σ ε α}
    (hp : p.Always G P) (hG : ∀ s s', G s s' → G' s s') (hQ : ∀ r, P r → Q r) :
    p.Always G' Q := by
  induction p with
  | done a => exact hQ _ hp
  | fail e => exact hQ _ hp
  | step update next ih => exact ⟨fun s => hG _ _ (hp.1 s), fun s => ih s (hp.2 s)⟩

/-- What a first part ends with is what the continuation may rely on. -/
theorem Always.bind {P : Except ε α → Prop} {Q : Except ε β → Prop} {p : Process σ ε α}
    {f : α → Process σ ε β} (hp : p.Always G P) (hok : ∀ a, P (.ok a) → (f a).Always G Q)
    (herror : ∀ e, P (.error e) → Q (.error e)) : (p.bind f).Always G Q := by
  induction p with
  | done a => exact hok a hp
  | fail e => exact herror e hp
  | step update next ih => exact ⟨hp.1, fun s => ih s (hp.2 s)⟩

theorem Always.attempt {P : Except ε α → Prop} {Q : Except ε' (Except ε α) → Prop}
    {p : Process σ ε α} (hp : p.Always G P) (hQ : ∀ r, P r → Q (.ok r)) :
    (p.attempt : Process σ ε' (Except ε α)).Always G Q := by
  induction p with
  | done a => exact hQ _ hp
  | fail e => exact hQ _ hp
  | step update next ih => exact ⟨hp.1, fun s => ih s (hp.2 s)⟩

/-- Alone, a process ends with an outcome of the property. -/
theorem Always.run {Q : Except ε α → Prop} {p : Process σ ε α} (hp : p.Always G Q) (s : σ) :
    Q (p.run s).1 := by
  induction p generalizing s with
  | done a => exact hp
  | fail e => exact hp
  | step update next ih => exact ih s (hp.2 s) (update s)

/-- Alone, a process takes the state along the guarantee. -/
theorem Always.run_state {Q : Except ε α → Prop} {p : Process σ ε α} (hp : p.Always G Q) (s : σ) :
    Relation.ReflTransGen G s (p.run s).2 := by
  induction p generalizing s with
  | done a => exact Relation.ReflTransGen.refl
  | fail e => exact Relation.ReflTransGen.refl
  | step update next ih =>
      have rest : Relation.ReflTransGen G (update s) (((next s).run (update s)).2) :=
        ih s (hp.2 s) (update s)
      exact Relation.ReflTransGen.head (hp.1 s) rest

/-! ### Processes that cannot fail -/

/-- Whatever states its actions find, a process ends with a result of the property. -/
def Yields (G : σ → σ → Prop) (Q : α → Prop) (p : Process σ ε α) : Prop :=
  p.Always G fun r => ∃ a, r = .ok a ∧ Q a

theorem Yields.done {Q : α → Prop} {a : α} (h : Q a) : (done a : Process σ ε α).Yields G Q :=
  ⟨a, rfl, h⟩

theorem Yields.ofExcept {Q : α → Prop} {x : Except ε α} {a : α} (hx : x = .ok a) (h : Q a) :
    (ofExcept x : Process σ ε α).Yields G Q := by
  subst hx
  exact Yields.done h

theorem Yields.act {Q : Unit → Prop} {update : σ → σ} (hG : ∀ s, G s (update s)) (h : Q ()) :
    (act update : Process σ ε Unit).Yields G Q :=
  ⟨hG, fun _ => ⟨(), rfl, h⟩⟩

theorem Yields.fetch {Q : α → Prop} {update : σ → σ} {view : σ → α} (hG : ∀ s, G s (update s))
    (h : ∀ s, Q (view s)) : (fetch update view : Process σ ε α).Yields G Q :=
  ⟨hG, fun s => ⟨view s, rfl, h s⟩⟩

theorem Yields.mono {P Q : α → Prop} {p : Process σ ε α} (hp : p.Yields G P)
    (h : ∀ a, P a → Q a) : p.Yields G Q := by
  refine Always.mono hp (fun _ _ hG => hG) ?_
  rintro _ ⟨a, rfl, ha⟩
  exact ⟨a, rfl, h a ha⟩

/-- What comes after a process that cannot fail decides the outcome. -/
theorem Yields.bind_always {P : α → Prop} {Q : Except ε β → Prop} {p : Process σ ε α}
    {f : α → Process σ ε β} (hp : p.Yields G P) (hf : ∀ a, P a → (f a).Always G Q) :
    (p.bind f).Always G Q := by
  refine Always.bind hp ?_ ?_
  · rintro a ⟨b, hb, hP⟩
    cases hb
    exact hf a hP
  · rintro e ⟨b, hb, _⟩
    cases hb

theorem Yields.bind {P : α → Prop} {Q : β → Prop} {p : Process σ ε α} {f : α → Process σ ε β}
    (hp : p.Yields G P) (hf : ∀ a, P a → (f a).Yields G Q) : (p.bind f).Yields G Q :=
  hp.bind_always hf

theorem Yields.attempt {P : α → Prop} {p : Process σ ε α} (hp : p.Yields G P) :
    (p.attempt : Process σ ε' (Except ε α)).Yields G fun r => ∃ a, r = .ok a ∧ P a :=
  Always.attempt hp fun r hr => ⟨r, rfl, hr⟩

/-- A process whose failures are results cannot fail. -/
theorem Yields.of_attempt (p : Process σ ε α) :
    (p.attempt : Process σ ε' (Except ε α)).Yields (fun _ _ => True) fun _ => True := by
  induction p with
  | done a => exact Yields.done trivial
  | fail e => exact Yields.done trivial
  | step update next ih => exact ⟨fun _ => trivial, ih⟩

/-- Without a failure there is nothing to reword. -/
theorem Yields.mapError {P : α → Prop} {p : Process σ ε α} (hp : p.Yields G P) (f : ε → ε') :
    (p.mapError f).Yields G P := by
  induction p with
  | done a =>
      obtain ⟨b, hb, hP⟩ := hp
      cases hb
      exact ⟨a, rfl, hP⟩
  | fail e =>
      obtain ⟨b, hb, _⟩ := hp
      cases hb
  | step update next ih => exact ⟨hp.1, fun s => ih s (hp.2 s)⟩

theorem Yields.run {Q : α → Prop} {p : Process σ ε α} (hp : p.Yields G Q) (s : σ) :
    ∃ a, (p.run s).1 = .ok a ∧ Q a :=
  Always.run hp s

/-! ### Processes that may fail -/

/-- What an outcome must be: a result of the property, or a failure although not all was `ready`. -/
def Meets (ready : Prop) (Q : α → Prop) : Except ε α → Prop
  | .ok a => Q a
  | .error _ => ¬ ready

/-- Whatever states its actions find, a process ends with a result of the property, or it fails
because not all was `ready`. -/
def Ensures (G : σ → σ → Prop) (ready : Prop) (Q : α → Prop) (p : Process σ ε α) : Prop :=
  p.Always G (Meets ready Q)

variable {ready : Prop}

theorem Ensures.done {Q : α → Prop} {a : α} (h : Q a) :
    (done a : Process σ ε α).Ensures G ready Q :=
  h

theorem Ensures.fail {Q : α → Prop} {e : ε} (h : ¬ ready) :
    (fail e : Process σ ε α).Ensures G ready Q :=
  h

theorem Ensures.ofExcept {Q : α → Prop} {x : Except ε α} (h : Meets ready Q x) :
    (ofExcept x : Process σ ε α).Ensures G ready Q :=
  always_ofExcept.2 h

theorem Ensures.ofExcept_ok {x : Except ε α} {a : α} (h : x = .ok a) :
    (Process.ofExcept x : Process σ ε α).Ensures G ready fun b => b = a := by
  subst h
  exact Ensures.done rfl

theorem Ensures.act {Q : Unit → Prop} {update : σ → σ} (hG : ∀ s, G s (update s)) (h : Q ()) :
    (act update : Process σ ε Unit).Ensures G ready Q :=
  ⟨hG, fun _ => h⟩

theorem Ensures.fetch {Q : α → Prop} {update : σ → σ} {view : σ → α} (hG : ∀ s, G s (update s))
    (h : ∀ s, Q (view s)) : (fetch update view : Process σ ε α).Ensures G ready Q :=
  ⟨hG, h⟩

theorem Yields.ensures {G' : σ → σ → Prop} {P Q : α → Prop} {p : Process σ ε α}
    (hp : p.Yields G' P) (hG : ∀ s s', G' s s' → G s s') (h : ∀ a, P a → Q a) :
    p.Ensures G ready Q := by
  refine Always.mono hp hG ?_
  rintro _ ⟨a, rfl, ha⟩
  exact h a ha

theorem Ensures.bind {P : α → Prop} {Q : β → Prop} {p : Process σ ε α} {f : α → Process σ ε β}
    (hp : p.Ensures G ready P) (hf : ∀ a, P a → (f a).Ensures G ready Q) :
    (p.bind f).Ensures G ready Q :=
  Always.bind hp hf fun _ he => he

theorem Ensures.attempt {P : α → Prop} {p : Process σ ε α} (hp : p.Ensures G ready P) :
    (p.attempt : Process σ ε' (Except ε α)).Ensures G ready (Meets ready P) :=
  Always.attempt hp fun _ hr => hr

theorem Ensures.run {Q : α → Prop} {p : Process σ ε α} (hp : p.Ensures G ready Q) (s : σ) :
    Meets ready Q (p.run s).1 :=
  Always.run hp s

/-! ### Processes that fail at once or not at all -/

/-- A process that may fail before its first action, but not after it. -/
def Upfront (G : σ → σ → Prop) (Q : α → Prop) (p : Process σ ε α) : Prop :=
  (∃ e, p = .fail e) ∨ p.Yields G Q

theorem Upfront.fail {Q : α → Prop} (e : ε) : (fail e : Process σ ε α).Upfront G Q :=
  .inl ⟨e, rfl⟩

theorem Yields.upfront {Q : α → Prop} {p : Process σ ε α} (hp : p.Yields G Q) : p.Upfront G Q :=
  .inr hp

/-- A check is no action. -/
theorem Upfront.check {Q : β → Prop} {x : Except ε α} {f : α → Process σ ε β}
    (hf : ∀ a, x = .ok a → (f a).Upfront G Q) : ((ofExcept x).bind f).Upfront G Q := by
  cases x with
  | ok a => exact hf a rfl
  | error e => exact .fail e

theorem Upfront.bind {P : α → Prop} {Q : β → Prop} {p : Process σ ε α} {f : α → Process σ ε β}
    (hp : p.Upfront G P) (hf : ∀ a, P a → (f a).Yields G Q) : (p.bind f).Upfront G Q := by
  rcases hp with ⟨e, rfl⟩ | hp
  · exact .fail e
  · exact (hp.bind hf).upfront

theorem Upfront.ok {Q : α → Prop} {p : Process σ ε α} (hp : p.Upfront G Q) {s s' : σ} {a : α}
    (h : p.run s = (.ok a, s')) : Q a := by
  rcases hp with ⟨e, rfl⟩ | hp
  · cases h
  · obtain ⟨b, hb, hQ⟩ := hp.run s
    rw [h] at hb
    cases hb
    exact hQ

/-- Alone, such a process leaves the state as it was if it fails. -/
theorem Upfront.unchanged {Q : α → Prop} {p : Process σ ε α} (hp : p.Upfront G Q) {s s' : σ}
    {e : ε} (h : p.run s = (.error e, s')) : s' = s := by
  rcases hp with ⟨e', rfl⟩ | hp
  · cases h
    rfl
  · obtain ⟨a, ha, _⟩ := hp.run s
    rw [h] at ha
    cases ha

end Process

/-! ### Refinement

A process refines a known outcome if it ends alike whatever states it finds: with the same failure,
or with results in a relation. -/

namespace Process

variable {σ ε ε' α β γ δ : Type} {G : σ → σ → Prop} {R : α → β → Prop} {S : γ → δ → Prop}

/-- Whatever states it finds, a process ends as it is known to. -/
def Refines (G : σ → σ → Prop) (R : α → β → Prop) (p : Process σ ε α) (y : Except ε β) : Prop :=
  p.Always G fun r => Agree R r y

theorem Refines.done {a : α} {b : β} (h : R a b) :
    Refines G R (done a : Process σ ε α) (.ok b) :=
  .ok h

theorem Refines.fail (e : ε) : Refines G R (fail e : Process σ ε α) (.error e) :=
  .error e

theorem Refines.ofExcept {x : Except ε α} {y : Except ε β} (h : Agree R x y) :
    Refines G R (ofExcept x : Process σ ε α) y := by
  unfold Refines
  rw [always_ofExcept]
  exact h

/-- Where the other side's result is used, it may be remembered where it comes from. -/
theorem Refines.recall {p : Process σ ε α} {y : Except ε β} (h : Refines G R p y) :
    Refines G (fun a b => R a b ∧ y = .ok b) p y := by
  apply Always.mono h (fun _ _ hG => hG)
  intro r hr
  cases hr with
  | ok related => exact .ok ⟨related, rfl⟩
  | error e => exact .error e

/-- Sequences refine each other part by part. -/
theorem Refines.bind {p : Process σ ε α} {y : Except ε β} {f : α → Process σ ε γ}
    {g : β → Except ε δ} (h : Refines G R p y) (hf : ∀ a b, R a b → Refines G S (f a) (g b)) :
    Refines G S (p.bind f) (y >>= g) := by
  refine Always.bind h ?_ ?_
  · intro a ha
    cases ha with
    | ok related => exact hf _ _ related
  · intro e he
    cases he with
    | error e => exact .error e

/-- The other side may go on to compute something of its result. -/
theorem Refines.map_right {R : α → γ → Prop} {p : Process σ ε α} {y : Except ε β} {f : β → γ}
    (h : Refines G (fun a b => R a (f b)) p y) : Refines G R p (y >>= fun b => pure (f b)) := by
  apply Always.mono h (fun _ _ hG => hG)
  intro r hr
  cases hr with
  | ok related => exact .ok related
  | error e => exact .error e

/-- Where both sides begin with one outcome, the rest may rely on its being a result. -/
theorem Refines.bind_ofExcept {x : Except ε α} {f : α → Process σ ε γ} {g : α → Except ε δ}
    (hf : ∀ a, x = .ok a → Refines G S (f a) (g a)) :
    Refines G S ((Process.ofExcept x).bind f) (x >>= g) := by
  cases x with
  | ok a => exact hf a rfl
  | error e => exact .fail e

/-- Actions of which the other side knows nothing may come first. -/
theorem Yields.bind_refines {p : Process σ ε α} {P : α → Prop} {f : α → Process σ ε γ}
    {y : Except ε δ} (hp : p.Yields G P) (hf : ∀ a, P a → Refines G S (f a) y) :
    Refines G S (p.bind f) y :=
  hp.bind_always hf

/-- A process that cannot fail may follow without a counterpart. -/
theorem Refines.then_yields {Q : γ → Prop} {p : Process σ ε α} {y : Except ε β}
    {f : α → Process σ ε γ} (h : Refines G R p y) (hf : ∀ a b, R a b → (f a).Yields G Q) :
    Refines G (fun c _ => Q c) (p.bind f) y := by
  refine Always.bind h ?_ ?_
  · intro a ha
    cases ha with
    | ok related =>
        refine Always.mono (hf _ _ related) (fun _ _ hG => hG) ?_
        rintro _ ⟨c, rfl, hc⟩
        exact .ok hc
  · intro e he
    cases he with
    | error e => exact .error e

theorem Refines.attempt {p : Process σ ε α} {y : Except ε β} (h : Refines G R p y) :
    Refines G (Agree R) (p.attempt : Process σ ε' (Except ε α)) (.ok y) :=
  Always.attempt h fun _ hr => .ok hr

/-- A process that refines a result cannot fail. -/
theorem Refines.yields {p : Process σ ε α} {y : Except ε β} {b : β} (h : Refines G R p y)
    (hy : y = .ok b) : p.Yields G fun a => R a b := by
  subst hy
  exact Always.mono h (fun _ _ hG => hG) fun _ hr => hr.exists_ok

theorem Yields.refines {p : Process σ ε α} {b : β} (h : p.Yields G fun a => R a b) :
    Refines G R p (.ok b) := by
  refine Always.mono h (fun _ _ hG => hG) ?_
  rintro _ ⟨a, rfl, ha⟩
  exact .ok ha

/-! ### Processes without a state -/

/-- How a process without a state ends. -/
def outcome (q : Process Unit ε β) : Except ε β := (q.run ()).1

@[simp] theorem outcome_done (b : β) : (done b : Process Unit ε β).outcome = .ok b := rfl

@[simp] theorem outcome_fail (e : ε) : (fail e : Process Unit ε β).outcome = .error e := rfl

@[simp] theorem outcome_ofExcept (x : Except ε β) :
    (ofExcept x : Process Unit ε β).outcome = x := by
  cases x with
  | ok b => rfl
  | error e => rfl

@[simp] theorem outcome_bind (q : Process Unit ε β) (g : β → Process Unit ε δ) :
    (q.bind g).outcome = q.outcome >>= fun b => (g b).outcome := by
  unfold outcome
  rw [run_bind]
  rcases q.run () with ⟨_ | b, s⟩
  · rfl
  · rfl

@[simp] theorem outcome_attempt (q : Process Unit ε β) :
    (q.attempt : Process Unit ε' (Except ε β)).outcome = .ok q.outcome := by
  unfold outcome
  rw [run_attempt]

end Process

end SealedMatch
