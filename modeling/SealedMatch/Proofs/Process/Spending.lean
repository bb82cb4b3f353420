/-
Module: SealedMatch.Proofs.Process.Spending
Purpose: What a process spends, action by action, beside any other processes.
Trusted boundary: none
Main exports: Process.Spends, Process.Pays, Process.Spends.run, Process.always_iff_spends
-/
import Mathlib.Algebra.Group.Defs
import SealedMatch.Proofs.Process.Always

namespace SealedMatch

namespace Process

variable {σ ε ε' α β M : Type} [AddCommMonoid M] {G : M → σ → σ → Prop}

/-! ### Amounts

Others act between two actions of a process, so how the shared state has changed from its beginning
to its end says little about it. What each of its own actions changes can be added up, though. The
amounts are its own course's: they do not depend on what the actions find. -/

/-- Whatever states its actions find, every action of a process spends an amount, and changes the
state as the guarantee `G` says for that amount. The outcome has the property `Q`, which also speaks
of all that has been spent by then; `spent` is what had been spent before. -/
def Spends (G : M → σ → σ → Prop) (Q : M → Except ε α → Prop) : M → Process σ ε α → Prop
  | spent, done a => Q spent (.ok a)
  | spent, fail e => Q spent (.error e)
  | spent, step update next =>
    ∃ d, (∀ s, G d s (update s)) ∧ ∀ s, Spends G Q (spent + d) (next s)

/-- A process that cannot fail, with what it has spent in all. -/
def Pays (G : M → σ → σ → Prop) (Q : M → α → Prop) (spent : M) (p : Process σ ε α) : Prop :=
  p.Spends G (fun m r => ∃ a, r = .ok a ∧ Q m a) spent

variable {spent : M}

theorem spends_ofExcept {Q : M → Except ε α → Prop} {x : Except ε α} :
    (ofExcept x : Process σ ε α).Spends G Q spent ↔ Q spent x := by
  cases x with
  | ok a => exact Iff.rfl
  | error e => exact Iff.rfl

namespace Spends

theorem mono {P Q : M → Except ε α → Prop} {p : Process σ ε α} (hp : p.Spends G P spent)
    (h : ∀ m r, P m r → Q m r) : p.Spends G Q spent := by
  induction p generalizing spent with
  | done a => exact h _ _ hp
  | fail e => exact h _ _ hp
  | step update next ih =>
      obtain ⟨d, hupdate, hnext⟩ := hp
      exact ⟨d, hupdate, fun s => ih s (hnext s)⟩

/-- What was spent before does not matter for what follows. -/
theorem shift {Q : M → Except ε α → Prop} {p : Process σ ε α} (hp : p.Spends G Q spent)
    (before : M) :
    p.Spends G (fun m r => ∃ m', m = before + m' ∧ Q m' r) (before + spent) := by
  induction p generalizing spent with
  | done a => exact ⟨spent, rfl, hp⟩
  | fail e => exact ⟨spent, rfl, hp⟩
  | step update next ih =>
      obtain ⟨d, hupdate, hnext⟩ := hp
      refine ⟨d, hupdate, fun s => ?_⟩
      rw [add_assoc]
      exact ih s (hnext s)

/-- A process that is known from nothing spent is known from anything spent. -/
theorem rebase {Q : M → Except ε α → Prop} {p : Process σ ε α} (hp : p.Spends G Q 0) (before : M) :
    p.Spends G (fun m r => ∃ m', m = before + m' ∧ Q m' r) before := by
  have shifted := hp.shift before
  rwa [add_zero] at shifted

theorem bind {P : M → Except ε α → Prop} {Q : M → Except ε β → Prop} {p : Process σ ε α}
    {f : α → Process σ ε β} (hp : p.Spends G P spent)
    (hok : ∀ m a, P m (.ok a) → (f a).Spends G Q m)
    (herror : ∀ m e, P m (.error e) → Q m (.error e)) : (p.bind f).Spends G Q spent := by
  induction p generalizing spent with
  | done a => exact hok _ a hp
  | fail e => exact herror _ e hp
  | step update next ih =>
      obtain ⟨d, hupdate, hnext⟩ := hp
      exact ⟨d, hupdate, fun s => ih s (hnext s)⟩

theorem attempt {P : M → Except ε α → Prop} {Q : M → Except ε' (Except ε α) → Prop}
    {p : Process σ ε α} (hp : p.Spends G P spent) (hQ : ∀ m r, P m r → Q m (.ok r)) :
    (p.attempt : Process σ ε' (Except ε α)).Spends G Q spent := by
  induction p generalizing spent with
  | done a => exact hQ _ _ hp
  | fail e => exact hQ _ _ hp
  | step update next ih =>
      obtain ⟨d, hupdate, hnext⟩ := hp
      exact ⟨d, hupdate, fun s => ih s (hnext s)⟩

theorem mapError {P : M → Except ε α → Prop} {Q : M → Except ε' α → Prop} {p : Process σ ε α}
    {f : ε → ε'} (hp : p.Spends G P spent) (hQ : ∀ m r, P m r → Q m (r.mapError f)) :
    (p.mapError f).Spends G Q spent := by
  induction p generalizing spent with
  | done a => exact hQ _ _ hp
  | fail e => exact hQ _ _ hp
  | step update next ih =>
      obtain ⟨d, hupdate, hnext⟩ := hp
      exact ⟨d, hupdate, fun s => ih s (hnext s)⟩

/-- What is known of the outcome for other reasons may be added. -/
theorem and_always {H : σ → σ → Prop} {P : M → Except ε α → Prop} {Q : Except ε α → Prop}
    {p : Process σ ε α} (hp : p.Spends G P spent) (hq : p.Always H Q) :
    p.Spends G (fun m r => P m r ∧ Q r) spent := by
  induction p generalizing spent with
  | done a => exact ⟨hp, hq⟩
  | fail e => exact ⟨hp, hq⟩
  | step update next ih =>
      obtain ⟨d, hupdate, hnext⟩ := hp
      exact ⟨d, hupdate, fun s => ih s (hnext s) (hq.2 s)⟩

/-- Where amounts show in a view of the state, a process that runs alone moves the view by what it
spends. -/
theorem run {view : σ → M} {Q : M → Except ε α → Prop} {p : Process σ ε α}
    (hp : p.Spends (fun d s s' => view s' = view s + d) Q spent) (s : σ) :
    ∃ d, view (p.run s).2 = view s + d ∧ Q (spent + d) (p.run s).1 := by
  induction p generalizing spent s with
  | done a => exact ⟨0, (add_zero _).symm, by rw [add_zero]; exact hp⟩
  | fail e => exact ⟨0, (add_zero _).symm, by rw [add_zero]; exact hp⟩
  | step update next ih =>
      obtain ⟨d, hupdate, hnext⟩ := hp
      obtain ⟨rest, hview, hQ⟩ := ih s (hnext s) (update s)
      refine ⟨d + rest, ?_, ?_⟩
      · rw [run_step, hview, hupdate, add_assoc]
      · rw [run_step, ← add_assoc]
        exact hQ

end Spends

/-- A process whose actions change nothing that counts spends nothing. -/
theorem Always.spends_zero {H : σ → σ → Prop} {Q : Except ε α → Prop} {p : Process σ ε α}
    (hp : p.Always H Q) (hG : ∀ s s', H s s' → G 0 s s') (m : M) :
    p.Spends G (fun m' r => m' = m ∧ Q r) m := by
  induction p with
  | done a => exact ⟨rfl, hp⟩
  | fail e => exact ⟨rfl, hp⟩
  | step update next ih =>
      refine ⟨0, fun s => hG _ _ (hp.1 s), fun s => ?_⟩
      rw [add_zero]
      exact ih s (hp.2 s)

/-- Where amounts do not matter, only guarantee and outcome are left. -/
theorem always_iff_spends {H : σ → σ → Prop} {Q : Except ε α → Prop} {p : Process σ ε α}
    {m : M} : p.Spends (fun _ : M => H) (fun _ r => Q r) m ↔ p.Always H Q := by
  refine ⟨fun hp => ?_, fun hp => (hp.spends_zero (fun _ _ hH => hH) m).mono fun _ _ hr => hr.2⟩
  induction p generalizing m with
  | done a => exact hp
  | fail e => exact hp
  | step update next ih =>
      obtain ⟨d, hupdate, hnext⟩ := hp
      exact ⟨hupdate, fun s => ih s (hnext s)⟩

theorem yields_iff_pays {H : σ → σ → Prop} {Q : α → Prop} {p : Process σ ε α} {m : M} :
    p.Pays (fun _ : M => H) (fun _ a => Q a) m ↔ p.Yields H Q :=
  always_iff_spends

namespace Pays

theorem done {Q : M → α → Prop} {a : α} (h : Q spent a) :
    (Process.done a : Process σ ε α).Pays G Q spent :=
  ⟨a, rfl, h⟩

theorem mono {P Q : M → α → Prop} {p : Process σ ε α} (hp : p.Pays G P spent)
    (h : ∀ m a, P m a → Q m a) : p.Pays G Q spent := by
  refine Spends.mono hp ?_
  rintro m _ ⟨a, rfl, ha⟩
  exact ⟨a, rfl, h m a ha⟩

theorem bind {P : M → α → Prop} {Q : M → β → Prop} {p : Process σ ε α} {f : α → Process σ ε β}
    (hp : p.Pays G P spent) (hf : ∀ m a, P m a → (f a).Pays G Q m) :
    (p.bind f).Pays G Q spent := by
  refine Spends.bind hp ?_ ?_
  · rintro m a ⟨b, hb, hP⟩
    cases hb
    exact hf m a hP
  · rintro m e ⟨b, hb, _⟩
    cases hb

/-- Without a failure there is nothing to reword. -/
theorem mapError {P : M → α → Prop} {p : Process σ ε α} (hp : p.Pays G P spent) (f : ε → ε') :
    (p.mapError f).Pays G P spent := by
  refine Spends.mapError hp ?_
  rintro m _ ⟨a, rfl, ha⟩
  exact ⟨a, rfl, ha⟩

end Pays

end Process

end SealedMatch
