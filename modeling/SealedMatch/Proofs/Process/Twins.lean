/-
Module: SealedMatch.Proofs.Process.Twins
Purpose: Processes that act in lock step, whatever they come to.
Trusted boundary: none
Main exports: Process.Delivers, Process.Twins, Process.Twins.run, Process.Twins.gather
-/
import SealedMatch.Proofs.Process.Interleave

namespace SealedMatch

namespace Process

variable {σ ε ε' α β γ δ : Type}

/-! ### Results of a kind -/

/-- Whatever states its actions find, a process fails or ends with a result of the property. -/
def Delivers (P : α → Prop) (p : Process σ ε α) : Prop :=
  p.Always (fun _ _ => True) (Settles P fun _ => True)

section Delivers

variable {P : α → Prop} {Q : β → Prop} {p : Process σ ε α} {f : α → Process σ ε β}

theorem Delivers.done {a : α} (h : P a) : (Process.done a : Process σ ε α).Delivers P := h

theorem Delivers.fail (e : ε) : (Process.fail e : Process σ ε α).Delivers P := trivial

theorem Delivers.mono {P' : α → Prop} (hp : p.Delivers P) (h : ∀ a, P a → P' a) :
    p.Delivers P' := by
  refine Always.mono hp (fun _ _ hG => hG) fun r hr => ?_
  cases r with
  | ok a => exact h a hr
  | error e => trivial

theorem Delivers.bind (hp : p.Delivers P) (hf : ∀ a, P a → (f a).Delivers Q) :
    (p.bind f).Delivers Q :=
  Always.bind hp hf fun _ _ => trivial

theorem Delivers.mapError (hp : p.Delivers P) (g : ε → ε') : (p.mapError g).Delivers P := by
  induction p with
  | done a => exact hp
  | fail e => trivial
  | step update next ih => exact ⟨hp.1, fun s => ih s (hp.2 s)⟩

/-- Of any process it may be said that it fails or ends. -/
theorem Delivers.any (p : Process σ ε α) : p.Delivers fun _ => True := by
  induction p with
  | done a => trivial
  | fail e => trivial
  | step update next ih => exact ⟨fun _ => trivial, ih⟩

theorem Yields.delivers {G : σ → σ → Prop} (hp : p.Yields G P) : p.Delivers P := by
  refine Always.mono hp (fun _ _ _ => trivial) ?_
  rintro _ ⟨a, rfl, ha⟩
  exact ha

theorem Upfront.delivers {G : σ → σ → Prop} (hp : p.Upfront G P) : p.Delivers P := by
  rcases hp with ⟨e, rfl⟩ | hp
  · exact .fail e
  · exact hp.delivers

/-- What a process has spent may be left open. -/
theorem Spends.delivers {M : Type} [AddCommMonoid M] {G : M → σ → σ → Prop}
    {R : M → Except ε α → Prop} {spent : M} (hp : p.Spends G R spent)
    (h : ∀ m a, R m (.ok a) → P a) : p.Delivers P := by
  induction p generalizing spent with
  | done a => exact h spent a hp
  | fail e => trivial
  | step update next ih =>
      obtain ⟨d, _, hnext⟩ := hp
      exact ⟨fun _ => trivial, fun s => ih s (hnext s)⟩

end Delivers

/-! ### Lock step -/

/-- Two processes perform the same actions in the same states, and then end alike: with the same
failure, or with results in a relation. -/
inductive Twins (R : α → β → Prop) : Process σ ε α → Process σ ε β → Prop where
  | done {a : α} {b : β} (related : R a b) : Twins R (.done a) (.done b)
  | fail (e : ε) : Twins R (.fail e) (.fail e)
  | step (update : σ → σ) {next : σ → Process σ ε α} {next' : σ → Process σ ε β}
      (alike : ∀ s, Twins R (next s) (next' s)) : Twins R (.step update next) (.step update next')

namespace Twins

variable {R : α → β → Prop} {S : γ → δ → Prop} {p : Process σ ε α} {q : Process σ ε β}
  {f : α → Process σ ε γ} {g : β → Process σ ε δ}

theorem bind (h : Twins R p q) (hf : ∀ a b, R a b → Twins S (f a) (g b)) :
    Twins S (p.bind f) (q.bind g) := by
  induction h with
  | done related => exact hf _ _ related
  | fail e => exact .fail e
  | step update _ ih => exact .step update ih

theorem mapError (h : Twins R p q) (w : ε → ε') : Twins R (p.mapError w) (q.mapError w) := by
  induction h with
  | done related => exact .done related
  | fail e => exact .fail (w e)
  | step update _ ih => exact .step update ih

/-- What is known of the results on one side may be added. -/
theorem and_delivers {Q : β → Prop} (h : Twins R p q) (hq : q.Delivers Q) :
    Twins (fun a b => R a b ∧ Q b) p q := by
  induction h with
  | done related => exact .done ⟨related, hq⟩
  | fail e => exact .fail e
  | step update _ ih => exact .step update fun s => ih s (hq.2 s)

/-- Where both begin with one process, both have its result. -/
theorem same {P : α → Prop} {p : Process σ ε α} {f : α → Process σ ε γ} {g : α → Process σ ε δ}
    (hp : p.Delivers P) (hf : ∀ a, P a → Twins S (f a) (g a)) :
    Twins S (p.bind f) (p.bind g) := by
  induction p with
  | done a => exact hf a hp
  | fail e => exact .fail e
  | step update next ih => exact .step update fun s => ih s (hp.2 s)

/-- Alone, both end alike and leave the same state. -/
theorem run (h : Twins R p q) (s : σ) :
    Agree R (p.run s).1 (q.run s).1 ∧ (p.run s).2 = (q.run s).2 := by
  induction h generalizing s with
  | done related => exact ⟨.ok related, rfl⟩
  | fail e => exact ⟨.error e, rfl⟩
  | step update _ ih => exact ih s (update s)

end Twins

/-! ### Processes at once -/

/-- Without a failure, all results are of the kind. -/
theorem firstFailure_delivers {P : α → Prop} {rs : List (Except ε α)}
    (h : ∀ r ∈ rs, Settles P (fun _ => True) r) :
    (ofExcept (firstFailure rs) : Process σ ε (List α)).Delivers fun as => ∀ a ∈ as, P a := by
  cases hfirst : firstFailure rs with
  | error e => exact .fail e
  | ok as =>
      rw [eq_map_ok_of_firstFailure hfirst] at h
      exact Delivers.done fun a ha => h (.ok a) (List.mem_map_of_mem ha)

theorem interleave_delivers {P : α → Prop} {processes : List (Process σ ε α)}
    (h : ∀ p ∈ processes, p.Delivers P) (schedule : Schedule) :
    (interleave schedule processes : Process σ ε' _).Delivers fun rs =>
      ∀ r ∈ rs, Settles P (fun _ => True) r := by
  have together : (interleave schedule processes : Process σ ε' _).Yields _ _ :=
    interleave_always (R := fun r (_ : Process σ ε α) => Settles P (fun _ => True) r) schedule
      (List.forall₂_same.2 h)
  exact together.delivers.mono fun rs hrs => forall₂_left hrs fun _ _ hr => hr

/-! ### Consumers in lock step

The workers are the same on both sides, so a schedule gives both sides the same turns, as long as
the consumers act in lock step. -/

section Gather

variable {P : α → Prop} {R : β → γ → Prop} {receive : β → Nat × Except ε α → Process σ ε' β}
  {receive' : γ → Nat × Except ε α → Process σ ε' γ}

theorem settleTasks_delivers {tasks : List (Nat × Process σ ε α)}
    (h : ∀ t ∈ tasks, t.2.Delivers P) :
    (settleTasks tasks : Process σ ε' _).Delivers fun last =>
      ∀ a ∈ last, Settles P (fun _ => True) a.2 := by
  induction tasks with
  | nil => exact Delivers.done (by simp)
  | cons t rest ih =>
      obtain ⟨position, p⟩ := t
      have here : p.Delivers P := h (position, p) (by simp)
      have settled : (p.attempt : Process σ ε' _).Delivers (Settles P fun _ => True) :=
        Always.attempt here fun _ hr => hr
      unfold settleTasks
      refine settled.bind fun r hr => ?_
      refine (ih fun t ht => h t (List.mem_cons_of_mem _ ht)).bind fun rs hrs => ?_
      exact Delivers.done (List.forall_mem_cons.2 ⟨hr, hrs⟩)

variable (hreceive : ∀ b c a, R b c → Settles P (fun _ => True) a.2 →
  Twins R (receive b a) (receive' c a))

include hreceive

namespace Twins

theorem consumeAll {arrivals : List (Nat × Except ε α)}
    (h : ∀ a ∈ arrivals, Settles P (fun _ => True) a.2) {b : β} {c : γ} (hbc : R b c) :
    Twins R (Process.consumeAll receive b arrivals) (Process.consumeAll receive' c arrivals) := by
  induction arrivals generalizing b c with
  | nil => exact .done hbc
  | cons a rest ih =>
      have here := hreceive b c a hbc (h a (by simp))
      exact here.bind fun b c hbc => ih (fun a ha => h a (List.mem_cons_of_mem _ ha)) hbc

theorem gatherFrom (schedule : Schedule) {tasks : List (Nat × Process σ ε α)}
    (htasks : ∀ t ∈ tasks, t.2.Delivers P) {finished : List (Nat × Except ε α)}
    (hfinished : ∀ a ∈ finished, Settles P (fun _ => True) a.2) {consumer : Process σ ε' β}
    {consumer' : Process σ ε' γ} (hconsumer : Twins R consumer consumer') :
    Twins R (Process.gatherFrom receive schedule tasks finished consumer)
      (Process.gatherFrom receive' schedule tasks finished consumer') := by
  induction schedule generalizing tasks finished consumer consumer' with
  | nil =>
      unfold Process.gatherFrom
      refine Twins.same (settleTasks_delivers htasks) fun last hlast => ?_
      refine hconsumer.bind fun b c hbc => consumeAll hreceive ?_ hbc
      exact fun a ha => (List.mem_append.1 ha).elim (hfinished a) (hlast a)
  | cons turn turns ih =>
      cases turn with
      | zero =>
          cases hconsumer with
          | step update alike =>
              rw [gatherFrom_consumer_step, gatherFrom_consumer_step]
              exact .step update fun s => ih htasks hfinished (alike s)
          | fail e =>
              rw [gatherFrom_failed, gatherFrom_failed]
              exact ih htasks hfinished (.fail e)
          | done related =>
              cases finished with
              | nil =>
                  rw [gatherFrom_wait, gatherFrom_wait]
                  exact ih htasks hfinished (.done related)
              | cons a rest =>
                  rw [gatherFrom_take, gatherFrom_take]
                  exact ih htasks (fun a ha => hfinished a (List.mem_cons_of_mem _ ha))
                    (hreceive _ _ a related (hfinished a (by simp)))
      | succ i =>
          have fewer : ∀ t ∈ tasks.eraseIdx i, t.2.Delivers P := fun t ht =>
            htasks t (List.mem_of_mem_eraseIdx ht)
          -- a task that is over hands its outcome to both consumers
          have handOver : ∀ position (r : Except ε α), tasks[i]? = some (position, .ofExcept r) →
              Settles P (fun _ => True) r →
              Twins R (Process.gatherFrom receive ((i + 1) :: turns) tasks finished consumer)
                (Process.gatherFrom receive' ((i + 1) :: turns) tasks finished consumer') := by
            intro position r hi hr
            rw [gatherFrom_hand_over hi, gatherFrom_hand_over hi]
            refine ih fewer (fun a ha => ?_) hconsumer
            rcases List.mem_append.1 ha with ha | ha
            · exact hfinished a ha
            · rw [List.mem_singleton.1 ha]
              exact hr
          cases hi : tasks[i]? with
          | none =>
              rw [gatherFrom_absent hi, gatherFrom_absent hi]
              exact ih htasks hfinished hconsumer
          | some t =>
              obtain ⟨position, p⟩ := t
              have here : p.Delivers P := htasks _ (List.mem_of_getElem? hi)
              cases p with
              | done a => exact handOver position (.ok a) hi here
              | fail e => exact handOver position (.error e) hi trivial
              | step update next =>
                  rw [gatherFrom_task_step hi, gatherFrom_task_step hi]
                  refine .step update fun s => ih (fun t ht => ?_) hfinished hconsumer
                  rcases List.mem_or_eq_of_mem_set ht with ht | rfl
                  · exact htasks t ht
                  · exact here.2 s

theorem gather (schedule : Schedule) {tasks : List (Nat × Process σ ε α)}
    (htasks : ∀ t ∈ tasks, t.2.Delivers P) {b : β} {c : γ} (hbc : R b c) :
    Twins R (Process.gather receive schedule tasks b) (Process.gather receive' schedule tasks c) :=
  gatherFrom hreceive schedule htasks (by simp) (.done hbc)

end Twins

end Gather

end Process

end SealedMatch
