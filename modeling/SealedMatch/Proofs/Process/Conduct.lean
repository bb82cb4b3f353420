/-
Module: SealedMatch.Proofs.Process.Conduct
Purpose: What every action of a process does to the shared state, however the process ends.
Trusted boundary: none
Main exports: Process.Heeds, Process.Heeds.run, Process.Heeds.gather
-/
import SealedMatch.Proofs.Process.Interleave

namespace SealedMatch

namespace Process

variable {σ ε ε' α β : Type} {G : σ → σ → Prop}

/-- Whatever states its actions find, every action of a process keeps to the guarantee. Nothing is
said about its outcome. -/
def Heeds (G : σ → σ → Prop) (p : Process σ ε α) : Prop := p.Always G fun _ => True

namespace Heeds

variable {p : Process σ ε α} {f : α → Process σ ε β}

theorem done (a : α) : (Process.done a : Process σ ε α).Heeds G := trivial

theorem fail (e : ε) : (Process.fail e : Process σ ε α).Heeds G := trivial

theorem ofExcept (x : Except ε α) : (Process.ofExcept x : Process σ ε α).Heeds G :=
  always_ofExcept.2 trivial

theorem act {update : σ → σ} (h : ∀ s, G s (update s)) :
    (Process.act update : Process σ ε Unit).Heeds G :=
  ⟨h, fun _ => trivial⟩

theorem fetch {update : σ → σ} (h : ∀ s, G s (update s)) (view : σ → α) :
    (Process.fetch update view : Process σ ε α).Heeds G :=
  ⟨h, fun _ => trivial⟩

theorem bind (hp : p.Heeds G) (hf : ∀ a, (f a).Heeds G) : (p.bind f).Heeds G :=
  Always.bind hp (fun a _ => hf a) fun _ _ => trivial

/-- A check is no action. -/
theorem check {x : Except ε α} (hf : ∀ a, (f a).Heeds G) :
    ((Process.ofExcept x).bind f).Heeds G :=
  (ofExcept x).bind hf

theorem attempt (hp : p.Heeds G) : (p.attempt : Process σ ε' (Except ε α)).Heeds G :=
  Always.attempt hp fun _ _ => trivial

theorem mapError (hp : p.Heeds G) (w : ε → ε') : (p.mapError w).Heeds G := by
  induction p with
  | done a => exact done a
  | fail e => exact fail (w e)
  | step update next ih => exact ⟨hp.1, fun s => ih s (hp.2 s)⟩

/-- Alone, a process takes the state along the guarantee in one step, if steps can be joined. -/
theorem run (hp : p.Heeds G) (stay : ∀ s, G s s) (join : ∀ s t u, G s t → G t u → G s u) (s : σ) :
    G s (p.run s).2 := by
  have path := Always.run_state hp s
  generalize (p.run s).2 = last at path
  induction path with
  | refl => exact stay s
  | tail _ last ih => exact join _ _ _ ih last

/-! ### Processes at once -/

theorem interleave {ps : List (Process σ ε α)} (h : ∀ p ∈ ps, p.Heeds G) (schedule : Schedule) :
    (Process.interleave schedule ps : Process σ ε' _).Heeds G := by
  have together : (Process.interleave schedule ps : Process σ ε' _).Yields G _ :=
    interleave_always (R := fun _ (_ : Process σ ε α) => True) schedule (List.forall₂_same.2 h)
  exact Always.mono together (fun _ _ hG => hG) fun _ _ => trivial

theorem settleTasks {tasks : List (Nat × Process σ ε α)} (h : ∀ t ∈ tasks, t.2.Heeds G) :
    (Process.settleTasks tasks : Process σ ε' _).Heeds G := by
  induction tasks with
  | nil => exact done []
  | cons t rest ih =>
      obtain ⟨position, p⟩ := t
      unfold Process.settleTasks
      refine (attempt (h (position, p) (by simp))).bind fun r => ?_
      exact (ih fun t ht => h t (List.mem_cons_of_mem _ ht)).bind fun rs => done _

section Gather

variable {receive : β → Nat × Except ε α → Process σ ε' β} (hreceive : ∀ b a, (receive b a).Heeds G)

include hreceive

theorem consumeAll (b : β) (arrivals : List (Nat × Except ε α)) :
    (Process.consumeAll receive b arrivals).Heeds G := by
  induction arrivals generalizing b with
  | nil => exact done b
  | cons a rest ih => exact (hreceive b a).bind ih

/-- On every turn a task or the consumer performs one action of its own, or none is performed. -/
theorem gatherFrom (schedule : Schedule) {tasks : List (Nat × Process σ ε α)}
    (htasks : ∀ t ∈ tasks, t.2.Heeds G) (finished : List (Nat × Except ε α))
    {consumer : Process σ ε' β} (hconsumer : consumer.Heeds G) :
    (Process.gatherFrom receive schedule tasks finished consumer).Heeds G := by
  induction schedule generalizing tasks finished consumer with
  | nil =>
      unfold Process.gatherFrom
      refine (settleTasks htasks).bind fun last => ?_
      exact hconsumer.bind fun b => consumeAll hreceive b _
  | cons turn turns ih =>
      cases turn with
      | zero =>
          cases consumer with
          | step update next =>
              rw [gatherFrom_consumer_step]
              exact ⟨hconsumer.1, fun s => ih htasks finished (hconsumer.2 s)⟩
          | fail e =>
              rw [gatherFrom_failed]
              exact ih htasks finished hconsumer
          | done b =>
              cases finished with
              | nil =>
                  rw [gatherFrom_wait]
                  exact ih htasks [] hconsumer
              | cons a rest =>
                  rw [gatherFrom_take]
                  exact ih htasks rest (hreceive b a)
      | succ i =>
          have fewer : ∀ t ∈ tasks.eraseIdx i, t.2.Heeds G := fun t ht =>
            htasks t (List.mem_of_mem_eraseIdx ht)
          cases hi : tasks[i]? with
          | none =>
              rw [gatherFrom_absent hi]
              exact ih htasks finished hconsumer
          | some t =>
              obtain ⟨position, p⟩ := t
              have here : p.Heeds G := htasks _ (List.mem_of_getElem? hi)
              cases p with
              | done a =>
                  rw [gatherFrom_hand_over (r := .ok a) hi]
                  exact ih fewer _ hconsumer
              | fail e =>
                  rw [gatherFrom_hand_over (r := .error e) hi]
                  exact ih fewer _ hconsumer
              | step update next =>
                  rw [gatherFrom_task_step hi]
                  refine ⟨here.1, fun s => ih (fun t ht => ?_) finished hconsumer⟩
                  rcases List.mem_or_eq_of_mem_set ht with ht | rfl
                  · exact htasks t ht
                  · exact here.2 s

theorem gather (schedule : Schedule) {tasks : List (Nat × Process σ ε α)}
    (htasks : ∀ t ∈ tasks, t.2.Heeds G) (b : β) :
    (Process.gather receive schedule tasks b).Heeds G :=
  gatherFrom hreceive schedule htasks [] (done b)

end Gather

end Heeds

end Process

end SealedMatch
