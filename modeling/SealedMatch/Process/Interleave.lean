/-
Module: SealedMatch.Process.Interleave
Purpose: Several processes at once, action by action in any order.
Trusted boundary: none
Main exports: Schedule, Process.interleave, Process.gather
-/
import SealedMatch.Process.Basic

namespace SealedMatch

/-- Whose turn it is, action by action. Every finite interleaving has a schedule. When a schedule
is used up, the processes that are left run to their ends one after the other, the first one
first. -/
abbrev Schedule := List Nat

namespace Process

variable {σ ε ε' α β : Type}

/-- Run processes one after the other and collect their results, failures included. -/
def settleAll : List (Process σ ε α) → Process σ ε' (List (Except ε α))
  | [] => done []
  | p :: rest => p.attempt.bind fun r => (settleAll rest).bind fun rs => done (r :: rs)

/-- Run processes at once and collect their results in the order of the processes. Turn `i` performs
one action of process `i`; turns of finished or missing processes pass. -/
def interleave : Schedule → List (Process σ ε α) → Process σ ε' (List (Except ε α))
  | [], processes => settleAll processes
  | turn :: turns, processes =>
    match processes[turn]? with
    | some (step update next) =>
      step update fun s => interleave turns (processes.set turn (next s))
    | _ => interleave turns processes

/-- The first failure in the order of the list, or all results. -/
def firstFailure : List (Except ε α) → Except ε (List α)
  | [] => .ok []
  | .error e :: _ => .error e
  | .ok a :: rest => (firstFailure rest).map (a :: ·)

/-! ### Workers and a consumer

A pool of workers runs tasks and hands each finished one over to a consumer, in the order in which
they finish. The consumer works while the workers do. A failing task is handed over like any other;
a failing consumer takes no more hand-overs, but the workers still finish their tasks. -/

/-- Finish tasks one after the other, each under its position. -/
def settleTasks : List (Nat × Process σ ε α) → Process σ ε' (List (Nat × Except ε α))
  | [] => done []
  | (position, p) :: rest =>
    p.attempt.bind fun r => (settleTasks rest).bind fun rs => done ((position, r) :: rs)

/-- Let the consumer take hand-overs one after the other. -/
def consumeAll (receive : β → Nat × Except ε α → Process σ ε' β) :
    β → List (Nat × Except ε α) → Process σ ε' β
  | b, [] => done b
  | b, a :: rest => (receive b a).bind fun b => consumeAll receive b rest

/-- Run tasks beside a consumer. `finished` holds what has been handed over and not yet taken.
Turn 0 is the consumer's: it performs one action or takes the next hand-over. Turn `i + 1` is that
of the `i`-th task still at work: it performs one action or hands over. At the end of the schedule
the tasks finish in order, and then the consumer takes everything that is left. -/
def gatherFrom (receive : β → Nat × Except ε α → Process σ ε' β) :
    Schedule → List (Nat × Process σ ε α) → List (Nat × Except ε α) → Process σ ε' β →
      Process σ ε' β
  | [], tasks, finished, consumer =>
    (settleTasks tasks).bind fun last =>
      consumer.bind fun b => consumeAll receive b (finished ++ last)
  | 0 :: turns, tasks, finished, consumer =>
    match consumer, finished with
    | step update next, _ =>
      step update fun s => gatherFrom receive turns tasks finished (next s)
    | done b, a :: rest => gatherFrom receive turns tasks rest (receive b a)
    | consumer, _ => gatherFrom receive turns tasks finished consumer
  | (i + 1) :: turns, tasks, finished, consumer =>
    match tasks[i]? with
    | some (position, step update next) =>
      step update fun s =>
        gatherFrom receive turns (tasks.set i (position, next s)) finished consumer
    | some (position, done a) =>
      gatherFrom receive turns (tasks.eraseIdx i) (finished ++ [(position, .ok a)]) consumer
    | some (position, fail e) =>
      gatherFrom receive turns (tasks.eraseIdx i) (finished ++ [(position, .error e)]) consumer
    | none => gatherFrom receive turns tasks finished consumer

/-- Run tasks beside a consumer that starts from `b`. -/
def gather (receive : β → Nat × Except ε α → Process σ ε' β) (schedule : Schedule)
    (tasks : List (Nat × Process σ ε α)) (b : β) : Process σ ε' β :=
  gatherFrom receive schedule tasks [] (done b)

end Process

end SealedMatch
