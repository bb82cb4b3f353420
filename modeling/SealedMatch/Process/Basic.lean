/-
Module: SealedMatch.Process.Basic
Purpose: Computations cut into atomic actions on a shared state.
Trusted boundary: none
Main exports: Process, Process.run, Process.attempt, Process.mapError, the monad of processes
-/

namespace SealedMatch

/-- A computation that shares a state `σ` with others. It is finished, has failed, or performs one
atomic action: the state is replaced by `update` of it, and the computation goes on as `next` of the
state that the action found.

Nothing of the state is held between two actions, so another computation may act in between. -/
inductive Process (σ ε α : Type) : Type where
  | done (a : α)
  | fail (e : ε)
  | step (update : σ → σ) (next : σ → Process σ ε α)

namespace Process

variable {σ ε ε' α β : Type}

/-- Go on with the result. -/
def bind : Process σ ε α → (α → Process σ ε β) → Process σ ε β
  | done a, f => f a
  | fail e, _ => fail e
  | step update next, f => step update fun s => (next s).bind f

instance : Monad (Process σ ε) where
  pure := done
  bind := bind

/-- Go on with a failure. -/
def recover : Process σ ε α → (ε → Process σ ε' α) → Process σ ε' α
  | done a, _ => done a
  | fail e, handle => handle e
  | step update next, handle => step update fun s => (next s).recover handle

instance : MonadExcept ε (Process σ ε) where
  throw := fail
  tryCatch := recover

@[simp] theorem pure_eq (a : α) : (pure a : Process σ ε α) = done a := rfl

@[simp] theorem bind_eq (p : Process σ ε α) (f : α → Process σ ε β) : p >>= f = p.bind f := rfl

@[simp] theorem bind_done (a : α) (f : α → Process σ ε β) : (done a).bind f = f a := rfl

@[simp] theorem bind_fail (e : ε) (f : α → Process σ ε β) : (fail e).bind f = fail e := rfl

@[simp] theorem bind_step (update : σ → σ) (next : σ → Process σ ε α) (f : α → Process σ ε β) :
    (step update next).bind f = step update fun s => (next s).bind f := rfl

theorem bind_done_right (p : Process σ ε α) : p.bind done = p := by
  induction p with
  | done a => rfl
  | fail e => rfl
  | step update next ih => simp [ih]

theorem bind_assoc {γ : Type} (p : Process σ ε α) (f : α → Process σ ε β)
    (g : β → Process σ ε γ) : (p.bind f).bind g = p.bind fun a => (f a).bind g := by
  induction p with
  | done a => rfl
  | fail e => rfl
  | step update next ih => simp [ih]

instance : LawfulMonad (Process σ ε) :=
  LawfulMonad.mk' (Process σ ε) bind_done_right (fun _ _ => rfl) bind_assoc

/-- One atomic action that changes the state. -/
def act (update : σ → σ) : Process σ ε Unit := step update fun _ => done ()

/-- One atomic action that changes the state and yields a view of what it found. -/
def fetch (update : σ → σ) (view : σ → α) : Process σ ε α := step update fun s => done (view s)

/-- A result that is known without any action. -/
def ofExcept : Except ε α → Process σ ε α
  | .ok a => done a
  | .error e => fail e

/-- Take a failure as a result. -/
def attempt : Process σ ε α → Process σ ε' (Except ε α)
  | done a => done (.ok a)
  | fail e => done (.error e)
  | step update next => step update fun s => (next s).attempt

/-- Reword a failure. -/
def mapError (f : ε → ε') : Process σ ε α → Process σ ε' α
  | done a => done a
  | fail e => fail (f e)
  | step update next => step update fun s => (next s).mapError f

/-- Perform a process alone. The state is kept when the process fails. -/
def run : Process σ ε α → σ → Except ε α × σ
  | done a, s => (.ok a, s)
  | fail e, s => (.error e, s)
  | step update next, s => (next s).run (update s)

@[simp] theorem run_done (a : α) (s : σ) : (done a : Process σ ε α).run s = (.ok a, s) := rfl

@[simp] theorem run_fail (e : ε) (s : σ) : (fail e : Process σ ε α).run s = (.error e, s) := rfl

@[simp] theorem run_step (update : σ → σ) (next : σ → Process σ ε α) (s : σ) :
    (step update next).run s = (next s).run (update s) := rfl

/-- Running a continuation starts from the state that the first part leaves. -/
theorem run_bind (p : Process σ ε α) (f : α → Process σ ε β) (s : σ) :
    (p.bind f).run s =
      match p.run s with
      | (.ok a, s') => (f a).run s'
      | (.error e, s') => (.error e, s') := by
  induction p generalizing s with
  | done a => rfl
  | fail e => rfl
  | step update next ih => simp [ih]

/-- A run with a result has one of its first part, from whose state the continuation goes on. -/
theorem run_bind_eq_ok {p : Process σ ε α} {f : α → Process σ ε β} {s s' : σ} {b : β}
    (h : (p.bind f).run s = (.ok b, s')) :
    ∃ a t, p.run s = (.ok a, t) ∧ (f a).run t = (.ok b, s') := by
  rw [run_bind] at h
  split at h
  · next a t ran => exact ⟨a, t, ran, h⟩
  · cases h

theorem run_ofExcept (x : Except ε α) (s : σ) : (ofExcept x).run s = (x, s) := by
  cases x <;> rfl

theorem run_attempt (p : Process σ ε α) (s : σ) :
    (p.attempt : Process σ ε' (Except ε α)).run s = (.ok (p.run s).1, (p.run s).2) := by
  induction p generalizing s with
  | done a => rfl
  | fail e => rfl
  | step update next ih => simp [attempt, ih]

end Process

end SealedMatch
