/-
Module: SealedMatch.Proofs.Process.Watch
Purpose: Processes under watch: a record beside the state says how each of them ended, and changes
  nothing of what they do.
Trusted boundary: none
Main exports: Watched, Process.watch, Process.Mirrors, Process.Follows, Process.follows_interleave,
  Process.follows_gather
-/
import SealedMatch.Proofs.Process.Interleave

namespace SealedMatch

/-- A shared state beside the notes that have been taken. -/
structure Watched (σ κ : Type) where
  state : σ
  notes : List κ

namespace Watched

variable {σ κ : Type}

/-- An action on the state, of which no note is taken. -/
def lift (update : σ → σ) (w : Watched σ κ) : Watched σ κ := { w with state := update w.state }

/-- Take a note. -/
def note (k : κ) (w : Watched σ κ) : Watched σ κ := { w with notes := w.notes ++ [k] }

@[simp] theorem state_lift (update : σ → σ) (w : Watched σ κ) :
    (w.lift update).state = update w.state := rfl

@[simp] theorem notes_lift (update : σ → σ) (w : Watched σ κ) : (w.lift update).notes = w.notes :=
  rfl

@[simp] theorem state_note (k : κ) (w : Watched σ κ) : (w.note k).state = w.state := rfl

@[simp] theorem notes_note (k : κ) (w : Watched σ κ) : (w.note k).notes = w.notes ++ [k] := rfl

end Watched

namespace Process

variable {σ κ ε ε' α β : Type}

/-- Perform a process, and take a note of its outcome in one more action. -/
def watch (note : Except ε α → κ) : Process σ ε α → Process (Watched σ κ) ε α
  | done a => step (Watched.note (note (.ok a))) fun _ => done a
  | fail e => step (Watched.note (note (.error e))) fun _ => fail e
  | step update next => step (Watched.lift update) fun w => (next w.state).watch note

/-! ### Mirrors

A process under watch performs the actions of the process it mirrors, with notes in between. -/

/-- The second process performs the actions of the first one, ends alike, and takes notes. -/
inductive Mirrors : Process σ ε α → Process (Watched σ κ) ε α → Prop where
  | done (a : α) : Mirrors (done a) (done a)
  | fail (e : ε) : Mirrors (fail e) (fail e)
  | step {update : σ → σ} {next : σ → Process σ ε α}
      {next' : Watched σ κ → Process (Watched σ κ) ε α}
      (h : ∀ w, Mirrors (next w.state) (next' w)) :
      Mirrors (step update next) (step (Watched.lift update) next')
  | note {p : Process σ ε α} {k : κ} {next' : Watched σ κ → Process (Watched σ κ) ε α}
      (h : ∀ w, Mirrors p (next' w)) : Mirrors p (step (Watched.note k) next')

/-- A run under watch ends as another run, and with notes. -/
def Echoes (x : Except ε α × σ) (y : Except ε α × Watched σ κ) : Prop :=
  ∃ notes, y = (x.1, ⟨x.2, notes⟩)

namespace Mirrors

theorem watch (note : Except ε α → κ) (p : Process σ ε α) : Mirrors p (p.watch note) := by
  induction p with
  | done a => exact .note fun _ => .done a
  | fail e => exact .note fun _ => .fail e
  | step update next ih => exact .step fun w => ih w.state

theorem ofExcept (x : Except ε α) :
    Mirrors (Process.ofExcept x : Process σ ε α)
      (Process.ofExcept x : Process (Watched σ κ) ε α) := by
  cases x with
  | ok a => exact .done a
  | error e => exact .fail e

theorem act (update : σ → σ) :
    Mirrors (Process.act update : Process σ ε Unit)
      (Process.act (Watched.lift update) : Process (Watched σ κ) ε Unit) :=
  .step fun _ => .done ()

theorem fetch (update : σ → σ) (view : σ → α) :
    Mirrors (Process.fetch update view : Process σ ε α)
      (Process.fetch (Watched.lift update) fun w : Watched σ κ => view w.state) :=
  .step fun w => .done (view w.state)

theorem bind {p : Process σ ε α} {q : Process (Watched σ κ) ε α} {f : α → Process σ ε β}
    {g : α → Process (Watched σ κ) ε β} (h : Mirrors p q) (hf : ∀ a, Mirrors (f a) (g a)) :
    Mirrors (p.bind f) (q.bind g) := by
  induction h with
  | done a => exact hf a
  | fail e => exact .fail e
  | step _ ih => exact .step ih
  | note _ ih => exact .note ih

theorem attempt {p : Process σ ε α} {q : Process (Watched σ κ) ε α} (h : Mirrors p q) :
    Mirrors (p.attempt : Process σ ε' _) (q.attempt : Process (Watched σ κ) ε' _) := by
  induction h with
  | done a => exact .done _
  | fail e => exact .done _
  | step _ ih => exact .step ih
  | note _ ih => exact .note ih

theorem mapError {p : Process σ ε α} {q : Process (Watched σ κ) ε α} (h : Mirrors p q)
    (f : ε → ε') : Mirrors (p.mapError f) (q.mapError f) := by
  induction h with
  | done a => exact .done a
  | fail e => exact .fail _
  | step _ ih => exact .step ih
  | note _ ih => exact .note ih

/-- Alone, both end alike and leave one state. -/
theorem run {p : Process σ ε α} {q : Process (Watched σ κ) ε α} (h : Mirrors p q)
    (w : Watched σ κ) : Echoes (p.run w.state) (q.run w) := by
  induction h generalizing w with
  | done a => exact ⟨w.notes, rfl⟩
  | fail e => exact ⟨w.notes, rfl⟩
  | step _ ih => exact ih w (w.lift _)
  | note _ ih => exact ih w (w.note _)

/-- What is left of a process on its turn until it has taken its notes. The system around it is
`F`, in which a turn `t` is a turn of this process. -/
theorem turns_step {F : Schedule → Process (Watched σ κ) ε α → Process (Watched σ κ) ε' β}
    {t : Nat} (hF : ∀ turns update next,
      F (t :: turns) (Process.step update next) = Process.step update fun w => F turns (next w))
    {P : Except ε' β × Watched σ κ → Prop} {update : σ → σ} {next : σ → Process σ ε α}
    {q : Process (Watched σ κ) ε α} (h : Mirrors (Process.step update next) q) (w : Watched σ κ)
    (hgo : ∀ w' q', w'.state = update w.state → Mirrors (next w.state) q' →
      ∃ schedule, P ((F schedule q').run w')) :
    ∃ schedule, P ((F schedule q).run w) := by
  generalize hp : Process.step update next = p at h
  induction h generalizing w with
  | done a => cases hp
  | fail e => cases hp
  | step hnext =>
      cases hp
      obtain ⟨schedule, hP⟩ := hgo (w.lift update) _ rfl (hnext w)
      exact ⟨t :: schedule, by rw [hF]; exact hP⟩
  | note hnext ih =>
      obtain ⟨schedule, hP⟩ := ih w (w.note _) hgo hp
      exact ⟨t :: schedule, by rw [hF]; exact hP⟩

/-- A process that mirrors one without actions has only notes to take. -/
theorem turns_end {F : Schedule → Process (Watched σ κ) ε α → Process (Watched σ κ) ε' β}
    {t : Nat} (hF : ∀ turns update next,
      F (t :: turns) (Process.step update next) = Process.step update fun w => F turns (next w))
    {P : Except ε' β × Watched σ κ → Prop} {x : Except ε α} {q : Process (Watched σ κ) ε α}
    (h : Mirrors (Process.ofExcept x) q) (w : Watched σ κ)
    (hgo : ∀ w' : Watched σ κ, w'.state = w.state →
      ∃ schedule, P ((F schedule (Process.ofExcept x)).run w')) :
    ∃ schedule, P ((F schedule q).run w) := by
  generalize hp : (Process.ofExcept x : Process σ ε α) = p at h
  induction h generalizing w with
  | done a =>
      cases x with
      | ok a =>
          cases hp
          exact hgo w rfl
      | error e => cases hp
  | fail e =>
      cases x with
      | ok a => cases hp
      | error e =>
          cases hp
          exact hgo w rfl
  | step =>
      cases x with
      | ok a => cases hp
      | error e => cases hp
  | note hnext ih =>
      obtain ⟨schedule, hP⟩ := ih w (w.note _) hgo hp
      exact ⟨t :: schedule, by rw [hF]; exact hP⟩

end Mirrors

/-! ### Under a schedule

Notes take turns. For every run of processes at once there is a schedule under which the processes
under watch run alike. -/

/-- Whatever a process does alone, under some schedule the other one does as well. -/
def Follows (p : Process σ ε α) (q : Schedule → Process (Watched σ κ) ε α) : Prop :=
  ∀ w : Watched σ κ, ∃ schedule, Echoes (p.run w.state) ((q schedule).run w)

theorem Mirrors.follows {p : Process σ ε α} {q : Process (Watched σ κ) ε α} (h : Mirrors p q) :
    Follows p fun _ => q :=
  fun w => ⟨[], h.run w⟩

/-- What comes before the processes at once. -/
theorem Mirrors.bind_follows {p : Process σ ε α} {q : Process (Watched σ κ) ε α}
    {f : α → Process σ ε β} {g : α → Schedule → Process (Watched σ κ) ε β} (h : Mirrors p q)
    (hf : ∀ a, Follows (f a) (g a)) :
    Follows (p.bind f) fun schedule => q.bind fun a => g a schedule := by
  intro w
  obtain ⟨notes, hrun⟩ := h.run w
  simp only [run_bind, hrun]
  rcases p.run w.state with ⟨e | a, s⟩
  · exact ⟨[], notes, rfl⟩
  · exact hf a ⟨s, notes⟩

/-- What comes after the processes at once. -/
theorem Follows.bind {p : Process σ ε α} {q : Schedule → Process (Watched σ κ) ε α}
    {f : α → Process σ ε β} {g : α → Process (Watched σ κ) ε β} (h : Follows p q)
    (hf : ∀ a, Mirrors (f a) (g a)) :
    Follows (p.bind f) fun schedule => (q schedule).bind g := by
  intro w
  obtain ⟨schedule, notes, hrun⟩ := h w
  refine ⟨schedule, ?_⟩
  simp only [run_bind, hrun]
  rcases p.run w.state with ⟨e | a, s⟩
  · exact ⟨notes, rfl⟩
  · exact (hf a).run ⟨s, notes⟩

theorem run_mapError (p : Process σ ε α) (f : ε → ε') (s : σ) :
    (p.mapError f).run s = ((p.run s).1.mapError f, (p.run s).2) := by
  induction p generalizing s with
  | done a => rfl
  | fail e => rfl
  | step update next ih => exact ih s (update s)

theorem Follows.mapError {p : Process σ ε α} {q : Schedule → Process (Watched σ κ) ε α}
    (h : Follows p q) (f : ε → ε') :
    Follows (p.mapError f) fun schedule => (q schedule).mapError f := by
  intro w
  obtain ⟨schedule, notes, hrun⟩ := h w
  exact ⟨schedule, notes, by rw [run_mapError, run_mapError, hrun]⟩

theorem Follows.attempt {p : Process σ ε α} {q : Schedule → Process (Watched σ κ) ε α}
    (h : Follows p q) :
    Follows (p.attempt : Process σ ε' _) fun schedule =>
      ((q schedule).attempt : Process (Watched σ κ) ε' _) := by
  intro w
  obtain ⟨schedule, notes, hrun⟩ := h w
  exact ⟨schedule, notes, by rw [run_attempt, run_attempt, hrun]⟩

theorem mirrors_settleAll {ps : List (Process σ ε α)} {qs : List (Process (Watched σ κ) ε α)}
    (h : List.Forall₂ Mirrors ps qs) :
    Mirrors (settleAll ps : Process σ ε' _) (settleAll qs : Process (Watched σ κ) ε' _) := by
  induction h with
  | nil => exact .done []
  | cons head tail ih =>
      exact head.attempt.bind fun r => ih.bind fun rs => .done (r :: rs)

theorem follows_interleave {ps : List (Process σ ε α)} {qs : List (Process (Watched σ κ) ε α)}
    (h : List.Forall₂ Mirrors ps qs) (schedule : Schedule) :
    Follows (interleave schedule ps : Process σ ε' _) fun turns =>
      (interleave turns qs : Process (Watched σ κ) ε' _) := by
  induction schedule generalizing ps qs with
  | nil => exact fun w => ⟨[], (mirrors_settleAll h).run w⟩
  | cons turn turns ih =>
      intro w
      by_cases hturn : ∃ update next, ps[turn]? = some (step update next)
      · obtain ⟨update, next, hturn⟩ := hturn
        rw [interleave_step hturn, run_step]
        have inside : turn < qs.length := by
          rw [← h.length_eq]
          exact (List.getElem?_eq_some_iff.1 hturn).1
        have here := forall₂_getElem? h hturn (List.getElem?_eq_getElem inside)
        have known : ∀ q, (qs.set turn q)[turn]? = some q := fun q => by
          rw [List.getElem?_set_self inside]
        have reached := here.turns_step
          (F := fun turns q => (interleave turns (qs.set turn q) : Process _ ε' _)) (t := turn)
          (fun turns update next => by rw [interleave_step (known _)]; simp only [List.set_set])
          (P := Echoes ((interleave turns (ps.set turn (next w.state))).run (update w.state))) w
          fun w' q' hstate hq' => by
            rw [← hstate]
            exact ih (forall₂_set_set h turn hq') w'
        rwa [List.set_getElem_self] at reached
      · rw [interleave_pass fun update next hget => hturn ⟨update, next, hget⟩]
        exact ih h w

/-! ### Workers and a consumer -/

section Gather

variable {receive : β → Nat × Except ε α → Process σ ε' β}
  {receive' : β → Nat × Except ε α → Process (Watched σ κ) ε' β}

/-- Tasks under watch have the positions of the tasks that they mirror. -/
def MirrorTasks : List (Nat × Process σ ε α) → List (Nat × Process (Watched σ κ) ε α) → Prop :=
  List.Forall₂ fun t u => t.1 = u.1 ∧ Mirrors t.2 u.2

theorem mirrors_settleTasks {ts : List (Nat × Process σ ε α)}
    {us : List (Nat × Process (Watched σ κ) ε α)} (h : MirrorTasks ts us) :
    Mirrors (settleTasks ts : Process σ ε' _) (settleTasks us : Process (Watched σ κ) ε' _) := by
  induction h with
  | nil => exact .done []
  | cons head tail ih =>
      rename_i t u ts us
      obtain ⟨position, p⟩ := t
      obtain ⟨_, q⟩ := u
      obtain ⟨rfl, hpq⟩ := head
      exact hpq.attempt.bind fun r => ih.bind fun rs => .done ((position, r) :: rs)

theorem mirrors_consumeAll (hreceive : ∀ b a, Mirrors (receive b a) (receive' b a)) (b : β)
    (arrivals : List (Nat × Except ε α)) :
    Mirrors (consumeAll receive b arrivals) (consumeAll receive' b arrivals) := by
  induction arrivals generalizing b with
  | nil => exact .done b
  | cons a rest ih => exact (hreceive b a).bind ih

theorem MirrorTasks.getElem? {ts : List (Nat × Process σ ε α)}
    {us : List (Nat × Process (Watched σ κ) ε α)} (h : MirrorTasks ts us) {i position : Nat}
    {p : Process σ ε α} (hi : ts[i]? = some (position, p)) :
    ∃ q, us[i]? = some (position, q) ∧ Mirrors p q := by
  have inside : i < us.length := by
    rw [← List.Forall₂.length_eq h]
    exact (List.getElem?_eq_some_iff.1 hi).1
  obtain ⟨hposition, hpq⟩ := forall₂_getElem? h hi (List.getElem?_eq_getElem inside)
  refine ⟨us[i].2, ?_, hpq⟩
  rw [List.getElem?_eq_getElem inside]
  exact congrArg some (Prod.ext hposition.symm rfl)

theorem MirrorTasks.eraseIdx {ts : List (Nat × Process σ ε α)}
    {us : List (Nat × Process (Watched σ κ) ε α)} (h : MirrorTasks ts us) (i : Nat) :
    MirrorTasks (ts.eraseIdx i) (us.eraseIdx i) := by
  unfold MirrorTasks at h ⊢
  induction h generalizing i with
  | nil => exact .nil
  | cons head tail ih =>
      cases i with
      | zero => exact tail
      | succ i => exact .cons head (ih i)

theorem follows_gatherFrom (hreceive : ∀ b a, Mirrors (receive b a) (receive' b a))
    (schedule : Schedule) {ts : List (Nat × Process σ ε α)}
    {us : List (Nat × Process (Watched σ κ) ε α)} (htasks : MirrorTasks ts us)
    (finished : List (Nat × Except ε α)) {consumer : Process σ ε' β}
    {consumer' : Process (Watched σ κ) ε' β} (hconsumer : Mirrors consumer consumer') :
    Follows (gatherFrom receive schedule ts finished consumer) fun turns =>
      gatherFrom receive' turns us finished consumer' := by
  induction schedule generalizing ts us finished consumer consumer' with
  | nil =>
      refine fun w => ⟨[], ?_⟩
      have settled : Mirrors (gatherFrom receive [] ts finished consumer)
          (gatherFrom receive' [] us finished consumer') := by
        unfold gatherFrom
        exact (mirrors_settleTasks htasks).bind fun last =>
          hconsumer.bind fun b => mirrors_consumeAll hreceive b _
      exact settled.run w
  | cons turn turns ih =>
      intro w
      cases turn with
      | zero =>
          have hF : ∀ turns update next,
              gatherFrom receive' (0 :: turns) us finished (step update next) =
                step update fun w => gatherFrom receive' turns us finished (next w) :=
            fun _ update next => gatherFrom_consumer_step update next
          cases consumer with
          | step update next =>
              rw [gatherFrom_consumer_step, run_step]
              refine hconsumer.turns_step (t := 0) hF w fun w' q' hstate hq' => ?_
              rw [← hstate]
              exact ih htasks finished hq' w'
          | fail e =>
              rw [gatherFrom_failed]
              exact ih htasks finished hconsumer w
          | done b =>
              cases finished with
              | nil =>
                  rw [gatherFrom_wait]
                  exact ih htasks [] hconsumer w
              | cons a rest =>
                  rw [gatherFrom_take]
                  refine Mirrors.turns_end (t := 0) (x := .ok b) hF hconsumer w
                    fun w' hstate => ?_
                  obtain ⟨schedule, hrun⟩ := ih htasks rest (hreceive b a) w'
                  refine ⟨0 :: schedule, ?_⟩
                  rw [← hstate]
                  rw [show gatherFrom receive' (0 :: schedule) us (a :: rest)
                    (ofExcept (.ok b)) = _ from gatherFrom_take a rest b]
                  exact hrun
      | succ i =>
          cases hi : ts[i]? with
          | none =>
              rw [gatherFrom_absent hi]
              exact ih htasks finished hconsumer w
          | some t =>
              obtain ⟨position, p⟩ := t
              obtain ⟨q, hq, hpq⟩ := htasks.getElem? hi
              have inside : i < us.length := (List.getElem?_eq_some_iff.1 hq).1
              have known : ∀ q, (us.set i (position, q))[i]? = some (position, q) := fun q => by
                rw [List.getElem?_set_self inside]
              have same : us.set i (position, q) = us := by
                rw [List.getElem?_eq_getElem inside, Option.some.injEq] at hq
                rw [← hq, List.set_getElem_self]
              have hF : ∀ turns update next,
                  gatherFrom receive' ((i + 1) :: turns) (us.set i (position, step update next))
                      finished consumer' =
                    step update fun w =>
                      gatherFrom receive' turns (us.set i (position, next w)) finished
                        consumer' := by
                intro turns update next
                rw [gatherFrom_task_step (known _)]
                simp only [List.set_set]
              have handOver : ∀ r, p = Process.ofExcept r → ∃ schedule, Echoes
                  ((gatherFrom receive ((i + 1) :: turns) ts finished consumer).run w.state)
                  ((gatherFrom receive' schedule us finished consumer').run w) := by
                rintro r rfl
                have reached := hpq.turns_end (t := i + 1)
                  (F := fun turns q =>
                    gatherFrom receive' turns (us.set i (position, q)) finished consumer') hF
                  (P := Echoes ((gatherFrom receive ((i + 1) :: turns) ts finished consumer).run
                    w.state)) w fun w' hstate => by
                    obtain ⟨schedule, hrun⟩ := ih (htasks.eraseIdx i)
                      (finished ++ [(position, r)]) hconsumer w'
                    refine ⟨(i + 1) :: schedule, ?_⟩
                    rw [gatherFrom_hand_over hi, gatherFrom_hand_over (known _),
                      List.eraseIdx_set_eq, ← hstate]
                    exact hrun
                rwa [same] at reached
              cases p with
              | done a => exact handOver (.ok a) rfl
              | fail e => exact handOver (.error e) rfl
              | step update next =>
                  rw [gatherFrom_task_step hi, run_step]
                  have reached := hpq.turns_step (t := i + 1)
                    (F := fun turns q =>
                      gatherFrom receive' turns (us.set i (position, q)) finished consumer') hF
                    (P := Echoes ((gatherFrom receive turns (ts.set i (position, next w.state))
                      finished consumer).run (update w.state))) w fun w' q' hstate hq' => by
                      rw [← hstate]
                      exact ih (forall₂_set_set htasks i ⟨rfl, hq'⟩) finished hconsumer w'
                  rwa [same] at reached

theorem follows_gather (hreceive : ∀ b a, Mirrors (receive b a) (receive' b a))
    (schedule : Schedule) {ts : List (Nat × Process σ ε α)}
    {us : List (Nat × Process (Watched σ κ) ε α)} (htasks : MirrorTasks ts us) (b : β) :
    Follows (gather receive schedule ts b) fun turns => gather receive' turns us b :=
  follows_gatherFrom hreceive schedule htasks [] (.done b)

end Gather

end Process

end SealedMatch
