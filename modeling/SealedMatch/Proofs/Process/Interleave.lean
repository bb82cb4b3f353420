/-
Module: SealedMatch.Proofs.Process.Interleave
Purpose: What holds of processes at once under every schedule, and what they spend together.
Trusted boundary: none
Main exports: Process.interleave_spends, Process.interleave_pays, Process.interleave_always,
  Process.firstFailure_eq_ok, Process.gather_spends, Process.gather_pays, Process.gather_yields,
  Process.handOvers, Process.gatherFrom_eq
-/
import Mathlib.Algebra.BigOperators.Group.List.Basic
import Mathlib.Data.List.Forall2
import Mathlib.Data.List.Perm.Basic
import SealedMatch.Process.Interleave
import SealedMatch.Proofs.Process.Spending

namespace SealedMatch

/-- The property of an outcome that says one thing of a result and another of a failure. -/
def Settles {ε α : Type} (Q : α → Prop) (E : ε → Prop) : Except ε α → Prop
  | .ok a => Q a
  | .error e => E e

namespace Process

variable {σ ε ε' α β γ M : Type} [AddCommMonoid M] {G : M → σ → σ → Prop}

/-- A process that cannot fail settles for a result. -/
theorem yields_iff_settles {H : σ → σ → Prop} {Q : α → Prop} {p : Process σ ε α} {m : M} :
    p.Yields H Q ↔ p.Spends (fun _ : M => H) (fun _ => Settles Q fun _ => False) m := by
  rw [← yields_iff_pays (m := m)]
  refine ⟨fun hp => Spends.mono hp ?_, fun hp => Spends.mono hp ?_⟩
  · rintro _ _ ⟨a, rfl, ha⟩
    exact ha
  · intro _ r hr
    cases r with
    | ok a => exact ⟨a, rfl, hr⟩
    | error e => exact hr.elim

/-! ### Sums over processes -/

/-- One item of a sum stands out. -/
theorem sum_map_eraseIdx (f : α → M) {xs : List α} {i : Nat} {x : α} (h : xs[i]? = some x) :
    (xs.map f).sum = f x + ((xs.eraseIdx i).map f).sum := by
  obtain ⟨hlt, hget⟩ := List.getElem?_eq_some_iff.1 h
  have order := ((List.getElem_cons_eraseIdx_perm hlt).symm.map f).sum_eq
  rw [hget] at order
  simpa using order

/-- An item of a sum grows. -/
theorem sum_map_set (f : α → M) {xs : List α} {i : Nat} {x y : α} {d : M} (h : xs[i]? = some x)
    (hy : f y = f x + d) : ((xs.set i y).map f).sum = (xs.map f).sum + d := by
  have inside : i < (xs.set i y).length := by
    rw [List.length_set]
    exact (List.getElem?_eq_some_iff.1 h).1
  have here : (xs.set i y)[i]? = some y := by
    rw [List.getElem?_eq_getElem inside, List.getElem_set_self]
  rw [sum_map_eraseIdx f here, sum_map_eraseIdx f h, List.eraseIdx_set_eq, hy, add_right_comm]

/-! ### Processes without a consumer -/

/-- Put one more step of the process at `turn` behind it: its specification does not change. -/
theorem forall₂_set {R : α → γ → Prop} {xs : List α} {cs : List γ} (h : List.Forall₂ R xs cs)
    (turn : Nat) (x : α) (hx : ∀ c, cs[turn]? = some c → R x c) :
    List.Forall₂ R (xs.set turn x) cs := by
  induction h generalizing turn with
  | nil => exact .nil
  | cons head tail ih =>
      cases turn with
      | zero => exact .cons (hx _ rfl) tail
      | succ turn => exact .cons head (ih turn fun c hc => hx c hc)

theorem forall₂_set_set {R : α → γ → Prop} {xs : List α} {cs : List γ} (h : List.Forall₂ R xs cs)
    (turn : Nat) {x : α} {c : γ} (hxc : R x c) :
    List.Forall₂ R (xs.set turn x) (cs.set turn c) := by
  induction h generalizing turn with
  | nil => exact .nil
  | cons head tail ih =>
      cases turn with
      | zero => exact .cons hxc tail
      | succ turn => exact .cons head (ih turn)

theorem forall₂_getElem? {R : α → γ → Prop} {xs : List α} {cs : List γ}
    (h : List.Forall₂ R xs cs) {i : Nat} {x : α} {c : γ} (hx : xs[i]? = some x)
    (hc : cs[i]? = some c) : R x c := by
  induction h generalizing i with
  | nil => simp at hx
  | cons head tail ih =>
      cases i with
      | zero =>
          simp only [List.getElem?_cons_zero, Option.some.injEq] at hx hc
          subst hx hc
          exact head
      | succ i => exact ih hx hc

/-- The process whose turn it is performs an action. -/
theorem interleave_step {turn : Nat} {turns : Schedule} {ps : List (Process σ ε α)}
    {update : σ → σ} {next : σ → Process σ ε α} (h : ps[turn]? = some (step update next)) :
    (interleave (turn :: turns) ps : Process σ ε' _) =
      step update fun s => interleave turns (ps.set turn (next s)) := by
  rw [interleave, h]

/-- The turn of a process without an action left passes. -/
theorem interleave_pass {turn : Nat} {turns : Schedule} {ps : List (Process σ ε α)}
    (h : ∀ update next, ps[turn]? ≠ some (step update next)) :
    (interleave (turn :: turns) ps : Process σ ε' _) = interleave turns ps := by
  rw [interleave]
  split
  · rename_i update next hturn
    exact absurd hturn (h update next)
  · rfl

/-- What processes have come to: each its outcome for its own amount, as specified. -/
def Bills (R : M → Except ε α → γ → Prop) (specs : List γ) (base m : M)
    (rs : List (Except ε α)) : Prop :=
  ∃ ys : List (Except ε α × M), rs = ys.map Prod.fst ∧ m = base + (ys.map Prod.snd).sum ∧
    List.Forall₂ (fun y c => R y.2 y.1 c) ys specs

variable {R : M → Except ε α → γ → Prop} {xs : List (Process σ ε α × M)} {specs : List γ}

theorem settleAll_spends
    (h : List.Forall₂ (fun x c => x.1.Spends G (fun m r => R m r c) x.2) xs specs) (base : M) :
    (settleAll (xs.map Prod.fst) : Process σ ε' _).Pays G (Bills R specs base)
      (base + (xs.map Prod.snd).sum) := by
  induction h generalizing base with
  | nil => exact Pays.done ⟨[], rfl, rfl, .nil⟩
  | cons head tail ih =>
      rename_i x c xs specs
      rw [List.map_cons, List.map_cons, List.sum_cons, add_left_comm, add_comm]
      unfold settleAll
      have first : (x.1.attempt : Process σ ε' _).Pays G
          (fun m r => ∃ d, m = base + (xs.map Prod.snd).sum + d ∧ R d r c)
          (base + (xs.map Prod.snd).sum + x.2) :=
        (head.shift _).attempt fun m r hr => ⟨r, rfl, hr⟩
      apply first.bind
      rintro _ r ⟨d, rfl, hr⟩
      rw [add_right_comm]
      apply (ih (base + d)).bind
      rintro _ _ ⟨ys, rfl, rfl, hys⟩
      refine Pays.done ⟨(r, d) :: ys, rfl, ?_, .cons hr hys⟩
      rw [List.map_cons, List.sum_cons, add_assoc]

/-- Processes at once end as they end alone and spend as much as they spend alone, whatever the
schedule. -/
theorem interleave_spends (schedule : Schedule)
    (h : List.Forall₂ (fun x c => x.1.Spends G (fun m r => R m r c) x.2) xs specs) (base : M) :
    (interleave schedule (xs.map Prod.fst) : Process σ ε' _).Pays G (Bills R specs base)
      (base + (xs.map Prod.snd).sum) := by
  induction schedule generalizing xs with
  | nil => exact settleAll_spends h base
  | cons turn turns ih =>
      unfold interleave
      split
      · rename_i update next hturn
        rw [List.getElem?_map, Option.map_eq_some_iff] at hturn
        obtain ⟨⟨p, m⟩, hx, rfl⟩ := hturn
        have inside : turn < specs.length := by
          rw [← h.length_eq]
          exact (List.getElem?_eq_some_iff.1 hx).1
        obtain ⟨d, hupdate, hnext⟩ :=
          forall₂_getElem? h hx (List.getElem?_eq_getElem inside)
        refine ⟨d, hupdate, fun s => ?_⟩
        have stepped := @ih (xs.set turn (next s, m + d)) (forall₂_set h turn _ fun c hc => by
          rw [List.getElem?_eq_getElem inside] at hc
          cases hc
          exact hnext s)
        rw [sum_map_set Prod.snd hx rfl, List.map_set, ← add_assoc] at stepped
        exact stepped
      · exact ih h

/-- Processes that begin at once spend as much as they spend alone, whatever the schedule. -/
theorem interleave_pays (schedule : Schedule) {processes : List (Process σ ε α)}
    (h : List.Forall₂ (fun p c => p.Spends G (fun m r => R m r c) 0) processes specs) :
    (interleave schedule processes : Process σ ε' _).Pays G (Bills R specs 0) 0 := by
  have begun : List.Forall₂ (fun x c => x.1.Spends G (fun m r => R m r c) x.2)
      (processes.map fun p => (p, 0)) specs := by
    rw [List.forall₂_map_left_iff]
    exact h
  have same : (processes.map fun p => (p, (0 : M))).map Prod.fst = processes := by
    rw [List.map_map]
    exact List.map_id _
  have nothing : ((processes.map fun p => (p, (0 : M))).map Prod.snd).sum = 0 := by
    rw [List.map_map]
    exact List.sum_map_zero
  have together : (interleave schedule _ : Process σ ε' _).Pays _ _ _ :=
    interleave_spends schedule begun 0
  rwa [same, nothing, add_zero] at together

/-- Processes at once end as they end alone, whatever the schedule. -/
theorem interleave_always {H : σ → σ → Prop} {R : Except ε α → γ → Prop} (schedule : Schedule)
    {processes : List (Process σ ε α)} {specs : List γ}
    (h : List.Forall₂ (fun p c => p.Always H fun r => R r c) processes specs) :
    (interleave schedule processes : Process σ ε' _).Yields H fun rs =>
      List.Forall₂ R rs specs := by
  have together : (interleave schedule processes : Process σ ε' _).Pays (fun _ : Nat => H) _ _ :=
    interleave_pays (R := fun _ r c => R r c) schedule (h.imp fun p c hp => always_iff_spends.2 hp)
  refine (yields_iff_pays.1 (together.mono (Q := fun _ rs => List.Forall₂ R rs specs) ?_))
  rintro m _ ⟨ys, rfl, _, hys⟩
  rw [List.forall₂_map_left_iff]
  exact hys

/-- Without a failure, all results are there. -/
theorem firstFailure_eq_ok {R : α → γ → Prop} {rs : List (Except ε α)} {specs : List γ}
    (h : List.Forall₂ (fun r c => ∃ a, r = .ok a ∧ R a c) rs specs) :
    ∃ as, firstFailure rs = .ok as ∧ List.Forall₂ R as specs := by
  induction h with
  | nil => exact ⟨[], rfl, .nil⟩
  | cons head tail ih =>
      obtain ⟨a, rfl, ha⟩ := head
      obtain ⟨as, has, hR⟩ := ih
      refine ⟨a :: as, ?_, .cons ha hR⟩
      unfold firstFailure
      rw [has]
      rfl

/-- Where there are results of all, none has failed. -/
theorem eq_map_ok_of_firstFailure {rs : List (Except ε α)} {as : List α}
    (h : firstFailure rs = .ok as) : rs = as.map .ok := by
  induction rs generalizing as with
  | nil =>
      cases h
      rfl
  | cons r rs ih =>
      cases r with
      | error e => cases h
      | ok a =>
          unfold firstFailure at h
          cases hrs : firstFailure rs with
          | error e =>
              rw [hrs] at h
              cases h
          | ok rest =>
              rw [hrs] at h
              cases h
              rw [ih hrs]
              rfl

/-! ### Workers and a consumer

Each position is in one of three places: its task is still at work, it has been handed over, or the
consumer has taken it. The invariant speaks of the positions taken so far, in the order in which
they were taken; a turn of the schedule moves one position one place on or performs one action. -/

section Gather

variable {T : Nat → M → Except ε α → Prop} {E : M → ε' → Prop} {I : List Nat → M → β → Prop}
  {receive : β → Nat × Except ε α → Process σ ε' β} {positions : List Nat}

/-! The turns of `gatherFrom`, one by one. -/

section Turns

variable {receive : β → Nat × Except ε α → Process σ ε' β} {turns : Schedule}
  {tasks : List (Nat × Process σ ε α)} {finished : List (Nat × Except ε α)}
  {consumer : Process σ ε' β}

theorem gatherFrom_consumer_step (update : σ → σ) (next : σ → Process σ ε' β) :
    gatherFrom receive (0 :: turns) tasks finished (step update next) =
      step update fun s => gatherFrom receive turns tasks finished (next s) := by
  rw [gatherFrom]

theorem gatherFrom_take (a : Nat × Except ε α) (rest : List (Nat × Except ε α)) (b : β) :
    gatherFrom receive (0 :: turns) tasks (a :: rest) (done b) =
      gatherFrom receive turns tasks rest (receive b a) := by
  rw [gatherFrom]

theorem gatherFrom_wait (b : β) :
    gatherFrom receive (0 :: turns) tasks [] (done b) =
      gatherFrom receive turns tasks [] (done b) := by
  rw [gatherFrom]
  · simp
  · simp

theorem gatherFrom_failed (e : ε') :
    gatherFrom receive (0 :: turns) tasks finished (fail e) =
      gatherFrom receive turns tasks finished (fail e) := by
  rw [gatherFrom]
  · simp
  · simp

theorem gatherFrom_task_step {i position : Nat} {update : σ → σ} {next : σ → Process σ ε α}
    (h : tasks[i]? = some (position, step update next)) :
    gatherFrom receive ((i + 1) :: turns) tasks finished consumer = step update fun s =>
      gatherFrom receive turns (tasks.set i (position, next s)) finished consumer := by
  rw [gatherFrom, h]

theorem gatherFrom_hand_over {i position : Nat} {r : Except ε α}
    (h : tasks[i]? = some (position, Process.ofExcept r)) :
    gatherFrom receive ((i + 1) :: turns) tasks finished consumer =
      gatherFrom receive turns (tasks.eraseIdx i) (finished ++ [(position, r)]) consumer := by
  rw [gatherFrom, h]
  cases r with
  | ok a => rfl
  | error e => rfl

theorem gatherFrom_absent {i : Nat} (h : tasks[i]? = none) :
    gatherFrom receive ((i + 1) :: turns) tasks finished consumer =
      gatherFrom receive turns tasks finished consumer := by
  rw [gatherFrom, h]

end Turns

/-- What the consumer may be relied on to do with an arrival, whose amount goes over to it. -/
def Accepts (G : M → σ → σ → Prop) (T : Nat → M → Except ε α → Prop)
    (I : List Nat → M → β → Prop) (E : M → ε' → Prop) (positions : List Nat)
    (receive : β → Nat × Except ε α → Process σ ε' β) : Prop :=
  ∀ taken m b position d r, I taken m b → position ∈ positions → position ∉ taken →
    T position d r → (receive b (position, r)).Spends G
      (fun m => Settles (I (position :: taken) m) (E m)) (m + d)

/-- A failure of the consumer is no other for what is left to its tasks. -/
def Stands (T : Nat → M → Except ε α → Prop) (E : M → ε' → Prop) : Prop :=
  ∀ m e position d r, E m e → T position d r → E (m + d) e

theorem Stands.sum (h : Stands T E) {arrivals : List ((Nat × Except ε α) × M)}
    (harrivals : ∀ a ∈ arrivals, T a.1.1 a.2 a.1.2) {m : M} {e : ε'} (he : E m e) :
    E (m + (arrivals.map Prod.snd).sum) e := by
  induction arrivals generalizing m with
  | nil => simpa using he
  | cons a rest ih =>
      rw [List.map_cons, List.sum_cons, ← add_assoc]
      exact ih (fun a ha => harrivals a (List.mem_cons_of_mem _ ha))
        (h m e _ _ _ he (harrivals a (by simp)))

theorem settleTasks_spends {tasks : List ((Nat × Process σ ε α) × M)}
    (h : ∀ t ∈ tasks, t.1.2.Spends G (T t.1.1) t.2) (base : M) :
    (settleTasks (tasks.map Prod.fst) : Process σ ε' _).Pays G
      (fun m last => ∃ ys : List ((Nat × Except ε α) × M), last = ys.map Prod.fst ∧
        m = base + (ys.map Prod.snd).sum ∧ last.map Prod.fst = tasks.map (·.1.1) ∧
        ∀ a ∈ ys, T a.1.1 a.2 a.1.2) (base + (tasks.map Prod.snd).sum) := by
  induction tasks generalizing base with
  | nil => exact Pays.done ⟨[], rfl, rfl, rfl, by simp⟩
  | cons t rest ih =>
      obtain ⟨⟨position, p⟩, m⟩ := t
      rw [List.map_cons, List.map_cons, List.sum_cons, add_left_comm, add_comm]
      unfold settleTasks
      have here : p.Spends G (T position) m := h ((position, p), m) (by simp)
      have there : ∀ t ∈ rest, t.1.2.Spends G (T t.1.1) t.2 := fun t ht =>
        h t (List.mem_cons_of_mem _ ht)
      have first : (p.attempt : Process σ ε' _).Pays G
          (fun m r => ∃ d, m = base + (rest.map Prod.snd).sum + d ∧ T position d r)
          (base + (rest.map Prod.snd).sum + m) :=
        (here.shift _).attempt fun m r hr => ⟨r, rfl, hr⟩
      apply first.bind
      rintro _ r ⟨d, rfl, hr⟩
      rw [add_right_comm]
      apply (ih there (base + d)).bind
      rintro _ _ ⟨ys, rfl, rfl, hpositions, hys⟩
      refine Pays.done ⟨((position, r), d) :: ys, rfl, ?_, ?_, List.forall_mem_cons.2 ⟨hr, hys⟩⟩
      · rw [List.map_cons, List.sum_cons, add_assoc]
      · rw [List.map_cons, hpositions]

/-- The position that is taken next is one of those not yet taken. -/
theorem fresh_of_perm {taken rest : List Nat} {position : Nat} (nodup : positions.Nodup)
    (perm : (taken ++ position :: rest).Perm positions) :
    position ∈ positions ∧ position ∉ taken := by
  refine ⟨perm.subset (by simp), ?_⟩
  have both : (taken ++ position :: rest).Nodup := perm.nodup_iff.2 nodup
  have apart := List.nodup_append.1 both
  intro hmem
  exact apart.2.2 position hmem position (by simp) rfl

theorem perm_take {taken rest : List Nat} {position : Nat}
    (perm : (taken ++ position :: rest).Perm positions) :
    ((position :: taken) ++ rest).Perm positions :=
  (List.perm_middle.symm).trans perm

theorem consumeAll_spends (haccepts : Accepts G T I E positions receive) (hstands : Stands T E)
    (nodup : positions.Nodup) {arrivals : List ((Nat × Except ε α) × M)} {taken : List Nat} {m : M}
    {b : β} (harrivals : ∀ a ∈ arrivals, T a.1.1 a.2 a.1.2)
    (perm : (taken ++ (arrivals.map Prod.fst).map Prod.fst).Perm positions) (hb : I taken m b) :
    (consumeAll receive b (arrivals.map Prod.fst)).Spends G
      (fun m => Settles (fun b => ∃ taken, taken.Perm positions ∧ I taken m b) (E m))
      (m + (arrivals.map Prod.snd).sum) := by
  induction arrivals generalizing taken m b with
  | nil =>
      have all : taken.Perm positions := by simpa using perm
      have same : m + (([] : List ((Nat × Except ε α) × M)).map Prod.snd).sum = m := by simp
      rw [same]
      exact ⟨taken, all, hb⟩
  | cons a rest ih =>
      obtain ⟨⟨position, r⟩, d⟩ := a
      obtain ⟨inside, fresh⟩ := fresh_of_perm nodup perm
      have here : T position d r := harrivals ((position, r), d) (by simp)
      have there : ∀ a ∈ rest, T a.1.1 a.2 a.1.2 := fun a ha =>
        harrivals a (List.mem_cons_of_mem _ ha)
      have received := (haccepts taken m b position d r hb inside fresh here).shift
        (rest.map Prod.snd).sum
      rw [List.map_cons, List.map_cons, List.sum_cons, ← add_assoc, add_comm (m + d)]
      refine received.bind ?_ ?_
      · rintro _ b' ⟨m', rfl, hb'⟩
        rw [add_comm]
        exact ih there (perm_take perm) hb'
      · rintro _ e ⟨m', rfl, he⟩
        rw [add_comm]
        exact hstands.sum there he

theorem perm_eraseIdx {i position : Nat} (h : positions[i]? = some position) :
    (position :: positions.eraseIdx i).Perm positions := by
  obtain ⟨inside, rfl⟩ := List.getElem?_eq_some_iff.1 h
  exact List.getElem_cons_eraseIdx_perm inside

theorem map_fst_getElem? {tasks : List (Nat × Process σ ε α)} {i position : Nat}
    {p : Process σ ε α} (hi : tasks[i]? = some (position, p)) :
    (tasks.map Prod.fst)[i]? = some position := by
  rw [List.getElem?_map, hi]
  rfl

/-- A task that leaves takes its position along. -/
theorem perm_leave {tasks : List (Nat × Process σ ε α)} {i position : Nat} {p : Process σ ε α}
    (hi : tasks[i]? = some (position, p)) :
    (tasks.map Prod.fst).Perm (position :: (tasks.eraseIdx i).map Prod.fst) := by
  rw [← List.eraseIdx_map]
  exact (perm_eraseIdx (map_fst_getElem? hi)).symm

/-- Moving a finished task to the end of the hand-overs keeps the positions together. -/
theorem perm_hand_over {tasks : List (Nat × Process σ ε α)} {finished : List (Nat × Except ε α)}
    {taken : List Nat} {i position : Nat} {p : Process σ ε α} (r : Except ε α)
    (hi : tasks[i]? = some (position, p))
    (perm : (taken ++ (finished.map Prod.fst ++ tasks.map Prod.fst)).Perm positions) :
    (taken ++ ((finished ++ [(position, r)]).map Prod.fst ++
      (tasks.eraseIdx i).map Prod.fst)).Perm positions := by
  refine List.Perm.trans (List.Perm.append_left taken ?_) perm
  rw [List.map_append, List.append_assoc]
  exact List.Perm.append_left _ (perm_leave hi).symm

/-- A task that goes on keeps its position. -/
theorem map_fst_set {tasks : List (Nat × Process σ ε α)} {i position : Nat} {p : Process σ ε α}
    (hi : tasks[i]? = some (position, p)) (p' : Process σ ε α) :
    (tasks.set i (position, p')).map Prod.fst = tasks.map Prod.fst := by
  obtain ⟨hlt, hget⟩ := List.getElem?_eq_some_iff.1 hi
  have inside : i < (tasks.map Prod.fst).length := by simpa using hlt
  have here : position = (tasks.map Prod.fst)[i] := by simp [hget]
  rw [List.map_set]
  simp only
  rw [here, List.set_getElem_self]

theorem gatherFrom_spends (haccepts : Accepts G T I E positions receive) (hstands : Stands T E)
    (nodup : positions.Nodup) (schedule : Schedule) {tasks : List ((Nat × Process σ ε α) × M)}
    {finished : List ((Nat × Except ε α) × M)} {taken : List Nat} {consumer : Process σ ε' β}
    {m : M} (htasks : ∀ t ∈ tasks, t.1.2.Spends G (T t.1.1) t.2)
    (hfinished : ∀ a ∈ finished, T a.1.1 a.2 a.1.2)
    (perm : (taken ++ ((finished.map Prod.fst).map Prod.fst ++
      (tasks.map Prod.fst).map Prod.fst)).Perm positions)
    (hconsumer : consumer.Spends G (fun m => Settles (I taken m) (E m)) m) :
    (gatherFrom receive schedule (tasks.map Prod.fst) (finished.map Prod.fst) consumer).Spends G
      (fun m => Settles (fun b => ∃ taken, taken.Perm positions ∧ I taken m b) (E m))
      (m + (finished.map Prod.snd).sum + (tasks.map Prod.snd).sum) := by
  induction schedule generalizing tasks finished taken consumer m with
  | nil =>
      unfold gatherFrom
      refine Spends.bind (settleTasks_spends htasks _) ?_ (by rintro m e ⟨a, ha, _⟩; cases ha)
      rintro _ _ ⟨_, hlast, ys, rfl, rfl, hpositions, hys⟩
      cases hlast
      have arrivals : ∀ a ∈ finished ++ ys, T a.1.1 a.2 a.1.2 := by
        intro a ha
        rcases List.mem_append.1 ha with ha | ha
        · exact hfinished a ha
        · exact hys a ha
      have sums : ∀ m, m + (finished.map Prod.snd).sum + (ys.map Prod.snd).sum =
          ((finished ++ ys).map Prod.snd).sum + m := by
        intro m
        rw [List.map_append, List.sum_append, add_assoc, add_comm]
      rw [sums]
      refine (hconsumer.shift _).bind ?_ ?_
      · rintro _ b ⟨m', rfl, hb⟩
        rw [← List.map_append, add_comm]
        refine consumeAll_spends haccepts hstands nodup arrivals ?_ hb
        rw [List.map_append, List.map_append, hpositions]
        rwa [List.map_map (l := tasks)] at perm
      · rintro _ e ⟨m', rfl, he⟩
        rw [add_comm]
        exact hstands.sum arrivals he
  | cons turn turns ih =>
      cases turn with
      | zero =>
          unfold gatherFrom
          split
          · rename_i update next
            obtain ⟨d, hupdate, hnext⟩ := hconsumer
            refine ⟨d, hupdate, fun s => ?_⟩
            rw [add_right_comm _ _ d, add_right_comm m _ d]
            exact ih htasks hfinished perm (hnext s)
          · rename_i b a rest hrest
            cases finished with
            | nil => cases hrest
            | cons a' finished =>
                obtain ⟨⟨position, r⟩, d⟩ := a'
                cases hrest
                have perm' : (taken ++ position :: ((finished.map Prod.fst).map Prod.fst ++
                    (tasks.map Prod.fst).map Prod.fst)).Perm positions := perm
                obtain ⟨inside, fresh⟩ := fresh_of_perm nodup perm'
                have here : T position d r := hfinished ((position, r), d) (by simp)
                have received := haccepts taken m b position d r hconsumer inside fresh here
                rw [List.map_cons, List.sum_cons, ← add_assoc]
                exact ih htasks (fun a ha => hfinished a (List.mem_cons_of_mem _ ha))
                  (perm_take perm') received
          · exact ih htasks hfinished perm hconsumer
      | succ i =>
          have handOver : ∀ {position : Nat} {p : Process σ ε α} {d : M},
              tasks[i]? = some ((position, p), d) → ∀ r, T position d r →
                (gatherFrom receive turns ((tasks.map Prod.fst).eraseIdx i)
                  (finished.map Prod.fst ++ [(position, r)]) consumer).Spends G
                    (fun m => Settles (fun b => ∃ taken, taken.Perm positions ∧ I taken m b) (E m))
                    (m + (finished.map Prod.snd).sum + (tasks.map Prod.snd).sum) := by
            intro position p d hi r hr
            have gone : (tasks.map Prod.fst)[i]? = some (position, p) := by
              rw [List.getElem?_map, hi]
              rfl
            have moved := @ih (tasks.eraseIdx i) (finished ++ [((position, r), d)]) _ _ _
              (fun t ht => htasks t (List.mem_of_mem_eraseIdx ht))
              (fun x hx => by
                rcases List.mem_append.1 hx with hx | hx
                · exact hfinished x hx
                · rw [List.mem_singleton.1 hx]
                  exact hr)
              (by
                rw [List.map_append, ← List.eraseIdx_map Prod.fst tasks i]
                exact perm_hand_over r gone perm) hconsumer
            rw [List.map_append, List.map_append, List.sum_append,
              ← List.eraseIdx_map Prod.fst tasks i] at moved
            rw [sum_map_eraseIdx Prod.snd hi]
            simpa [add_assoc] using moved
          unfold gatherFrom
          split
          · rename_i position update next hi
            rw [List.getElem?_map, Option.map_eq_some_iff] at hi
            obtain ⟨⟨t, spent⟩, hi, rfl⟩ := hi
            obtain ⟨d, hupdate, hnext⟩ := htasks _ (List.mem_of_getElem? hi)
            refine ⟨d, hupdate, fun s => ?_⟩
            have moved := @ih (tasks.set i ((position, next s), spent + d)) _ _ _ _
              (fun t ht => by
                rcases List.mem_or_eq_of_mem_set ht with ht | rfl
                · exact htasks t ht
                · exact hnext s) hfinished
              (by
                have gone : (tasks.map Prod.fst)[i]? = some (position, step update next) := by
                  rw [List.getElem?_map, hi]
                  rfl
                rw [List.map_set, map_fst_set gone]
                exact perm) hconsumer
            rw [sum_map_set Prod.snd hi rfl, List.map_set, ← add_assoc] at moved
            exact moved
          · rename_i position a hi
            rw [List.getElem?_map, Option.map_eq_some_iff] at hi
            obtain ⟨⟨t, spent⟩, hi, rfl⟩ := hi
            exact handOver hi (.ok a) (htasks _ (List.mem_of_getElem? hi))
          · rename_i position e hi
            rw [List.getElem?_map, Option.map_eq_some_iff] at hi
            obtain ⟨⟨t, spent⟩, hi, rfl⟩ := hi
            exact handOver hi (.error e) (htasks _ (List.mem_of_getElem? hi))
          · exact ih htasks hfinished perm hconsumer

/-- Tasks beside a consumer: under every schedule the consumer takes every position once, and all
that tasks and consumer spend adds up. -/
theorem gather_spends {tasks : List (Nat × Process σ ε α)}
    (haccepts : Accepts G T I E (tasks.map Prod.fst) receive) (hstands : Stands T E)
    (nodup : (tasks.map Prod.fst).Nodup) (schedule : Schedule) {m : M} {b : β}
    (htasks : ∀ t ∈ tasks, t.2.Spends G (T t.1) 0) (hb : I [] m b) :
    (gather receive schedule tasks b).Spends G
      (fun m => Settles (fun b => ∃ taken, taken.Perm (tasks.map Prod.fst) ∧ I taken m b) (E m))
      m := by
  have unpaid : (tasks.map fun t => (t, (0 : M))).map Prod.fst = tasks := by
    rw [List.map_map]
    exact List.map_id _
  have nothing : ((tasks.map fun t => (t, (0 : M))).map Prod.snd).sum = 0 := by
    rw [List.map_map]
    exact List.sum_map_zero
  have untouched : ∀ t ∈ tasks.map fun t => (t, (0 : M)), t.1.2.Spends G (T t.1.1) t.2 := by
    intro t ht
    obtain ⟨task, htask, rfl⟩ := List.mem_map.1 ht
    exact htasks task htask
  have early : ∀ a ∈ ([] : List ((Nat × Except ε α) × M)), T a.1.1 a.2 a.1.2 := by simp
  have ready : (done b : Process σ ε' β).Spends G (fun m => Settles (I [] m) (E m)) m := hb
  have started := gatherFrom_spends haccepts hstands nodup schedule untouched early
    (by rw [unpaid]; exact List.Perm.refl _) ready
  rw [unpaid, nothing, add_zero] at started
  have free : m + (([] : List ((Nat × Except ε α) × M)).map Prod.snd).sum = m := by simp
  rw [free] at started
  exact started

/-- If neither a task nor the consumer can fail, the whole cannot. -/
theorem gather_pays {tasks : List (Nat × Process σ ε α)} {T : Nat → M → α → Prop}
    (hreceive : ∀ taken m b position d a, I taken m b → position ∈ tasks.map Prod.fst →
      position ∉ taken → T position d a →
        (receive b (position, .ok a)).Pays G (I (position :: taken)) (m + d))
    (nodup : (tasks.map Prod.fst).Nodup) (schedule : Schedule) {m : M} {b : β}
    (htasks : ∀ t ∈ tasks, t.2.Pays G (T t.1) 0) (hb : I [] m b) :
    (gather receive schedule tasks b).Pays G
      (fun m b => ∃ taken, taken.Perm (tasks.map Prod.fst) ∧ I taken m b) m := by
  have accepts : Accepts G (fun position d r => ∃ a, r = .ok a ∧ T position d a) I
      (fun _ _ => False) (tasks.map Prod.fst) receive := by
    rintro taken m b position d _ hI inside fresh ⟨a, rfl, ha⟩
    refine Spends.mono (hreceive taken m b position d a hI inside fresh ha) ?_
    rintro _ _ ⟨b', rfl, hb'⟩
    exact hb'
  refine (gather_spends accepts (fun _ _ _ _ _ he _ => he) nodup schedule htasks hb).mono ?_
  intro m r hr
  cases r with
  | ok b => exact ⟨b, rfl, hr⟩
  | error e => exact hr.elim

/-- Where nothing is counted, every position is taken once. -/
theorem gather_yields {H : σ → σ → Prop} {tasks : List (Nat × Process σ ε α)}
    {T : Nat → α → Prop} {I : List Nat → β → Prop}
    (hreceive : ∀ taken b position a, I taken b → position ∈ tasks.map Prod.fst →
      position ∉ taken → T position a →
        (receive b (position, .ok a)).Yields H (I (position :: taken)))
    (nodup : (tasks.map Prod.fst).Nodup) (schedule : Schedule) {b : β}
    (htasks : ∀ t ∈ tasks, t.2.Yields H (T t.1)) (hb : I [] b) :
    (gather receive schedule tasks b).Yields H
      fun b => ∃ taken, taken.Perm (tasks.map Prod.fst) ∧ I taken b :=
  yields_iff_pays.1 (gather_pays (m := (0 : Nat)) (I := fun taken _ b => I taken b)
    (T := fun position _ a => T position a)
    (fun taken _ b position _ a hI inside fresh ha =>
      yields_iff_pays.2 (hreceive taken b position a hI inside fresh ha))
    nodup schedule (fun t ht => yields_iff_pays.2 (htasks t ht)) hb)

/-- Taking hand-overs in two portions. -/
theorem consumeAll_append (receive : β → Nat × Except ε α → Process σ ε' β) (b : β)
    (xs ys : List (Nat × Except ε α)) :
    consumeAll receive b (xs ++ ys) =
      (consumeAll receive b xs).bind fun b => consumeAll receive b ys := by
  induction xs generalizing b with
  | nil => rfl
  | cons x xs ih =>
      show (receive b x).bind (fun b => consumeAll receive b (xs ++ ys)) =
        ((receive b x).bind fun b => consumeAll receive b xs).bind
          fun b => consumeAll receive b ys
      rw [Process.bind_assoc]
      exact congrArg _ (funext ih)

/-! Tasks without any action are handed over in an order that the schedule alone decides. -/

/-- The order in which a schedule has tasks without any action handed over. -/
def handOvers : Schedule → List Nat → List Nat
  | [], positions => positions
  | 0 :: turns, positions => handOvers turns positions
  | (i + 1) :: turns, positions =>
    match positions[i]? with
    | some position => position :: handOvers turns (positions.eraseIdx i)
    | none => handOvers turns positions

theorem handOvers_turn {turns : Schedule} {i position : Nat} (h : positions[i]? = some position) :
    handOvers ((i + 1) :: turns) positions =
      position :: handOvers turns (positions.eraseIdx i) := by
  rw [handOvers, h]

theorem handOvers_perm (schedule : Schedule) (positions : List Nat) :
    (handOvers schedule positions).Perm positions := by
  induction schedule generalizing positions with
  | nil => exact List.Perm.refl _
  | cons turn turns ih =>
      cases turn with
      | zero => exact ih positions
      | succ i =>
          cases hi : positions[i]? with
          | none =>
              rw [handOvers, hi]
              exact ih positions
          | some position =>
              rw [handOvers_turn hi]
              exact ((ih _).cons position).trans (perm_eraseIdx hi)

/-- Every order is that of some schedule. -/
theorem exists_handOvers {order : List Nat} (h : order.Perm positions) :
    ∃ schedule, handOvers schedule positions = order := by
  induction order generalizing positions with
  | nil => exact ⟨[], h.symm.eq_nil⟩
  | cons position order ih =>
      obtain ⟨i, hi⟩ := List.getElem?_of_mem (h.subset List.mem_cons_self)
      obtain ⟨turns, hturns⟩ := ih (h.trans (perm_eraseIdx hi).symm).cons_inv
      exact ⟨(i + 1) :: turns, by rw [handOvers_turn hi, hturns]⟩

theorem settleTasks_eq {result : Nat → Except ε α} {tasks : List (Nat × Process σ ε α)}
    (htasks : ∀ t ∈ tasks, t.2 = Process.ofExcept (result t.1)) :
    (settleTasks tasks : Process σ ε' _) =
      done ((tasks.map Prod.fst).map fun position => (position, result position)) := by
  induction tasks with
  | nil => rfl
  | cons t tasks ih =>
      obtain ⟨position, p⟩ := t
      have here : p = Process.ofExcept (result position) := htasks (position, p) (by simp)
      unfold settleTasks
      rw [here, ih fun t ht => htasks t (List.mem_cons_of_mem _ ht)]
      cases hresult : result position with
      | ok a => simp [Process.ofExcept, attempt, hresult]
      | error e => simp [Process.ofExcept, attempt, hresult]

/-- Beside tasks without any action, a consumer takes their outcomes in that order, whenever it is
its turn. -/
theorem gatherFrom_eq {result : Nat → Except ε α} (schedule : Schedule)
    {tasks : List (Nat × Process σ ε α)}
    (htasks : ∀ t ∈ tasks, t.2 = Process.ofExcept (result t.1))
    (finished : List (Nat × Except ε α)) (consumer : Process σ ε' β) :
    gatherFrom receive schedule tasks finished consumer = consumer.bind fun b =>
      consumeAll receive b (finished ++ (handOvers schedule (tasks.map Prod.fst)).map
        fun position => (position, result position)) := by
  induction schedule generalizing tasks finished consumer with
  | nil =>
      unfold gatherFrom
      rw [settleTasks_eq htasks]
      rfl
  | cons turn turns ih =>
      cases turn with
      | zero =>
          cases consumer with
          | done b =>
              cases finished with
              | nil => exact gatherFrom_wait b ▸ ih htasks [] (done b)
              | cons a rest => exact gatherFrom_take a rest b ▸ ih htasks rest (receive b a)
          | fail e => exact gatherFrom_failed e ▸ ih htasks finished (fail e)
          | step update next =>
              rw [gatherFrom_consumer_step, bind_step]
              exact congrArg _ (funext fun s => ih htasks finished (next s))
      | succ i =>
          cases hi : tasks[i]? with
          | none =>
              have gone : (tasks.map Prod.fst)[i]? = none := by rw [List.getElem?_map, hi]; rfl
              rw [gatherFrom_absent hi, handOvers, gone]
              exact ih htasks finished consumer
          | some t =>
              obtain ⟨position, p⟩ := t
              have ready : p = Process.ofExcept (result position) :=
                htasks (position, p) (List.mem_of_getElem? hi)
              subst ready
              rw [gatherFrom_hand_over hi,
                ih (fun t ht => htasks t (List.mem_of_mem_eraseIdx ht)),
                handOvers_turn (map_fst_getElem? hi), List.eraseIdx_map]
              simp only [List.append_assoc]
              rfl

end Gather

end Process

end SealedMatch
