/-
Module: SealedMatch.Proofs.Matching.Streams
Purpose: Features are handed over once each, with all of their ciphertexts, in whatever order
  workers finish.
Trusted boundary: none
Main exports: Takes, Absorbs, foldFeatures_spends, Filed, receiveArrival_spends, foldOnHost_spends,
  foldOnHost_yields
-/
import SealedMatch.Matching.Strategy
import SealedMatch.Proofs.Engine.Clear
import SealedMatch.Proofs.Matching.Regroup
import SealedMatch.Proofs.Process.Interleave

namespace SealedMatch

open Process hiding bind bind_assoc

/-! ### Taking features in order -/

section Taking

variable {σ C β γ M : Type} [AddCommMonoid M] {G : M → σ → σ → Prop} {H : σ → σ → Prop}
  {R : C → γ → Prop} {rows : List (List γ)} {J : M → List Nat → β → Prop}
  {K : List Nat → β → Prop} {E : Failure → Prop} {receive : β → Nat × List C → Process σ Failure β}

/-- A receiving step that keeps an invariant of what has been spent and of the features taken so
far, the last one first, as long as each comes once and with the entries of its row. It may only
fail as `E` says. -/
def Absorbs (G : M → σ → σ → Prop) (R : C → γ → Prop) (rows : List (List γ))
    (J : M → List Nat → β → Prop) (E : Failure → Prop)
    (receive : β → Nat × List C → Process σ Failure β) : Prop :=
  ∀ m done b f cs row, J m done b → f ∉ done → rows[f]? = some row → List.Forall₂ R cs row →
    (receive b (f, cs)).Spends G (fun m => Settles (J m (f :: done)) E) m

/-- A receiving step that cannot fail and keeps an invariant of the features taken so far, the last
one first, as long as each comes once and with the entries of its row. -/
def Takes (H : σ → σ → Prop) (R : C → γ → Prop) (rows : List (List γ)) (K : List Nat → β → Prop)
    (receive : β → Nat × List C → Process σ Failure β) : Prop :=
  ∀ done b f cs row, K done b → f ∉ done → rows[f]? = some row → List.Forall₂ R cs row →
    (receive b (f, cs)).Yields H (K (f :: done))

theorem Takes.absorbs (h : Takes H R rows K receive) :
    Absorbs (fun _ : M => H) R rows (fun _ => K) (fun _ => False) receive :=
  fun _ done b f cs row hb hf hrow hcs =>
    yields_iff_settles.1 (h done b f cs row hb hf hrow hcs)

/-- Features that have been taken stay taken. -/
theorem Absorbs.keep_suffix (h : Absorbs G R rows J E receive) (early : List Nat) :
    Absorbs G R rows (fun m done b => J m done b ∧ early <:+ done) E receive := by
  rintro m done b f cs row ⟨hb, hearly⟩ hf hrow hcs
  refine (h m done b f cs row hb hf hrow hcs).mono fun m r hr => ?_
  cases r with
  | ok b => exact ⟨hr, hearly.trans (List.suffix_cons f done)⟩
  | error e => exact hr

theorem foldFeatures_spends (habsorbs : Absorbs G R rows J E receive)
    {features : List (Nat × List C)} {done : List Nat} {m : M} {b : β} (hb : J m done b)
    (fresh : ((features.map Prod.fst).reverse ++ done).Nodup)
    (hfeatures : ∀ x ∈ features, ∃ row, rows[x.1]? = some row ∧ List.Forall₂ R x.2 row) :
    (foldFeatures receive b features).Spends G
      (fun m => Settles (J m ((features.map Prod.fst).reverse ++ done)) E) m := by
  induction features generalizing done m b with
  | nil => exact hb
  | cons x rest ih =>
      obtain ⟨f, cs⟩ := x
      obtain ⟨row, hrow, hcs⟩ := hfeatures (f, cs) (by simp)
      have order : ((rest.map Prod.fst).reverse ++ f :: done) =
          ((((f, cs) :: rest).map Prod.fst).reverse ++ done) := by simp
      rw [← order] at fresh ⊢
      have hf : f ∉ done := by
        have tail := (List.nodup_append.1 fresh).2.1
        exact (List.nodup_cons.1 tail).1
      unfold foldFeatures
      refine (habsorbs m done b f cs row hb hf hrow hcs).bind ?_ fun _ _ he => he
      intro m b' hb'
      exact ih hb' fresh fun x hx => hfeatures x (List.mem_cons_of_mem _ hx)

/-- A buffer of all entries is cut into all features, which are taken in order. -/
theorem foldFeatures_cutOutputs_spends (habsorbs : Absorbs G R rows J E receive)
    {plan : LookupPlan}
    (hcut : plan.cutOutputs rows.flatten = rows.mapIdx fun f row => (f, row)) {outputs : List C}
    (houtputs : List.Forall₂ R outputs rows.flatten) {m : M} {b : β} (hb : J m [] b) :
    (foldFeatures receive b (plan.cutOutputs outputs)).Spends G
      (fun m => Settles (J m (List.range rows.length).reverse) E) m := by
  have cut := plan.cutOutputs_related houtputs
  rw [hcut] at cut
  have indices : (rows.mapIdx fun f row => (f, row)).map Prod.fst = List.range rows.length := by
    apply List.ext_getElem (by simp)
    intro f hf hf'
    simp
  have names : (plan.cutOutputs outputs).map Prod.fst = List.range rows.length := by
    rw [← indices, ← List.forall₂_eq_eq_eq, List.forall₂_map_left_iff, List.forall₂_map_right_iff]
    exact cut.imp fun _ _ h => h.1
  have taken : ((plan.cutOutputs outputs).map Prod.fst).reverse ++ [] =
      (List.range rows.length).reverse := by
    rw [names, List.append_nil]
  rw [← taken]
  refine foldFeatures_spends habsorbs hb ?_ ?_
  · rw [taken]
    exact (List.reverse_perm _).nodup_iff.2 List.nodup_range
  · intro x hx
    obtain ⟨f, hf, hget⟩ := List.getElem_of_mem hx
    obtain ⟨hlength, each⟩ := List.forall₂_iff_get.1 cut
    have here := each f hf (hlength ▸ hf)
    simp only [List.get_eq_getElem, List.getElem_mapIdx] at here
    rw [hget] at here
    have inside : f < rows.length := by
      have : (rows.mapIdx fun f row => (f, row)).length = rows.length := by simp
      omega
    exact ⟨rows[f], by rw [here.1]; exact List.getElem?_eq_getElem inside, here.2⟩

theorem foldFeatures_cutOutputs (htakes : Takes H R rows K receive) {plan : LookupPlan}
    (hcut : plan.cutOutputs rows.flatten = rows.mapIdx fun f row => (f, row)) {outputs : List C}
    (houtputs : List.Forall₂ R outputs rows.flatten) {b : β} (hb : K [] b) :
    (foldFeatures receive b (plan.cutOutputs outputs)).Yields H fun b =>
      ∃ done, done.Perm (List.range rows.length) ∧ K done b := by
  have folded : (foldFeatures receive b (plan.cutOutputs outputs)).Yields H
      (K (List.range rows.length).reverse) :=
    yields_iff_settles.2 (foldFeatures_cutOutputs_spends (m := (0 : Nat)) htakes.absorbs hcut
      houtputs hb)
  exact folded.mono fun b hb => ⟨_, List.reverse_perm _, hb⟩

/-! ### Taking arrivals -/

/-- The spots of the positions that have been taken. -/
def seenBy (rows : List (List γ)) (taken : List Nat) (spot : Nat × Nat) : Prop :=
  ∃ position ∈ taken, (spots rows)[position]? = some spot

theorem seenBy_cons {taken : List Nat} {position : Nat} {spot : Nat × Nat}
    (h : (spots rows)[position]? = some spot) (other : Nat × Nat) :
    seenBy rows (position :: taken) other ↔ other = spot ∨ seenBy rows taken other := by
  unfold seenBy
  simp only [List.mem_cons]
  constructor
  · rintro ⟨p, rfl | hp, hother⟩
    · rw [h] at hother
      cases hother
      exact Or.inl rfl
    · exact Or.inr ⟨p, hp, hother⟩
  · rintro (rfl | ⟨p, hp, hother⟩)
    · exact ⟨position, Or.inl rfl, h⟩
    · exact ⟨p, Or.inr hp, hother⟩

/-- Positions have spots of their own. -/
theorem not_seenBy {taken : List Nat} {position : Nat} {spot : Nat × Nat}
    (h : (spots rows)[position]? = some spot) (fresh : position ∉ taken) :
    ¬ seenBy rows taken spot := by
  rintro ⟨p, hp, hspot⟩
  have inside : position < (spots rows).length := (List.getElem?_eq_some_iff.1 h).1
  have same : position = p := (List.getElem?_inj inside nodup_spots).1 (h.trans hspot.symm)
  exact fresh (same ▸ hp)

/-- Arrivals are regrouped by what has been seen, and the features taken are those seen in full. -/
def Filed (R : C → γ → Prop) (rows : List (List γ)) (K : List Nat → β → Prop)
    (taken : List Nat) (state : Regrouping C × β) : Prop :=
  state.1.Holds R rows (seenBy rows taken) ∧
    ∃ done, K done state.2 ∧ done.Nodup ∧
      ∀ f, f ∈ done ↔ ∃ row, rows[f]? = some row ∧ ∀ j < row.length, seenBy rows taken (f, j)

theorem receiveArrival_spends {plan : LookupPlan} (hplan : plan.Numbers rows)
    (habsorbs : Absorbs G R rows J E receive) {taken : List Nat} {m : M}
    {state : Regrouping C × β} (hstate : Filed R rows (J m) taken state) {position : Nat}
    (hposition : position < rows.flatten.length)
    (fresh : position ∉ taken) {c : C} (hc : ∀ x, rows.flatten[position]? = some x → R c x) :
    (receiveArrival plan receive state (position, .ok c)).Spends G
      (fun m => Settles (Filed R rows (J m) (position :: taken)) E) m := by
  obtain ⟨r, b⟩ := state
  obtain ⟨hr, done, hb, nodup, hdone⟩ := hstate
  have inside : position < (spots rows).length := by rwa [length_spots]
  obtain ⟨⟨f, j⟩, hspot⟩ : ∃ spot, (spots rows)[position]? = some spot :=
    ⟨_, List.getElem?_eq_getElem inside⟩
  have unseen := not_seenBy hspot fresh
  obtain ⟨r', feature?, hfile, hr', row, hrow, hcases⟩ :=
    Regrouping.file_holds hplan hr hspot unseen hc
  have seen : seenBy rows (position :: taken) =
      fun spot => spot = (f, j) ∨ seenBy rows taken spot :=
    funext fun spot => propext (seenBy_cons hspot spot)
  obtain ⟨row', hrow', hj⟩ := mem_spots.1 (List.mem_of_getElem? hspot)
  rw [hrow] at hrow'
  cases hrow'
  have others : ∀ {g : Nat}, g ≠ f → ∀ i,
      ((g, i) = (f, j) ∨ seenBy rows taken (g, i)) ↔ seenBy rows taken (g, i) := by
    intro g hg i
    simp [hg]
  have here : ∀ i, ((f, i) = (f, j) ∨ seenBy rows taken (f, i)) ↔
      i = j ∨ seenBy rows taken (f, i) := by
    intro i
    simp
  unfold receiveArrival
  simp only [hfile]
  rcases hcases with ⟨⟨i, hi, hmissing⟩, rfl⟩ | ⟨hall, cs, rfl, hcs⟩
  · refine ⟨by rw [seen]; exact hr', done, hb, nodup, fun g => ?_⟩
    rw [hdone, seen]
    by_cases hg : g = f
    · subst hg
      constructor
      · rintro ⟨row', hrow', hseen⟩
        exact ⟨row', hrow', fun i hi => Or.inr (hseen i hi)⟩
      · rintro ⟨row', hrow', hseen⟩
        rw [hrow] at hrow'
        cases hrow'
        exact absurd ((here i).1 (hseen i hi)) hmissing
    · simp only [others hg]
  · have hf : f ∉ done := by
      intro hmem
      obtain ⟨row', hrow', hseen⟩ := (hdone f).1 hmem
      rw [hrow] at hrow'
      cases hrow'
      exact unseen (hseen j hj)
    refine (habsorbs m done b f cs row hb hf hrow hcs).bind ?_ fun _ _ he => he
    intro m b' hb'
    refine ⟨by rw [seen]; exact hr', f :: done, hb', List.nodup_cons.2 ⟨hf, nodup⟩, fun g => ?_⟩
    rw [List.mem_cons, hdone, seen]
    by_cases hg : g = f
    · subst hg
      constructor
      · exact fun _ => ⟨row, hrow, fun i hi => (here i).2 (hall i hi)⟩
      · exact fun _ => Or.inl rfl
    · simp only [others hg, hg, false_or]

theorem receiveArrival_yields {plan : LookupPlan} (hplan : plan.Numbers rows)
    (htakes : Takes H R rows K receive) {taken : List Nat} {state : Regrouping C × β}
    (hstate : Filed R rows K taken state) {position : Nat}
    (hposition : position < rows.flatten.length)
    (fresh : position ∉ taken) {c : C} (hc : ∀ x, rows.flatten[position]? = some x → R c x) :
    (receiveArrival plan receive state (position, .ok c)).Yields H
      (Filed R rows K (position :: taken)) :=
  yields_iff_settles.2 (receiveArrival_spends (m := (0 : Nat)) hplan htakes.absorbs hstate
    hposition fresh hc)

/-! ### Workers of the host -/

theorem requireWorkers_spends {workers? : Option Int} (hworkers : ∀ e,
    (requireWorkers workers? : Process σ Failure Unit) = .fail e → E e) (m : M) :
    (requireWorkers workers? : Process σ Failure Unit).Spends G
      (fun m' => Settles (fun _ => m' = m) E) m := by
  unfold requireWorkers at hworkers ⊢
  split
  · exact hworkers _ rfl
  · split
    · rfl
    · rename_i hn
      exact hworkers _ (if_neg hn)

theorem requireWorkers_eq {workers? : Option Int} {n : Int} (hworkers : workers? = some n)
    (hn : 1 ≤ n) : (requireWorkers workers? : Process σ Failure Unit) = .done () := by
  unfold requireWorkers
  rw [hworkers]
  exact if_pos hn

theorem requireWorkers_yields {workers? : Option Int} {n : Int} (h : workers? = some n)
    (hn : 1 ≤ n) : (requireWorkers workers? : Process σ Failure Unit).Yields H fun _ => True := by
  rw [requireWorkers_eq h hn]
  exact Yields.done trivial

theorem positionTasks_eq {plan : LookupPlan} {task : C → DigitLookup → Process σ Failure C}
    {cs : List C} (h : cs.length = plan.lookups.length) :
    positionTasks plan task cs =
      (cs.zip plan.lookups).mapIdx fun position x => (position, task x.1 x.2) := by
  unfold positionTasks
  apply List.ext_getElem (by simp [h])
  intro i hi hi'
  have inside : i < cs.length := by
    rw [h]
    simpa using hi
  simp [List.getElem?_eq_getElem inside]

theorem mem_positionTasks {plan : LookupPlan} {task : C → DigitLookup → Process σ Failure C}
    {cs : List C} (h : cs.length = plan.lookups.length) {t : Nat × Process σ Failure C}
    (ht : t ∈ positionTasks plan task cs) :
    ∃ c lookup, cs[t.1]? = some c ∧ t.2 = task c lookup := by
  rw [positionTasks_eq h] at ht
  obtain ⟨i, hi, rfl⟩ := List.getElem_of_mem ht
  have inside : i < cs.length := by
    rw [h]
    simpa [h] using hi
  simp only [List.getElem_mapIdx, List.getElem_zip]
  exact ⟨_, _, List.getElem?_eq_getElem inside, rfl⟩

theorem map_fst_positionTasks {plan : LookupPlan}
    {task : C → DigitLookup → Process σ Failure C} {cs : List C}
    (h : cs.length = plan.lookups.length) :
    (positionTasks plan task cs).map Prod.fst = List.range plan.lookups.length := by
  rw [positionTasks_eq h]
  apply List.ext_getElem (by simp [h])
  intro i hi hi'
  simp

/-- Every position's task does what it does for its entry. -/
theorem positionTasks_spend {plan : LookupPlan} {task : C → DigitLookup → Process σ Failure C}
    {cs : List C} {T : γ → M → Except Failure C → Prop} (h : cs.length = plan.lookups.length)
    (htasks : List.Forall₂ (fun (x : C × DigitLookup) y => (task x.1 x.2).Spends G (T y) 0)
      (cs.zip plan.lookups) rows.flatten) :
    ∀ t ∈ positionTasks plan task cs,
      t.2.Spends G (fun m r => ∀ y, rows.flatten[t.1]? = some y → T y m r) 0 := by
  intro t ht
  rw [positionTasks_eq h] at ht
  obtain ⟨i, hi, rfl⟩ := List.getElem_of_mem ht
  obtain ⟨hsize, each⟩ := List.forall₂_iff_get.1 htasks
  have inside : i < (cs.zip plan.lookups).length := by simpa using hi
  have here := each i inside (hsize ▸ inside)
  simp only [List.get_eq_getElem] at here
  simp only [List.getElem_mapIdx]
  apply here.mono
  intro m r hr y hy
  rw [List.getElem?_eq_getElem (hsize ▸ inside)] at hy
  cases hy
  exact hr

/-- The features without digits are those with an empty row. -/
theorem LookupPlan.Numbers.mem_emptyFeatures {plan : LookupPlan} (hplan : plan.Numbers rows)
    {f : Nat} : f ∈ plan.emptyFeatures ↔ rows[f]? = some [] := by
  rw [LookupPlan.mem_emptyFeatures, hplan.digitCounts_eq, List.getElem?_map]
  simp

/-- Features without digits are taken before any arrival, the first one first. -/
theorem foldEmpty_spends {plan : LookupPlan} (hplan : plan.Numbers rows)
    (habsorbs : Absorbs G R rows J E receive) {m : M} {b : β} (hb : J m [] b) :
    (foldFeatures receive b (plan.emptyFeatures.map fun f => (f, []))).Spends G
      (fun m => Settles (J m plan.emptyFeatures.reverse) E) m := by
  have names : (plan.emptyFeatures.map fun f => (f, ([] : List C))).map Prod.fst =
      plan.emptyFeatures := by
    rw [List.map_map]
    exact List.map_id _
  have taken : ((plan.emptyFeatures.map fun f => (f, ([] : List C))).map Prod.fst).reverse ++ [] =
      plan.emptyFeatures.reverse := by
    rw [names, List.append_nil]
  rw [← taken]
  refine foldFeatures_spends habsorbs hb ?_ ?_
  · rw [taken]
    exact (List.reverse_perm _).nodup_iff.2 LookupPlan.nodup_emptyFeatures
  · intro x hx
    obtain ⟨f, hf, rfl⟩ := List.mem_map.1 hx
    exact ⟨[], hplan.mem_emptyFeatures.1 hf, .nil⟩

theorem foldEmpty_yields {plan : LookupPlan} (hplan : plan.Numbers rows)
    (htakes : Takes H R rows K receive) {b : β} (hb : K [] b) :
    (foldFeatures receive b (plan.emptyFeatures.map fun f => (f, []))).Yields H fun b =>
      ∃ done, K done b ∧ done.Nodup ∧ ∀ f, f ∈ done ↔ rows[f]? = some [] := by
  have folded : (foldFeatures receive b (plan.emptyFeatures.map fun f => (f, []))).Yields H
      (K plan.emptyFeatures.reverse) :=
    yields_iff_settles.2 (foldEmpty_spends (m := (0 : Nat)) hplan htakes.absorbs hb)
  refine folded.mono fun b hb => ⟨_, hb, ?_, fun f => ?_⟩
  · exact (List.reverse_perm _).nodup_iff.2 LookupPlan.nodup_emptyFeatures
  · rw [List.mem_reverse, hplan.mem_emptyFeatures]

theorem filed_start {b : β} {done : List Nat} (hb : K done b) (nodup : done.Nodup)
    (hdone : ∀ f, f ∈ done ↔ rows[f]? = some []) :
    Filed R rows K [] ((Regrouping.empty : Regrouping C), b) := by
  have nothing : seenBy rows [] = fun _ => False :=
    funext fun spot => propext ⟨fun ⟨p, hp, _⟩ => by simp at hp, False.elim⟩
  refine ⟨by rw [nothing]; exact Regrouping.holds_empty, done, hb, nodup, fun f => ?_⟩
  rw [hdone, nothing]
  constructor
  · exact fun h => ⟨[], h, by simp⟩
  · rintro ⟨row, hrow, hall⟩
    cases row with
    | nil => exact hrow
    | cons x xs => exact (hall 0 (by simp)).elim

/-- When all positions have been taken, so have all features. -/
theorem Filed.finish {taken : List Nat} {r : Regrouping C} {b : β}
    (h : Filed R rows K taken (r, b)) (perm : taken.Perm (List.range rows.flatten.length)) :
    ∃ done, done.Perm (List.range rows.length) ∧ K done b := by
  obtain ⟨_, done, hb, nodup, hdone⟩ := h
  refine ⟨done, (List.perm_ext_iff_of_nodup nodup List.nodup_range).2 fun f => ?_, hb⟩
  rw [hdone, List.mem_range]
  constructor
  · rintro ⟨row, hrow, _⟩
    exact (List.getElem?_eq_some_iff.1 hrow).1
  · intro hf
    refine ⟨rows[f], List.getElem?_eq_getElem hf, fun j hj => ?_⟩
    have hmem : (f, j) ∈ spots rows := mem_spots.2 ⟨_, List.getElem?_eq_getElem hf, hj⟩
    obtain ⟨p, hp, hget⟩ := List.getElem_of_mem hmem
    refine ⟨p, perm.symm.subset (List.mem_range.2 (by simpa using hp)), ?_⟩
    rw [List.getElem?_eq_getElem hp, hget]

/-- Whatever the schedule, the workers and their consumer take every feature once, those without
digits first. What the tasks spend, each the same amount, adds up. -/
theorem foldOnHost_spends {plan : LookupPlan} (hplan : plan.Numbers rows)
    (habsorbs : Absorbs G R rows J E receive) (schedule : Schedule) {workers? : Option Int}
    (hworkers : ∀ e, (requireWorkers workers? : Process σ Failure Unit) = .fail e → E e)
    {task : C → DigitLookup → Process σ Failure C} {cs : List C}
    (hlength : cs.length = plan.lookups.length) {a : M}
    (htasks : List.Forall₂ (fun (x : C × DigitLookup) y => (task x.1 x.2).Spends G
      (fun d => Settles (fun c => d = a ∧ R c y) E) 0) (cs.zip plan.lookups) rows.flatten)
    {m : M} {b : β} (hb : J m [] b) :
    (foldOnHost plan schedule workers? task cs receive b).Spends G
      (fun m => Settles (fun b => ∃ m' done, m = m' + rows.flatten.length • a ∧
        done.Perm (List.range rows.length) ∧ plan.emptyFeatures.reverse <:+ done ∧
        J m' done b) E) m := by
  have count : plan.lookups.length = rows.flatten.length := by
    have := htasks.length_eq
    rw [List.length_zip, hlength] at this
    omega
  have positions : (positionTasks plan task cs).map Prod.fst = List.range plan.lookups.length :=
    map_fst_positionTasks hlength
  unfold foldOnHost
  refine (foldEmpty_spends hplan habsorbs hb).bind ?_ fun _ _ he => he
  intro m b hb
  have keeps := habsorbs.keep_suffix plan.emptyFeatures.reverse
  have start : Filed R rows
      (fun done b => J m done b ∧ plan.emptyFeatures.reverse <:+ done) []
      ((Regrouping.empty : Regrouping C), b) := by
    refine filed_start ⟨hb, List.suffix_refl _⟩ ?_ fun f => ?_
    · exact (List.reverse_perm _).nodup_iff.2 LookupPlan.nodup_emptyFeatures
    · rw [List.mem_reverse, hplan.mem_emptyFeatures]
  split
  · rename_i hnone
    have none : rows.flatten.length = 0 := count ▸ hnone
    obtain ⟨done, perm, hb, hearly⟩ := start.finish (by rw [none]; exact List.Perm.nil)
    exact ⟨m, done, by rw [none, zero_nsmul, add_zero], perm, hearly, hb⟩
  · refine (requireWorkers_spends hworkers m).bind ?_ fun _ _ he => he
    rintro _ _ rfl
    -- what arrivals have brought is set apart from what the consumer spends
    refine Spends.bind (gather_spends
      (T := fun position m r => ∀ y, rows.flatten[position]? = some y →
        Settles (fun c => m = a ∧ R c y) E r)
      (I := fun taken m state => ∃ m', m = m' + taken.length • a ∧
        Filed R rows (fun done b => J m' done b ∧ plan.emptyFeatures.reverse <:+ done) taken state)
      (E := fun _ => E) ?_ (fun _ _ _ _ _ he _ => he) (positions ▸ List.nodup_range) schedule
      (positionTasks_spend hlength htasks) ⟨_, by simp, start⟩) ?_ fun _ _ he => he
    · rintro taken _ state position d r ⟨m', rfl, hfiled⟩ inside fresh hr
      rw [positions, List.mem_range, count] at inside
      have here := hr _ (List.getElem?_eq_getElem inside)
      cases r with
      | error e => exact here
      | ok c =>
          obtain ⟨rfl, -⟩ := here
          have received := (receiveArrival_spends hplan keeps hfiled inside fresh
            fun y hy => (hr y hy).2).shift (taken.length • d + d)
          rw [add_comm _ m', ← add_assoc] at received
          refine received.mono fun m r hr => ?_
          obtain ⟨m'', rfl, hr⟩ := hr
          cases r with
          | error e => exact hr
          | ok state =>
              exact ⟨m'', by rw [List.length_cons, succ_nsmul, add_comm], hr⟩
    · rintro _ ⟨r, b⟩ ⟨taken, perm, m', rfl, hfiled⟩
      rw [positions, count] at perm
      obtain ⟨done, hdone, hb, hearly⟩ := hfiled.finish perm
      exact ⟨m', done, by rw [perm.length_eq, List.length_range], hdone, hearly, hb⟩

theorem foldOnHost_yields {plan : LookupPlan} (hplan : plan.Numbers rows)
    (htakes : Takes H R rows K receive) (schedule : Schedule) {workers? : Option Int} {n : Int}
    (hworkers : workers? = some n) (hn : 1 ≤ n) {task : C → DigitLookup → Process σ Failure C}
    {cs : List C} (hlength : cs.length = plan.lookups.length)
    (htasks : List.Forall₂ (fun (x : C × DigitLookup) y => (task x.1 x.2).Yields H fun c => R c y)
      (cs.zip plan.lookups) rows.flatten) {b : β} (hb : K [] b) :
    (foldOnHost plan schedule workers? task cs receive b).Yields H fun b =>
      ∃ done, done.Perm (List.range rows.length) ∧ K done b := by
  have staffed : ∀ e, (requireWorkers workers? : Process σ Failure Unit) = .fail e → False := by
    intro e he
    have hired := requireWorkers_yields (σ := σ) (H := fun _ _ => True) hworkers hn
    rw [he] at hired
    obtain ⟨_, hired, _⟩ := hired
    cases hired
  have each : List.Forall₂ (fun (x : C × DigitLookup) y => (task x.1 x.2).Spends
      (fun _ : Nat => H) (fun d => Settles (fun c => d = 0 ∧ R c y) fun _ => False) 0)
      (cs.zip plan.lookups) rows.flatten := htasks.imp fun x y hx => by
    refine (hx.spends_zero (fun _ _ hH => hH) 0).mono ?_
    rintro d _ ⟨rfl, c, rfl, hc⟩
    exact ⟨rfl, hc⟩
  have folded := foldOnHost_spends (m := (0 : Nat)) hplan htakes.absorbs schedule staffed hlength
    each hb
  refine yields_iff_settles.2 (folded.mono fun _ r hr => ?_)
  cases r with
  | error e => exact hr
  | ok b =>
      obtain ⟨_, done, _, perm, _, hb⟩ := hr
      exact ⟨done, perm, hb⟩

end Taking

end SealedMatch
