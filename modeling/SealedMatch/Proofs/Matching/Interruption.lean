/-
Module: SealedMatch.Proofs.Matching.Interruption
Purpose: Workers whose tasks may fail: what has been yielded when the first failure arrives.
Trusted boundary: none
Main exports: LookupPlan.Interrupted, LookupPlan.Stops, LookupPlan.exists_stops,
  LookupPlan.foldOnHost_stops, LookupPlan.interrupted_any_order
-/
import Mathlib.Algebra.Order.Group.Multiset
import SealedMatch.Proofs.Matching.Arrivals
import SealedMatch.Proofs.Process.Watch

namespace SealedMatch

open Process hiding bind bind_assoc

namespace LookupPlan

variable {α σ : Type} {p : LookupPlan} {features : List (Int × List DigitLookup)}
  {outcome : Nat → Except Failure α}

/-! ### Up to the first failure -/

/-- What has been yielded when a failure stops the workers and the outcomes of the positions
`before` have arrived: exactly the features with no other positions, each once and with the results
of its slice in block order, the features without digits first. A feature with a failing position is
not among them. -/
structure Interrupted (p : LookupPlan) (outcome : Nat → Except Failure α) (before : List Nat)
    (yielded : List (Nat × List α)) : Prop where
  once : (yielded.map Prod.fst).Nodup
  early : (p.emptyFeatures.map fun f => (f, [])) <+: yielded
  complete : ∀ f, f ∈ yielded.map Prod.fst ↔ ∃ start stop, p.slices[f]? = some (start, stop) ∧
    ∀ position, start ≤ position → position < stop → position ∈ before
  digits : ∀ x ∈ yielded, ∃ start stop, p.slices[x.1]? = some (start, stop) ∧
    (List.range' start (stop - start)).map outcome = x.2.map .ok ∧
    ∀ j, start + j < stop →
      p.features[start + j]? = some x.1 ∧ p.blocks[start + j]? = some (j : Int)
  spared : ∀ f start stop, p.slices[f]? = some (start, stop) → ∀ position, start ≤ position →
    position < stop → (∃ e, outcome position = .error e) → f ∉ yielded.map Prod.fst

/-- Outcomes that are handed over in an order stop the workers with the failure that comes first,
when all that has arrived before it has been yielded. -/
def Stops (p : LookupPlan) (outcome : Nat → Except Failure α) (order : List Nat)
    (yielded : List (Nat × List α)) (e : Failure) : Prop :=
  ∃ before position after, order = before ++ position :: after ∧
    (∀ q ∈ before, ∃ c, outcome q = .ok c) ∧ outcome position = .error e ∧
    p.hostFeatures (order.map fun position => (position, outcome position)) = (yielded, some e) ∧
    p.Interrupted outcome before yielded

theorem Stops.hostFeatures_eq {order : List Nat} {yielded : List (Nat × List α)} {e : Failure}
    (h : p.Stops outcome order yielded e) :
    p.hostFeatures (order.map fun position => (position, outcome position)) = (yielded, some e) := by
  obtain ⟨_, _, _, _, _, _, hyields, _⟩ := h
  exact hyields

theorem Stops.exists_failure {order : List Nat} {yielded : List (Nat × List α)} {e : Failure}
    (h : p.Stops outcome order yielded e) : ∃ position, outcome position = .error e := by
  obtain ⟨_, position, _, _, _, he, _⟩ := h
  exact ⟨position, he⟩

/-- The first failure in an order, and the results before it. -/
theorem exists_first_failure {order : List Nat}
    (h : ∃ position ∈ order, ∃ e, outcome position = .error e) :
    ∃ before position after e, order = before ++ position :: after ∧
      (∀ q ∈ before, ∃ c, outcome q = .ok c) ∧ outcome position = .error e := by
  have found : (order.find? fun q => !(outcome q).isOk).isSome := by
    obtain ⟨position, hmem, e, he⟩ := h
    exact List.find?_isSome.2 ⟨position, hmem, by rw [he]; rfl⟩
  obtain ⟨position, hposition⟩ := Option.isSome_iff_exists.1 found
  obtain ⟨failed, before, after, split, passed⟩ := List.find?_eq_some_iff_append.1 hposition
  cases houtcome : outcome position with
  | ok c =>
      rw [houtcome] at failed
      cases failed
  | error e =>
      exact ⟨before, position, after, e, split,
        fun q hq => exists_of_isOk (by simpa using passed q hq), houtcome⟩

/-- What has been collected: the features taken, the last one first, with results of their
positions. -/
def Gathered (p : LookupPlan) (outcome : Nat → Except Failure α) (done : List Nat)
    (yielded : List (Nat × List α)) : Prop :=
  yielded.map Prod.fst = done.reverse ∧ ∀ x ∈ yielded, ∃ row, p.places[x.1]? = some row ∧
    List.Forall₂ (fun c position => outcome position = .ok c) x.2 row

theorem collect_gathers (G : σ → σ → Prop) (outcome : Nat → Except Failure α) :
    Takes G (fun c position => outcome position = .ok c) p.places (p.Gathered outcome)
      collect := by
  rintro done yielded f cs row ⟨hnames, hdigits⟩ _ hrow hcs
  refine Yields.done ⟨?_, ?_⟩
  · rw [List.map_append, hnames, List.reverse_cons]
    rfl
  · intro x hx
    rcases List.mem_append.1 hx with hx | hx
    · exact hdigits x hx
    · rw [List.mem_singleton.1 hx]
      exact ⟨row, hrow, hcs⟩

/-- Outcomes are filed, and the features that are complete have been collected. -/
abbrev FiledOutcomes (p : LookupPlan) (outcome : Nat → Except Failure α) :
    List Nat → Regrouping α × List (Nat × List α) → Prop :=
  Filed (fun c position => outcome position = .ok c) p.places (p.Gathered outcome)

theorem Lays.slice_of_places (h : p.Lays features) {f : Nat} {row : List Nat}
    (hrow : p.places[f]? = some row) :
    ∃ start stop, p.slices[f]? = some (start, stop) ∧ row = List.range' start (stop - start) := by
  have count : p.places.length = p.slices.length := by
    have lengths := congrArg List.length p.map_length_places
    simpa [digitCounts] using lengths
  have inside : f < p.slices.length := count ▸ (List.getElem?_eq_some_iff.1 hrow).1
  have slice : p.slices[f]? = some (p.slices[f].1, p.slices[f].2) := List.getElem?_eq_getElem inside
  have here := h.places_of_slice slice
  rw [hrow] at here
  exact ⟨_, _, slice, Option.some.inj here⟩

/-- A spot of a feature has been seen exactly if its position has been taken. -/
theorem Lays.seenBy_slice (h : p.Lays features) {f start stop j : Nat} (taken : List Nat)
    (hslice : p.slices[f]? = some (start, stop)) (hj : start + j < stop) :
    seenBy p.places taken (f, j) ↔ start + j ∈ taken := by
  have spot := h.spot_at_slice hslice hj
  constructor
  · rintro ⟨q, hq, hspot⟩
    have inside := (List.getElem?_eq_some_iff.1 spot).1
    exact (List.getElem?_inj inside nodup_spots).1 (spot.trans hspot.symm) ▸ hq
  · exact fun hmem => ⟨_, hmem, spot⟩

/-- What has been collected are results of slices. -/
theorem Gathered.digits (h : p.Lays features) (hnumbers : p.Numbers p.places) {done : List Nat}
    {yielded : List (Nat × List α)} (hgathered : p.Gathered outcome done yielded) :
    ∀ x ∈ yielded, ∃ start stop, p.slices[x.1]? = some (start, stop) ∧
      (List.range' start (stop - start)).map outcome = x.2.map .ok ∧
      ∀ j, start + j < stop →
        p.features[start + j]? = some x.1 ∧ p.blocks[start + j]? = some (j : Int) := by
  intro x hx
  obtain ⟨row, hrow, hresults⟩ := hgathered.2 x hx
  obtain ⟨start, stop, hslice, rfl⟩ := h.slice_of_places hrow
  refine ⟨start, stop, hslice, ?_, fun j hj => h.at_slice hnumbers hslice hj⟩
  rw [← List.forall₂_eq_eq_eq, List.forall₂_map_left_iff, List.forall₂_map_right_iff]
  exact hresults.flip

/-- A feature has been collected exactly if all positions of its slice have been taken. -/
theorem FiledOutcomes.complete (h : p.Lays features) {before : List Nat}
    {state : Regrouping α × List (Nat × List α)}
    (hstate : p.FiledOutcomes outcome before.reverse state) (f : Nat) :
    f ∈ state.2.map Prod.fst ↔ ∃ start stop, p.slices[f]? = some (start, stop) ∧
      ∀ position, start ≤ position → position < stop → position ∈ before := by
  obtain ⟨-, done, ⟨hnames, -⟩, -, hdone⟩ := hstate
  rw [hnames, List.mem_reverse, hdone]
  constructor
  · rintro ⟨row, hrow, hseen⟩
    obtain ⟨start, stop, hslice, rfl⟩ := h.slice_of_places hrow
    refine ⟨start, stop, hslice, fun position hlow hhigh => ?_⟩
    obtain ⟨j, rfl⟩ := Nat.exists_eq_add_of_le hlow
    have seen := hseen j (by rw [List.length_range']; omega)
    exact List.mem_reverse.1 ((h.seenBy_slice _ hslice hhigh).1 seen)
  · rintro ⟨start, stop, hslice, harrived⟩
    refine ⟨_, h.places_of_slice hslice, fun j hj => ?_⟩
    rw [List.length_range'] at hj
    have inside : start + j < stop := by omega
    exact (h.seenBy_slice _ hslice inside).2
      (List.mem_reverse.2 (harrived _ (Nat.le_add_right _ _) inside))

/-- What has been filed is what an interruption finds. -/
theorem FiledOutcomes.interrupted (h : p.Lays features) (hnumbers : p.Numbers p.places)
    {before : List Nat} {state : Regrouping α × List (Nat × List α)}
    (hstate : p.FiledOutcomes outcome before.reverse state)
    (hearly : (p.emptyFeatures.map fun f => (f, [])) <+: state.2) :
    p.Interrupted outcome before state.2 := by
  have complete := hstate.complete h
  obtain ⟨-, done, hgathered, nodup, -⟩ := hstate
  have digits := hgathered.digits h hnumbers
  refine ⟨?_, hearly, complete, digits, ?_⟩
  · rw [hgathered.1]
    exact List.nodup_reverse.2 nodup
  · rintro f start stop hslice position hlow hhigh ⟨e, he⟩ hmem
    obtain ⟨x, hx, rfl⟩ := List.mem_map.1 hmem
    obtain ⟨start', stop', hslice', hresults, _⟩ := digits x hx
    rw [hslice] at hslice'
    cases hslice'
    have listed : outcome position ∈ (List.range' start (stop - start)).map outcome :=
      List.mem_map_of_mem (List.mem_range'_1.2 (by omega))
    rw [hresults, he] at listed
    obtain ⟨c, _, hc⟩ := List.mem_map.1 listed
    cases hc

/-- The first failure that arrives ends what the host yields. -/
theorem hostFeatures_of_failure {arrived : List (Nat × Except Failure α)}
    {state : Regrouping α × List (Nat × List α)}
    (h : consumeAll (receiveArrival p (collect (σ := σ))) p.collectStart arrived = .done state)
    (position : Nat) (e : Failure) (rest : List (Nat × Except Failure α)) :
    (p.emptyFeatures.map fun f => (f, [])) <+: state.2 ∧
      p.hostFeatures (arrived ++ (position, .error e) :: rest) = (state.2, some e) := by
  obtain ⟨more, hall, hregroup⟩ := regroupFrom_append h ((position, .error e) :: rest)
  unfold hostFeatures regroup
  rw [hregroup, hall]
  simp [regroupFrom]

/-! ### What has been taken -/

/-- Outcomes without a failure have been taken one after the other. -/
structure Consumed (p : LookupPlan) (outcome : Nat → Except Failure α) (before : List Nat)
    (state : Regrouping α × List (Nat × List α)) : Prop where
  nodup : before.Nodup
  results : ∀ q ∈ before, q < p.lookupCount ∧ ∃ c, outcome q = .ok c
  taken : consumeAll (receiveArrival p (collect (σ := Unit))) p.collectStart
    (before.map fun position => (position, outcome position)) = .done state

theorem exists_consumed (h : p.Lays features) (hnumbers : p.Numbers p.places) {before : List Nat}
    (nodup : before.Nodup) (results : ∀ q ∈ before, q < p.lookupCount ∧ ∃ c, outcome q = .ok c) :
    ∃ state, p.Consumed outcome before state ∧ p.FiledOutcomes outcome before.reverse state := by
  obtain ⟨state, taken, filed⟩ := consumeAll_filed h hnumbers
    (collect_gathers (σ := Unit) (fun _ _ => True) outcome) ⟨rfl, by simp⟩ nodup fun q hq => by
      obtain ⟨inside, c, hc⟩ := results q hq
      exact ⟨inside, c, hc, hc⟩
  exact ⟨state, ⟨nodup, results, taken⟩, filed⟩

namespace Consumed

variable {before : List Nat} {state : Regrouping α × List (Nat × List α)} {position : Nat}

theorem filed (hconsumed : p.Consumed outcome before state) (h : p.Lays features)
    (hnumbers : p.Numbers p.places) : p.FiledOutcomes outcome before.reverse state := by
  obtain ⟨state', hstate', hfiled⟩ := exists_consumed h hnumbers hconsumed.nodup hconsumed.results
  have same := hconsumed.taken.symm.trans hstate'.taken
  cases same
  exact hfiled

/-- A further result can be taken. -/
theorem next (hconsumed : p.Consumed outcome before state) (h : p.Lays features)
    (hnumbers : p.Numbers p.places) (inside : position < p.lookupCount)
    (fresh : position ∉ before) {c : α} (hc : outcome position = .ok c) :
    ∃ state', receiveArrival p (collect (σ := Unit)) state (position, .ok c) = .done state' ∧
      p.Consumed outcome (before ++ [position]) state' := by
  obtain ⟨state', hstate', _⟩ := receiveArrival_filed h hnumbers
    (collect_gathers (σ := Unit) (fun _ _ => True) outcome) (hconsumed.filed h hnumbers) inside
    (fun hmem => fresh (List.mem_reverse.1 hmem)) hc
  refine ⟨state', hstate', ?_, ?_, ?_⟩
  · rw [← List.concat_eq_append]
    exact hconsumed.nodup.concat fresh
  · intro q hq
    rcases List.mem_append.1 hq with hq | hq
    · exact hconsumed.results q hq
    · rw [List.mem_singleton.1 hq]
      exact ⟨inside, c, hc⟩
  · rw [List.map_append, consumeAll_append, hconsumed.taken, bind_done]
    show (receiveArrival p collect state (position, outcome position)).bind _ = _
    rw [hc, hstate']
    rfl

/-- A failure stops the workers. -/
theorem stops (hconsumed : p.Consumed outcome before state) (h : p.Lays features)
    (hnumbers : p.Numbers p.places) {e : Failure} (he : outcome position = .error e)
    (after : List Nat) : p.Stops outcome (before ++ position :: after) state.2 e := by
  obtain ⟨hearly, hhost⟩ := hostFeatures_of_failure hconsumed.taken position e
    (after.map fun position => (position, outcome position))
  have filed := hconsumed.filed h hnumbers
  refine ⟨before, position, after, rfl, fun q hq => (hconsumed.results q hq).2, he, ?_,
    filed.interrupted h hnumbers hearly⟩
  rw [List.map_append, List.map_cons, he]
  exact hhost

/-- What has been taken begins an order of all positions. -/
theorem exists_order (hconsumed : p.Consumed outcome before state)
    (inside : position < p.lookupCount) (fresh : position ∉ before) :
    ∃ after, (before ++ position :: after).Perm (List.range p.lookupCount) := by
  have nodup : (position :: before).Nodup := List.nodup_cons.2 ⟨fresh, hconsumed.nodup⟩
  have within : position :: before ⊆ List.range p.lookupCount := by
    intro q hq
    rcases List.mem_cons.1 hq with rfl | hq
    · exact List.mem_range.2 inside
    · exact List.mem_range.2 (hconsumed.results q hq).1
  obtain ⟨sorted, hsorted, sub⟩ := List.subperm_of_subset nodup within
  obtain ⟨after, hafter⟩ := sub.exists_perm_append
  exact ⟨after, (List.perm_middle.trans (hsorted.symm.append_right after)).trans hafter.symm⟩

end Consumed

/-- In whatever order the outcomes are handed over, the first failure among them stops the
workers. -/
theorem exists_stops (h : p.Lays features) (hnumbers : p.Numbers p.places)
    (hfails : ∃ position < p.lookupCount, ∃ e, outcome position = .error e) {order : List Nat}
    (horder : order.Perm (List.range p.lookupCount)) :
    ∃ yielded e, p.Stops outcome order yielded e := by
  obtain ⟨failing, inside, failure⟩ := hfails
  have listed : failing ∈ order := horder.symm.subset (List.mem_range.2 inside)
  obtain ⟨before, position, after, e, rfl, hbefore, he⟩ :=
    exists_first_failure ⟨failing, listed, failure⟩
  have nodup : (before ++ position :: after).Nodup := horder.nodup_iff.2 List.nodup_range
  have results : ∀ q ∈ before, q < p.lookupCount ∧ ∃ c, outcome q = .ok c := fun q hq =>
    ⟨List.mem_range.1 (horder.subset (List.mem_append_left _ hq)), hbefore q hq⟩
  obtain ⟨state, hconsumed, _⟩ := exists_consumed h hnumbers (List.nodup_append.1 nodup).1 results
  exact ⟨state.2, e, hconsumed.stops h hnumbers he after⟩

/-! ### Workers that act

A consumer that takes a note of every feature leaves a record of what it has been handed over, also
if it is stopped. Notes are counted by multisets, since other actions come in between. -/

/-- Take a note of a feature, and keep it. -/
def record (features : List (Nat × List α)) (feature : Nat × List α) :
    Process (Watched σ (Nat × List α)) Failure (List (Nat × List α)) :=
  .step (Watched.note feature) fun _ => .done (features ++ [feature])

/-- An action that takes notes. -/
def Notes (noted : Multiset (Nat × List α)) (w w' : Watched σ (Nat × List α)) : Prop :=
  (w'.notes : Multiset (Nat × List α)) = w.notes + noted

/-- Alone, a process leaves the notes that its actions take. -/
theorem run_noted {β : Type} {Q : Multiset (Nat × List α) → Except Failure β → Prop}
    {q : Process (Watched σ (Nat × List α)) Failure β} (hq : q.Spends Notes Q 0)
    (w : Watched σ (Nat × List α)) :
    ∃ noted, ((q.run w).2.notes : Multiset (Nat × List α)) = w.notes + noted ∧
      Q noted (q.run w).1 := by
  have viewed : q.Spends (fun noted w w' =>
      (w'.notes : Multiset (Nat × List α)) = w.notes + noted) Q 0 := hq
  obtain ⟨noted, hnotes, hQ⟩ := viewed.run w
  rw [zero_add] at hQ
  exact ⟨noted, hnotes, hQ⟩

theorem record_spends (features : List (Nat × List α)) (feature : Nat × List α) :
    (record (σ := σ) features feature).Spends Notes
      (fun m r => r = .ok (features ++ [feature]) ∧ m = ↑(features ++ [feature])) ↑features :=
  ⟨↑[feature], fun w => (Multiset.coe_add w.notes [feature]).symm,
    fun _ => ⟨rfl, Multiset.coe_add features [feature]⟩⟩

theorem foldFeatures_record (early late : List (Nat × List α)) :
    (foldFeatures (record (σ := σ)) early late).Spends Notes
      (fun m r => r = .ok (early ++ late) ∧ m = ↑(early ++ late)) ↑early := by
  induction late generalizing early with
  | nil =>
      rw [List.append_nil]
      exact ⟨rfl, rfl⟩
  | cons feature late ih =>
      refine (record_spends early feature).bind ?_ ?_
      · rintro _ features ⟨hfeatures, rfl⟩
        cases hfeatures
        rw [List.append_cons]
        exact ih (early ++ [feature])
      · rintro _ e ⟨he, _⟩
        cases he

/-- What is collected of an arrival is noted. -/
theorem receiveArrival_record {r : Regrouping α} {features : List (Nat × List α)} {position : Nat}
    {c : α} {state : Regrouping α × List (Nat × List α)}
    (h : receiveArrival p (collect (σ := Unit)) (r, features) (position, .ok c) = .done state) :
    (receiveArrival p (record (σ := σ)) (r, features) (position, .ok c)).Spends Notes
      (fun m x => x = .ok state ∧ m = ↑state.2) ↑features := by
  unfold receiveArrival at h ⊢
  cases hfile : r.file p position c with
  | error e =>
      simp only [hfile] at h
      cases h
  | ok filed =>
      obtain ⟨r', feature?⟩ := filed
      cases feature? with
      | none =>
          simp only [hfile] at h ⊢
          cases h
          exact ⟨rfl, rfl⟩
      | some feature =>
          simp only [hfile] at h ⊢
          cases h
          refine (record_spends features feature).bind ?_ ?_
          · rintro _ kept ⟨hkept, rfl⟩
            cases hkept
            exact ⟨rfl, rfl⟩
          · rintro _ e ⟨he, _⟩
            cases he

/-- What has been noted when the failure of a position has been met. -/
def Met (p : LookupPlan) (outcome : Nat → Except Failure α) (noted : Multiset (Nat × List α))
    (e : Failure) : Prop :=
  ∃ before position state, p.Consumed outcome before state ∧ position < p.lookupCount ∧
    position ∉ before ∧ outcome position = .error e ∧ noted = ↑state.2

/-- Results are taken and noted, up to the first failure. -/
theorem receiveArrival_accepts (h : p.Lays features) (hnumbers : p.Numbers p.places) :
    Accepts Notes (fun position d r => d = 0 ∧ r = outcome position)
      (fun taken m state => p.Consumed outcome taken.reverse state ∧ m = ↑state.2)
      (p.Met outcome) (List.range p.lookupCount) (receiveArrival p (record (σ := σ))) := by
  rintro taken _ state position _ r ⟨hconsumed, rfl⟩ hposition fresh ⟨rfl, rfl⟩
  have inside := List.mem_range.1 hposition
  have unseen : position ∉ taken.reverse := fun hmem => fresh (List.mem_reverse.1 hmem)
  rw [add_zero]
  cases houtcome : outcome position with
  | error e => exact ⟨_, position, state, hconsumed, inside, unseen, houtcome, rfl⟩
  | ok c =>
      obtain ⟨next, hnext, hconsumed'⟩ := hconsumed.next h hnumbers inside unseen houtcome
      refine (receiveArrival_record hnext).mono ?_
      rintro _ _ ⟨rfl, rfl⟩
      rw [← List.reverse_cons] at hconsumed'
      exact ⟨hconsumed', rfl⟩

/-- Whatever actions the workers take, and whenever it is whose turn, the failure that arrives first
ends them, and what has been noted is what has been yielded by then. -/
theorem foldOnHost_stops (h : p.Lays features) (hnumbers : p.Numbers p.places)
    (hfails : ∃ position < p.lookupCount, ∃ e, outcome position = .error e)
    {workers? : Option Int} {n : Int} (hworkers : workers? = some n) (hn : 1 ≤ n)
    {task : α → DigitLookup → Process (Watched σ (Nat × List α)) Failure α} {cs : List α}
    (hlength : cs.length = p.lookupCount)
    (htasks : ∀ t ∈ positionTasks p task cs,
      t.2.Always (fun w w' => w'.notes = w.notes) fun r => r = outcome t.1) (schedule : Schedule) :
    (foldOnHost p schedule workers? task cs record []).Spends Notes
      (fun m r => ∃ order yielded e, order.Perm (List.range p.lookupCount) ∧
        p.Stops outcome order yielded e ∧ r = .error e ∧ m = ↑yielded) 0 := by
  have positions : (positionTasks p task cs).map Prod.fst = List.range p.lookupCount :=
    map_fst_positionTasks hlength
  obtain ⟨failing, inside, failure, hfailure⟩ := hfails
  unfold foldOnHost
  refine (foldFeatures_record [] _).bind ?_ ?_
  · rintro _ _ ⟨hearly, rfl⟩
    cases hearly
    rw [if_neg (Nat.ne_zero_of_lt inside), requireWorkers_eq hworkers hn, bind_eq, bind_done]
    -- a task notes nothing, so the amounts are the consumer's
    refine Spends.bind (gather_spends (positions ▸ receiveArrival_accepts h hnumbers) ?_
      (positions ▸ List.nodup_range) schedule (fun t ht => (htasks t ht).spends_zero ?_ 0)
      ⟨⟨List.nodup_nil, by simp, rfl⟩, rfl⟩) ?_ ?_
    · rintro m e position _ r hmet ⟨rfl, _⟩
      rwa [add_zero]
    · intro w w' hsame
      exact (congrArg _ hsame).trans (add_zero _).symm
    · rintro _ state ⟨taken, perm, hconsumed, _⟩
      rw [positions] at perm
      have listed := perm.symm.subset (List.mem_range.2 inside)
      obtain ⟨_, c, hc⟩ := hconsumed.results failing (List.mem_reverse.2 listed)
      rw [hfailure] at hc
      cases hc
    · rintro _ e ⟨before, position, state, hconsumed, hposition, fresh, he, rfl⟩
      obtain ⟨after, perm⟩ := hconsumed.exists_order hposition fresh
      exact ⟨_, state.2, e, perm, hconsumed.stops h hnumbers he after, rfl, rfl⟩
  · rintro _ e ⟨he, _⟩
    cases he

section Failing

variable {plan : LookupPlan} {probe : List Int} {compiled : EnrolledTemplate}

/-- For a template with any digit counts and positions of which some fail:

* in whatever order the outcomes arrive, the failure that comes first is what the workers end with,
  and before it exactly those features have been yielded, once each and with the results of their
  slices, that have no position left, which excludes those with a failing position;
* there are workers that finish in this order, and under every schedule in which they do, just that
  is handed over, to whatever consumer;
* whatever actions the workers take, and whenever it is whose turn, they end with the failure that
  comes first in some order, and a consumer that takes notes has been handed over what is yielded
  before it. -/
theorem interrupted_any_order (hcompiled : compiled.Enumerated)
    (hplan : build probe compiled = .ok plan) {workers? : Option Int} {n : Int}
    (hworkers : workers? = some n) (hn : 1 ≤ n)
    (hfails : ∃ position < plan.lookupCount, ∃ e, outcome position = .error e) {β : Type} :
    (∀ order : List Nat, order.Perm (List.range plan.lookupCount) →
      ∃ yielded e, plan.Stops outcome order yielded e ∧
        (∃ schedule, handOvers schedule (List.range plan.lookupCount) = order) ∧
        ∀ (task : α → DigitLookup → Process σ Failure α) (cs : List α),
          cs.length = plan.lookupCount →
          (∀ t ∈ positionTasks plan task cs, t.2 = Process.ofExcept (outcome t.1)) →
          ∀ schedule, handOvers schedule (List.range plan.lookupCount) = order →
            ∀ (receive : β → Nat × List α → Process σ Failure β) (b : β),
              foldOnHost plan schedule workers? task cs receive b =
                (foldFeatures receive b yielded).bind fun _ => .fail e) ∧
      ∀ (task : α → DigitLookup → Process (Watched σ (Nat × List α)) Failure α) (cs : List α),
        cs.length = plan.lookupCount →
        (∀ t ∈ positionTasks plan task cs,
          t.2.Always (fun w w' => w'.notes = w.notes) fun r => r = outcome t.1) →
        ∀ schedule w, ∃ order yielded e, order.Perm (List.range plan.lookupCount) ∧
          plan.Stops outcome order yielded e ∧
          ((foldOnHost plan schedule workers? task cs record []).run w).1 = .error e ∧
          ((foldOnHost plan schedule workers? task cs record []).run w).2.notes.Perm
            (w.notes ++ yielded) := by
  obtain ⟨hlays, hnumbers⟩ := numbers_places hcompiled hplan
  constructor
  · intro order horder
    obtain ⟨yielded, e, hstops⟩ := exists_stops hlays hnumbers hfails horder
    refine ⟨yielded, e, hstops, exists_handOvers horder, ?_⟩
    intro task cs hlength htasks schedule hschedule receive b
    rw [foldOnHost_handOvers plan outcome hworkers hn hlength htasks hschedule,
      hstops.hostFeatures_eq]
    rfl
  · intro task cs hlength htasks schedule w
    have stopped := foldOnHost_stops hlays hnumbers hfails hworkers hn hlength htasks schedule
    obtain ⟨_, hnotes, order, yielded, e, horder, hstops, hrun, rfl⟩ := run_noted stopped w
    rw [Multiset.coe_add] at hnotes
    exact ⟨order, yielded, e, horder, hstops, hrun, Multiset.coe_eq_coe.1 hnotes⟩

end Failing

/-- Outcomes of which one is a failure. -/
def withoutRoom (q : Nat) : Except Failure Nat :=
  if q = 1 then .error (.fault .noRoom) else .ok q

/-- A task that counts its calls. -/
def countedTask (q : Nat) (_ : DigitLookup) : Process (Watched Nat (Nat × List Nat)) Failure Nat :=
  .step (Watched.lift (· + 1)) fun _ => .ofExcept (withoutRoom q)

theorem interrupted_any_order_reversed :
    ∃ plan, build [1, 0, 1] gappedTemplate = .ok plan ∧
      plan.Stops withoutRoom [2, 1, 0] [(1, []), (2, [2])] (.fault .noRoom) ∧
      (∀ (receive : Nat → Nat × List Nat → Process Nat Failure Nat) (b : Nat),
        foldOnHost plan [3, 0, 2, 0] (some 1) (fun q _ => .ofExcept (withoutRoom q)) [0, 1, 2]
            receive b =
          (foldFeatures receive b [(1, []), (2, [2])]).bind fun _ => .fail (.fault .noRoom)) ∧
      ∀ schedule w, ((foldOnHost plan schedule (some 1) countedTask [0, 1, 2] record []).run w).1 =
        .error (.fault .noRoom) := by
  obtain ⟨plan, hplan⟩ : ∃ plan, build [1, 0, 1] gappedTemplate = .ok plan := ⟨_, rfl⟩
  have count : plan.lookupCount = 3 := by
    cases hplan
    rfl
  have order : [2, 1, 0].Perm (List.range plan.lookupCount) := by
    rw [count]
    decide
  have fails : ∃ position < plan.lookupCount, ∃ e, withoutRoom position = .error e :=
    ⟨1, by omega, _, rfl⟩
  have known : ∀ {σ : Type} {task : Nat → DigitLookup → Process σ Failure Nat},
      ∀ t ∈ positionTasks plan task [0, 1, 2], ∃ lookup, t.2 = task t.1 lookup := by
    intro σ task t ht
    have length : [0, 1, 2].length = plan.lookups.length := count.symm
    obtain ⟨c, lookup, hc, htask⟩ := mem_positionTasks length ht
    change (List.range 3)[t.1]? = some c at hc
    obtain ⟨inside, rfl⟩ := List.getElem?_eq_some_iff.1 hc
    rw [List.getElem_range] at htask
    exact ⟨lookup, htask⟩
  obtain ⟨stops, acts⟩ := interrupted_any_order (σ := Nat) (β := Nat) enumerated_gappedTemplate
    hplan (rfl : some (1 : Int) = some 1) le_rfl fails
  obtain ⟨yielded, e, hstops, -, handed⟩ := stops [2, 1, 0] order
  have yields : yielded = [(1, []), (2, [2])] ∧ e = .fault .noRoom := by
    have hyields := hstops.hostFeatures_eq
    cases hplan
    cases hyields
    exact ⟨rfl, rfl⟩
  obtain ⟨rfl, rfl⟩ := yields
  refine ⟨plan, hplan, hstops, ?_, ?_⟩
  · refine handed _ [0, 1, 2] count.symm (fun t ht => ?_) [3, 0, 2, 0] (by rw [count]; rfl)
    obtain ⟨lookup, htask⟩ := known t ht
    exact htask
  · intro schedule w
    obtain ⟨_, _, e, _, hstops, hrun, _⟩ := acts countedTask [0, 1, 2] count.symm
      (fun t ht => by
        obtain ⟨lookup, htask⟩ := known t ht
        rw [htask]
        exact ⟨fun _ => rfl, fun _ => always_ofExcept.2 rfl⟩) schedule w
    obtain ⟨position, he⟩ := hstops.exists_failure
    unfold withoutRoom at he
    split at he
    · cases he
      exact hrun
    · cases he

end LookupPlan

end SealedMatch
