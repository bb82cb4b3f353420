/-
Module: SealedMatch.Proofs.Matching.Plan
Purpose: The flat order of a plan tells every lookup's feature and digit, and loses none.
Trusted boundary: none
Main exports: spots, mem_spots, nodup_spots, getElem?_flatten_of_spot, LookupPlan.Lays,
  LookupPlan.build_eq_ok, LookupPlan.Lays.cutOutputs_flatten, LookupPlan.cutOutputs_related
-/
import Mathlib.Algebra.BigOperators.Group.List.Lemmas
import Mathlib.Algebra.Order.Ring.Nat
import Mathlib.Data.List.Induction
import Mathlib.Data.List.Nodup
import Mathlib.Data.List.TakeDrop
import SealedMatch.Matching.Plan
import SealedMatch.Proofs.Outcome

namespace SealedMatch

/-! ### Rows laid end to end -/

/-- The row and the column of every entry of rows that are laid end to end. -/
def spots {β : Type} (rows : List (List β)) : List (Nat × Nat) :=
  (rows.mapIdx fun f row => (List.range row.length).map fun j => (f, j)).flatten

section Spots

variable {β γ : Type} {rows : List (List β)} {row : List β}

theorem spots_concat :
    spots (rows ++ [row]) =
      spots rows ++ (List.range row.length).map fun j => (rows.length, j) := by
  unfold spots
  rw [List.mapIdx_append, List.flatten_append]
  simp

@[simp] theorem length_spots : (spots rows).length = rows.flatten.length := by
  induction rows using List.reverseRec with
  | nil => rfl
  | append_singleton rows row ih => rw [spots_concat]; simp [ih]

/-- Only the lengths of rows matter. -/
theorem spots_congr {rows' : List (List γ)} (h : rows.map List.length = rows'.map List.length) :
    spots rows = spots rows' := by
  induction rows using List.reverseRec generalizing rows' with
  | nil =>
      cases rows' with
      | nil => rfl
      | cons row rows => simp at h
  | append_singleton rows row ih =>
      cases rows' using List.reverseRec with
      | nil => simp at h
      | append_singleton rows' row' =>
          rw [List.map_append, List.map_append] at h
          obtain ⟨hrows, hrow⟩ := List.append_inj' h rfl
          have count : rows.length = rows'.length := by simpa using congrArg List.length hrows
          have size : row.length = row'.length := by simpa using hrow
          rw [spots_concat, spots_concat, ih hrows, count, size]

/-- An entry has a spot exactly if it exists. -/
theorem mem_spots {f j : Nat} :
    (f, j) ∈ spots rows ↔ ∃ row, rows[f]? = some row ∧ j < row.length := by
  induction rows using List.reverseRec with
  | nil => simp [spots]
  | append_singleton rows row ih =>
      rw [spots_concat, List.mem_append, ih]
      constructor
      · rintro (⟨row', hrow', hj⟩ | hmem)
        · have inside : f < rows.length := (List.getElem?_eq_some_iff.1 hrow').1
          exact ⟨row', by rw [List.getElem?_append_left inside]; exact hrow', hj⟩
        · obtain ⟨j', hj', heq⟩ := List.mem_map.1 hmem
          cases heq
          exact ⟨row, by simp, List.mem_range.1 hj'⟩
      · rintro ⟨row', hrow', hj⟩
        rcases Nat.lt_trichotomy f rows.length with hlt | heq | hgt
        · rw [List.getElem?_append_left hlt] at hrow'
          exact Or.inl ⟨row', hrow', hj⟩
        · subst heq
          simp only [List.getElem?_concat_length, Option.some.injEq] at hrow'
          subst hrow'
          exact Or.inr (List.mem_map.2 ⟨j, List.mem_range.2 hj, rfl⟩)
        · have outside : (rows ++ [row]).length ≤ f := by
            rw [List.length_append]
            exact hgt
          rw [List.getElem?_eq_none outside] at hrow'
          cases hrow'

/-- The columns of rows that are laid end to end. -/
theorem map_snd_spots :
    (spots rows).map Prod.snd = rows.flatMap fun row => List.range row.length := by
  induction rows using List.reverseRec with
  | nil => rfl
  | append_singleton rows row ih =>
      rw [spots_concat, List.map_append, ih, List.flatMap_append, List.map_map]
      simp [Function.comp_def]

theorem nodup_spots : (spots rows).Nodup := by
  induction rows using List.reverseRec with
  | nil => exact List.nodup_nil
  | append_singleton rows row ih =>
      rw [spots_concat]
      refine List.Nodup.append ih ?_ ?_
      · refine List.Nodup.map ?_ List.nodup_range
        intro j j' heq
        cases heq
        rfl
      · rintro ⟨f, j⟩ hleft hright
        obtain ⟨row', hrow', _⟩ := mem_spots.1 hleft
        obtain ⟨j', _, heq⟩ := List.mem_map.1 hright
        cases heq
        simp at hrow'

/-- Laid end to end, entries are found at their spots. -/
theorem getElem?_flatten_of_spot {i f j : Nat} (h : (spots rows)[i]? = some (f, j)) :
    rows.flatten[i]? = rows[f]?.bind (·[j]?) := by
  induction rows using List.reverseRec with
  | nil => simp [spots] at h
  | append_singleton rows row ih =>
      rw [spots_concat] at h
      rw [List.flatten_append]
      rcases Nat.lt_or_ge i (spots rows).length with hlt | hge
      · rw [List.getElem?_append_left hlt] at h
        obtain ⟨row', hrow', _⟩ := mem_spots.1 (List.mem_of_getElem? h)
        have inside : f < rows.length := (List.getElem?_eq_some_iff.1 hrow').1
        rw [List.getElem?_append_left (by simpa using hlt), List.getElem?_append_left inside]
        exact ih h
      · rw [List.getElem?_append_right hge, List.getElem?_map] at h
        obtain ⟨j', hj', heq⟩ := Option.map_eq_some_iff.1 h
        cases heq
        have column : i - (spots rows).length = j := by
          obtain ⟨hsize, hget⟩ := List.getElem?_eq_some_iff.1 hj'
          rwa [List.getElem_range] at hget
        rw [List.getElem?_append_right (by simpa using hge)]
        simp [← column]

end Spots

namespace LookupPlan

/-! ### The layout of a plan -/

/-- A plan holds the lookups of features in order, each with the code of its feature, and tells
where each feature begins and ends. -/
structure Lays (p : LookupPlan) (features : List (Int × List DigitLookup)) : Prop where
  codes_eq : p.codes = features.flatMap fun x => x.2.map fun _ => x.1
  lookups_eq : p.lookups = features.flatMap (·.2)
  features_eq : p.features = (spots (features.map (·.2))).map Prod.fst
  blocks_eq : p.blocks = p.lookups.map (·.block)
  slices_eq : p.slices = (List.range features.length).map fun f =>
    (((features.map (·.2.length)).take f).sum, ((features.map (·.2.length)).take (f + 1)).sum)

theorem lays_empty : empty.Lays [] :=
  ⟨rfl, rfl, rfl, rfl, rfl⟩

theorem Lays.push {p : LookupPlan} {features : List (Int × List DigitLookup)}
    (h : p.Lays features) (code : Int) (lookups : List DigitLookup) :
    (p.push features.length code lookups).Lays (features ++ [(code, lookups)]) := by
  have total : p.lookupCount = (features.map (·.2.length)).sum := by
    unfold lookupCount
    rw [h.lookups_eq, List.length_flatMap]
  refine ⟨?_, ?_, ?_, ?_, ?_⟩
  · simp [LookupPlan.push, h.codes_eq]
  · simp [LookupPlan.push, h.lookups_eq]
  · rw [List.map_append, List.map_singleton, spots_concat, List.map_append, ← h.features_eq]
    simp [LookupPlan.push, Function.comp_def]
  · simp [LookupPlan.push, h.blocks_eq]
  · have earlier : ∀ f ≤ features.length,
        ((features ++ [(code, lookups)]).map (·.2.length)).take f =
          (features.map (·.2.length)).take f := by
      intro f hf
      rw [List.map_append, List.take_append_of_le_length (by simpa using hf)]
    have all : ((features ++ [(code, lookups)]).map (·.2.length)).take (features.length + 1) =
        features.map (·.2.length) ++ [lookups.length] := by
      rw [List.take_of_length_le (by simp)]
      simp
    have last : ((features ++ [(code, lookups)]).map (·.2.length)).take features.length =
        features.map (·.2.length) := by
      rw [earlier _ le_rfl, List.take_of_length_le (by simp)]
    simp only [LookupPlan.push]
    rw [h.slices_eq, List.length_append, List.length_singleton, List.range_succ, List.map_append,
      List.map_singleton, last, all, total, List.sum_append, List.sum_singleton]
    congr 1
    apply List.map_congr_left
    intro f hf
    have hlt : f < features.length := List.mem_range.1 hf
    rw [earlier f (by omega), earlier (f + 1) (by omega)]

/-- Each lookup of a feature covers the code. -/
def Covers (code : Int) (lookups : List DigitLookup) : Prop :=
  ∀ l ∈ lookups, ∃ size, l.codeCount = .ok size ∧ 0 ≤ code ∧ code < size

theorem checkCode_eq_ok {feature : Nat} {code : Int} {lookups : List DigitLookup}
    (h : checkCode feature code lookups = .ok ()) : Covers code lookups := by
  induction lookups with
  | nil => simp [Covers]
  | cons l rest ih =>
      unfold checkCode at h
      obtain ⟨size, hsize, h⟩ := bind_eq_ok h
      split at h
      · rename_i inside
        intro l' hl'
        rcases List.mem_cons.1 hl' with rfl | hl'
        · exact ⟨size, hsize, inside⟩
        · exact ih h l' hl'
      · cases h

theorem extendFrom_eq_ok {p plan : LookupPlan} {before features : List (Int × List DigitLookup)}
    (hp : p.Lays before) (h : p.extendFrom before.length features = .ok plan) :
    plan.Lays (before ++ features) ∧ ∀ x ∈ features, Covers x.1 x.2 := by
  induction features generalizing p before with
  | nil =>
      cases h
      exact ⟨by simpa using hp, by simp⟩
  | cons x rest ih =>
      obtain ⟨code, lookups⟩ := x
      unfold extendFrom at h
      obtain ⟨_, hcheck, h⟩ := bind_eq_ok h
      have next := ih (hp.push code lookups) (by simpa using h)
      refine ⟨by simpa using next.1, ?_⟩
      intro x hx
      rcases List.mem_cons.1 hx with rfl | hx
      · exact checkCode_eq_ok hcheck
      · exact next.2 x hx

/-- A plan that is built pairs the probe codes with the features of the template, all of them
covered. -/
theorem build_eq_ok {probe : List Int} {compiled : EnrolledTemplate} {plan : LookupPlan}
    (h : build probe compiled = .ok plan) :
    probe.length = compiled.lookups.length ∧ plan.Lays (probe.zip compiled.lookups) ∧
      ∀ x ∈ probe.zip compiled.lookups, Covers x.1 x.2 := by
  unfold build at h
  split at h
  · cases h
  · rename_i same
    have laid := extendFrom_eq_ok lays_empty h
    exact ⟨not_not.1 same, by simpa using laid.1, laid.2⟩

/-! ### What the layout tells -/

section Layout

variable {p : LookupPlan} {features : List (Int × List DigitLookup)}

theorem Lays.featureCount_eq (h : p.Lays features) : p.featureCount = features.length := by
  unfold featureCount
  rw [h.slices_eq]
  simp

theorem Lays.digitCounts_eq (h : p.Lays features) : p.digitCounts = features.map (·.2.length) := by
  unfold digitCounts
  rw [h.slices_eq, List.map_map]
  apply List.ext_getElem (by simp)
  intro f hf hf'
  have inside : f < (features.map (·.2.length)).length := hf'
  rw [List.getElem_map, List.getElem_range]
  simp only [Function.comp_apply]
  rw [List.take_add_one, List.getElem?_eq_getElem inside, List.sum_append]
  simp

/-- Cutting undoes laying end to end. -/
theorem Lays.cutOutputs_flatten {β : Type} (h : p.Lays features) {rows : List (List β)}
    (hrows : rows.map List.length = features.map (·.2.length)) :
    p.cutOutputs rows.flatten = rows.mapIdx fun f row => (f, row) := by
  have count : rows.length = features.length := by simpa using congrArg List.length hrows
  refine List.ext_getElem ?_ fun f hf hf' => ?_
  · simp [cutOutputs, h.slices_eq, count]
  · have inside : f < rows.length := by simpa using hf'
    have present : f < p.slices.length := by
      rw [h.slices_eq]
      simpa [count] using inside
    have slice : p.slices[f] =
        (((rows.map List.length).take f).sum, ((rows.map List.length).take (f + 1)).sum) := by
      rw [hrows]
      simp only [h.slices_eq, List.getElem_map, List.getElem_range]
    have row := List.drop_take_succ_flatten_eq_getElem rows f inside
    rw [List.drop_take] at row
    simp only [cutOutputs, List.getElem_mapIdx, slice]
    rw [row]

/-- Related buffers are cut into related features. -/
theorem cutOutputs_related {β γ : Type} {R : β → γ → Prop} {xs : List β} {ys : List γ}
    (h : List.Forall₂ R xs ys) :
    List.Forall₂ (fun x y => x.1 = y.1 ∧ List.Forall₂ R x.2 y.2) (p.cutOutputs xs)
      (p.cutOutputs ys) := by
  unfold cutOutputs
  generalize p.slices = slices
  induction slices using List.reverseRec with
  | nil => exact .nil
  | append_singleton slices slice ih =>
      rw [List.mapIdx_concat, List.mapIdx_concat]
      refine List.rel_append ih (.cons ⟨rfl, ?_⟩ .nil)
      exact List.forall₂_take _ (List.forall₂_drop _ h)

end Layout

end LookupPlan

end SealedMatch
