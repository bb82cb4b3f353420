/-
Module: SealedMatch.Proofs.Matching.Regroup
Purpose: Whatever the order of arrival, a feature comes out once, when its last digit arrives, and
  with its digits in order.
Trusted boundary: none
Main exports: LookupPlan.Numbers, Regrouping.Arrived, Regrouping.Holds, Regrouping.file_holds
-/
import Mathlib.Data.List.Perm.Subperm
import SealedMatch.Matching.Regroup
import SealedMatch.Proofs.Matching.Plan

namespace SealedMatch

variable {α β : Type}

namespace LookupPlan

variable {p : LookupPlan}

/-- Features without digits, each once. -/
theorem mem_emptyFeatures {f : Nat} : f ∈ p.emptyFeatures ↔ p.digitCounts[f]? = some 0 := by
  unfold emptyFeatures
  simp only [List.mem_map, List.mem_filter, beq_iff_eq, Prod.exists]
  constructor
  · rintro ⟨count, f', ⟨hmem, rfl⟩, rfl⟩
    exact List.mem_zipIdx_iff_getElem?.1 hmem
  · intro h
    exact ⟨0, f, ⟨List.mem_zipIdx_iff_getElem?.2 h, rfl⟩, rfl⟩

theorem nodup_emptyFeatures : p.emptyFeatures.Nodup := by
  unfold emptyFeatures
  have indices : ((p.digitCounts.zipIdx).map Prod.snd).Nodup := by
    rw [List.zipIdx_map_snd]
    exact List.nodup_range'
  exact List.Nodup.sublist (List.Sublist.map _ List.filter_sublist) indices

/-- Position by position, a plan names the row and the column of an entry of rows. -/
structure Numbers (p : LookupPlan) (rows : List (List β)) : Prop where
  features_eq : p.features = (spots rows).map Prod.fst
  blocks_eq : p.blocks = (spots rows).map fun spot => (spot.2 : Int)
  digitCounts_eq : p.digitCounts = rows.map List.length

/-- Lookups that carry their places in the list as their blocks. -/
def InBlockOrder (lookups : List DigitLookup) : Prop :=
  lookups.map (·.block) = (List.range lookups.length).map Int.ofNat

/-- The lookups of a feature stand in block order, so their columns are their blocks. -/
theorem Lays.numbers {features : List (Int × List DigitLookup)} (h : p.Lays features)
    (horder : ∀ x ∈ features, InBlockOrder x.2) {rows : List (List β)}
    (hrows : rows.map List.length = features.map (·.2.length)) : p.Numbers rows := by
  have lengths : (features.map (·.2)).map List.length = rows.map List.length := by
    rw [hrows, List.map_map]
    rfl
  refine ⟨?_, ?_, ?_⟩
  · rw [h.features_eq, spots_congr lengths]
  · have columns : (spots (features.map (·.2))).map (fun spot => (spot.2 : Int)) =
        ((spots (features.map (·.2))).map Prod.snd).map Int.ofNat := by
      rw [List.map_map]
      rfl
    rw [h.blocks_eq, h.lookups_eq, ← spots_congr lengths, columns, map_snd_spots,
      List.map_flatMap, List.map_flatMap, List.flatMap_map]
    exact List.flatMap_congr horder
  · rw [h.digitCounts_eq, hrows]

end LookupPlan

namespace Regrouping

/-! ### The digits of one feature -/

/-- The digits that have been seen of a row, by their columns. -/
structure Arrived (R : α → β → Prop) (row : List β) (seen : Nat → Prop)
    (digits : List (Int × α)) : Prop where
  nodup : (digits.map Prod.fst).Nodup
  keys (j : Nat) : (j : Int) ∈ digits.map Prod.fst ↔ j < row.length ∧ seen j
  values : ∀ d ∈ digits, ∃ (j : Nat) (x : β), d.1 = j ∧ row[j]? = some x ∧ R d.2 x

variable {R : α → β → Prop} {row : List β} {seen : Nat → Prop} {digits : List (Int × α)}

theorem arrived_nil (hseen : ∀ j < row.length, ¬ seen j) : Arrived R row seen [] := by
  refine ⟨List.nodup_nil, fun j => ?_, by simp⟩
  simp only [List.map_nil, List.not_mem_nil, false_iff, not_and]
  exact hseen j

theorem Arrived.cons (h : Arrived R row seen digits) {j : Nat} {c : α} {x : β}
    (fresh : ¬ seen j) (hx : row[j]? = some x) (hc : R c x) :
    Arrived R row (fun i => i = j ∨ seen i) (((j : Int), c) :: digits) := by
  refine ⟨?_, fun i => ?_, ?_⟩
  · rw [List.map_cons, List.nodup_cons]
    exact ⟨fun hmem => fresh ((h.keys j).1 hmem).2, h.nodup⟩
  · rw [List.map_cons, List.mem_cons, h.keys]
    have inside : j < row.length := (List.getElem?_eq_some_iff.1 hx).1
    constructor
    · rintro (heq | ⟨hi, hseen⟩)
      · have same : i = j := Int.ofNat_inj.1 heq
        exact ⟨same ▸ inside, Or.inl same⟩
      · exact ⟨hi, Or.inr hseen⟩
    · rintro ⟨hi, rfl | hseen⟩
      · exact Or.inl rfl
      · exact Or.inr ⟨hi, hseen⟩
  · intro d hd
    rcases List.mem_cons.1 hd with rfl | hd
    · exact ⟨j, x, rfl, hx, hc⟩
    · exact h.values d hd

/-- Digits that have not arrived are no keys, so filing one replaces nothing. -/
theorem Arrived.filter_eq (h : Arrived R row seen digits) {j : Nat} (fresh : ¬ seen j) :
    (digits.filter fun entry => entry.1 != (j : Int)) = digits := by
  apply List.filter_eq_self.2
  intro d hd
  simp only [bne_iff_ne, ne_eq]
  intro heq
  have key : (j : Int) ∈ digits.map Prod.fst := heq ▸ List.mem_map_of_mem hd
  exact fresh ((h.keys j).1 key).2

/-- All keys are columns of the row. -/
theorem Arrived.keys_subset (h : Arrived R row seen digits) :
    digits.map Prod.fst ⊆ (List.range row.length).map Int.ofNat := by
  intro key hkey
  obtain ⟨d, hd, rfl⟩ := List.mem_map.1 hkey
  obtain ⟨j, x, hj, hx, _⟩ := h.values d hd
  rw [hj]
  exact List.mem_map.2 ⟨j, List.mem_range.2 (List.getElem?_eq_some_iff.1 hx).1, rfl⟩

theorem nodup_columns (count : Nat) : ((List.range count).map Int.ofNat).Nodup :=
  List.Nodup.map (fun _ _ heq => Int.ofNat.inj heq) List.nodup_range

/-- There are as many digits as columns exactly if every column has been seen. -/
theorem Arrived.length_eq_iff (h : Arrived R row seen digits) :
    digits.length = row.length ↔ ∀ j < row.length, seen j := by
  have few := List.subperm_of_subset h.nodup h.keys_subset
  constructor
  · intro hlength j hj
    have all := few.perm_of_length_le (by simp [hlength])
    have key : (j : Int) ∈ digits.map Prod.fst :=
      all.symm.subset (List.mem_map.2 ⟨j, List.mem_range.2 hj, rfl⟩)
    exact ((h.keys j).1 key).2
  · intro hall
    have many : (List.range row.length).map Int.ofNat ⊆ digits.map Prod.fst := by
      intro key hkey
      obtain ⟨j, hj, rfl⟩ := List.mem_map.1 hkey
      have inside := List.mem_range.1 hj
      exact (h.keys j).2 ⟨inside, hall j inside⟩
    have upper := few.length_le
    have lower := (List.subperm_of_subset (nodup_columns row.length) many).length_le
    simp only [List.length_map, List.length_range] at upper lower
    omega

/-- If every item has a value, there is a list of all values. -/
theorem mapM_eq_some {f : Nat → Option α} {P : α → Nat → Prop} {items : List Nat}
    (h : ∀ i ∈ items, ∃ c, f i = some c ∧ P c i) :
    ∃ cs, items.mapM f = some cs ∧ List.Forall₂ P cs items := by
  induction items with
  | nil => exact ⟨[], rfl, .nil⟩
  | cons i items ih =>
      obtain ⟨c, hc, hP⟩ := h i (by simp)
      obtain ⟨cs, hcs, hall⟩ := ih fun i' hi' => h i' (List.mem_cons_of_mem i hi')
      refine ⟨c :: cs, ?_, .cons hP hall⟩
      rw [List.mapM_cons, hc, hcs]
      rfl

/-- When all digits have arrived, they come out in the order of the row. -/
theorem Arrived.inOrder (h : Arrived R row seen digits) (hall : ∀ j < row.length, seen j) :
    ∃ cs, inOrder digits digits.length = some cs ∧ List.Forall₂ R cs row := by
  have found : ∀ j ∈ List.range row.length,
      ∃ c, digits.lookup (j : Int) = some c ∧ ∀ x, row[j]? = some x → R c x := by
    intro j hj
    have inside := List.mem_range.1 hj
    have key := (h.keys j).2 ⟨inside, hall j inside⟩
    cases hlookup : digits.lookup (j : Int) with
    | none =>
        obtain ⟨d, hd, heq⟩ := List.mem_map.1 key
        have absent := List.lookup_eq_none_iff.1 hlookup d hd
        simp [heq] at absent
    | some c =>
        refine ⟨c, rfl, fun x hx => ?_⟩
        obtain ⟨before, after, hsplit, _⟩ := List.lookup_eq_some_iff.1 hlookup
        obtain ⟨j', x', hj', hx', hR⟩ := h.values ((j : Int), c) (by rw [hsplit]; simp)
        have same : j = j' := Int.ofNat_inj.1 hj'
        subst same
        rw [hx] at hx'
        cases hx'
        exact hR
  obtain ⟨cs, hcs, hrelated⟩ := mapM_eq_some found
  refine ⟨cs, ?_, ?_⟩
  · unfold Regrouping.inOrder
    rw [h.length_eq_iff.2 hall]
    exact hcs
  · obtain ⟨count, each⟩ := List.forall₂_iff_get.1 hrelated
    refine List.forall₂_iff_get.2 ⟨by simpa using count, fun j hj hj' => ?_⟩
    have here := each j hj (by simpa using hj')
    simp only [List.get_eq_getElem, List.getElem_range] at here ⊢
    exact here _ (List.getElem?_eq_getElem hj')

/-! ### All features -/

/-- The digits of every feature so far. A feature whose digits have all been seen is forgotten. -/
def Holds (R : α → β → Prop) (rows : List (List β)) (seen : Nat × Nat → Prop)
    (r : Regrouping α) : Prop :=
  ∀ f row, rows[f]? = some row →
    (∀ j < row.length, seen (f, j)) ∨ Arrived R row (fun j => seen (f, j)) (r.arrived f)

variable {rows : List (List β)} {r : Regrouping α}

theorem holds_empty : (Regrouping.empty : Regrouping α).Holds R rows fun _ => False := by
  intro f row _
  exact Or.inr (arrived_nil fun _ _ => id)

theorem lookup_without {f g : Nat} (h : f ≠ g) : (r.without f).lookup g = r.pending.lookup g := by
  unfold without
  induction r.pending with
  | nil => rfl
  | cons entry rest ih =>
      obtain ⟨key, digits⟩ := entry
      by_cases hkey : key = f
      · have apart : (g == key) = false := by
          rw [hkey]
          exact beq_eq_false_iff_ne.2 (Ne.symm h)
        rw [List.filter_cons_of_neg (by simp [hkey]), List.lookup_cons, apart, ih]
      · rw [List.filter_cons_of_pos (by simpa using hkey), List.lookup_cons, List.lookup_cons, ih]

/-- What is filed for one feature leaves the others alone. -/
theorem Holds.change {seen : Nat × Nat → Prop} (h : r.Holds R rows seen) {f j : Nat} {row : List β}
    (hrow : rows[f]? = some row) {r' : Regrouping α}
    (hsame : ∀ g, f ≠ g → r'.arrived g = r.arrived g)
    (hf : (∀ i < row.length, i = j ∨ seen (f, i)) ∨
      Arrived R row (fun i => i = j ∨ seen (f, i)) (r'.arrived f)) :
    r'.Holds R rows fun spot => spot = (f, j) ∨ seen spot := by
  intro g row' hrow'
  by_cases hg : f = g
  · subst hg
    rw [hrow] at hrow'
    cases hrow'
    simpa using hf
  · have apart : ∀ i, ((g, i) = (f, j) ∨ seen (g, i)) ↔ seen (g, i) := by
      intro i
      simp [Ne.symm hg]
    rw [hsame g hg]
    simpa only [apart] using h g row' hrow'

/-- Filing an arrival under a fresh spot: either the feature waits for further digits, or it comes
out whole. Other features are left alone. -/
theorem file_holds {plan : LookupPlan} (hplan : plan.Numbers rows)
    {seen : Nat × Nat → Prop} (h : r.Holds R rows seen) {position f j : Nat}
    (hspot : (spots rows)[position]? = some (f, j)) (fresh : ¬ seen (f, j)) {c : α}
    (hc : ∀ x, rows.flatten[position]? = some x → R c x) :
    ∃ r' feature?, r.file plan position c = .ok (r', feature?) ∧
      r'.Holds R rows (fun spot => spot = (f, j) ∨ seen spot) ∧
      ∃ row, rows[f]? = some row ∧
        ((∃ i < row.length, ¬ (i = j ∨ seen (f, i))) ∧ feature? = none ∨
          (∀ i < row.length, i = j ∨ seen (f, i)) ∧
            ∃ cs, feature? = some (f, cs) ∧ List.Forall₂ R cs row) := by
  obtain ⟨row, hrow, hj⟩ := mem_spots.1 (List.mem_of_getElem? hspot)
  have hfeature : plan.features[position]? = some f := by
    rw [hplan.features_eq, List.getElem?_map, hspot]
    rfl
  have hblock : plan.blocks[position]? = some (j : Int) := by
    rw [hplan.blocks_eq, List.getElem?_map, hspot]
    rfl
  have hcount : plan.digitCounts[f]? = some row.length := by
    rw [hplan.digitCounts_eq, List.getElem?_map, hrow]
    rfl
  have hentry : rows.flatten[position]? = some row[j] := by
    rw [getElem?_flatten_of_spot hspot, hrow]
    exact List.getElem?_eq_getElem hj
  have before : Arrived R row (fun i => seen (f, i)) (r.arrived f) := by
    rcases h f row hrow with hall | harrived
    · exact absurd (hall j hj) fresh
    · exact harrived
  have after := before.cons fresh (List.getElem?_eq_getElem hj) (hc _ hentry)
  unfold Regrouping.file
  simp only [hfeature, hblock, before.filter_eq fresh, hcount, Option.some.injEq]
  by_cases hall : ∀ i < row.length, i = j ∨ seen (f, i)
  · obtain ⟨cs, hcs, hrelated⟩ := after.inOrder hall
    have full := (after.length_eq_iff.2 hall).symm
    rw [if_pos full, hcs]
    refine ⟨_, _, rfl, h.change hrow (fun g hg => ?_) (Or.inl hall), row, hrow,
      Or.inr ⟨hall, cs, rfl, hrelated⟩⟩
    unfold Regrouping.arrived
    rw [lookup_without hg]
  · have short : ¬ row.length = (((j : Int), c) :: r.arrived f).length := fun heq =>
      hall (after.length_eq_iff.1 heq.symm)
    rw [if_neg short]
    refine ⟨_, _, rfl, h.change hrow (fun g hg => ?_) (Or.inr ?_), row, hrow, Or.inl ⟨?_, rfl⟩⟩
    · have apart : (g == f) = false := beq_eq_false_iff_ne.2 (Ne.symm hg)
      unfold Regrouping.arrived
      simp only [List.lookup_cons, apart]
      rw [lookup_without hg]
    · unfold Regrouping.arrived
      simp only [List.lookup_cons_self, Option.getD_some]
      exact after
    · simpa using hall

end Regrouping

end SealedMatch
