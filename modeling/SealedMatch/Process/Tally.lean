/-
Module: SealedMatch.Process.Tally
Purpose: Counters by name, in the order of their first use.
Trusted boundary: none
Main exports: Tally, Tally.add, Tally.count
-/

namespace SealedMatch

/-- Counters by name. A counter exists from its first use on, even when nothing was added then. -/
structure Tally (κ : Type) where
  entries : List (κ × Nat)
deriving DecidableEq

namespace Tally

variable {κ : Type} [DecidableEq κ]

/-- No counter yet. -/
def empty : Tally κ := ⟨[]⟩

/-- Add to the counter of a name in a list of counters. -/
def addTo (k : κ) (n : Nat) : List (κ × Nat) → List (κ × Nat)
  | [] => [(k, n)]
  | (k', m) :: rest => if k' = k then (k', m + n) :: rest else (k', m) :: addTo k n rest

/-- Add to a counter. -/
def add (t : Tally κ) (k : κ) (n : Nat) : Tally κ := ⟨addTo k n t.entries⟩

/-- What a counter shows; an unused one shows zero. -/
def count (t : Tally κ) (k : κ) : Nat := (t.entries.lookup k).getD 0

@[simp] theorem count_empty (k : κ) : (empty : Tally κ).count k = 0 := rfl

theorem count_add (t : Tally κ) (k k' : κ) (n : Nat) :
    (t.add k n).count k' = t.count k' + if k = k' then n else 0 := by
  obtain ⟨entries⟩ := t
  simp only [add, count]
  induction entries with
  | nil =>
    by_cases h : k = k'
    · simp [addTo, h]
    · have h' : (k' == k) = false := by simpa using Ne.symm h
      simp [addTo, List.lookup_cons, h, h']
  | cons entry rest ih =>
    obtain ⟨j, m⟩ := entry
    by_cases hj : j = k
    · by_cases h : k = k'
      · simp [addTo, hj, h]
      · have h' : (k' == k) = false := by simpa using Ne.symm h
        simp [addTo, List.lookup_cons, hj, h, h']
    · by_cases h : k' = j
      · have hk : ¬ k = k' := by rw [h]; exact Ne.symm hj
        simp [addTo, hj, h, Ne.symm hj]
      · have h' : (k' == j) = false := by simpa using h
        simpa [addTo, List.lookup_cons, hj, h'] using ih

end Tally

end SealedMatch
