/-
Module: SealedMatch.Matching.Regroup
Purpose: Results that arrive in any order, regrouped by feature.
Trusted boundary: none
Main exports: Regrouping, Regrouping.file, LookupPlan.regroup, LookupPlan.hostFeatures
-/
import SealedMatch.Matching.Plan

namespace SealedMatch

/-- The results of features of which some digits are still missing: for each such feature its
digits so far, by block. -/
structure Regrouping (α : Type) where
  pending : List (Nat × List (Int × α))

namespace Regrouping

variable {α : Type}

/-- Nothing has arrived. -/
def empty : Regrouping α := ⟨[]⟩

/-- The digits of a feature that have arrived. -/
def arrived (r : Regrouping α) (feature : Nat) : List (Int × α) :=
  (r.pending.lookup feature).getD []

/-- The results of a feature without the others. -/
def without (r : Regrouping α) (feature : Nat) : List (Nat × List (Int × α)) :=
  r.pending.filter fun entry => entry.1 != feature

/-- The digits of a feature in block order, if there is one for every block below `count`. -/
def inOrder (digits : List (Int × α)) (count : Nat) : Option (List α) :=
  (List.range count).mapM fun (block : Nat) => digits.lookup (block : Int)

/-- File the result of a position under its feature and block. When the feature is complete, its
digits come out in block order and the feature is forgotten. -/
def file (r : Regrouping α) (plan : LookupPlan) (position : Nat) (result : α) :
    Except Failure (Regrouping α × Option (Nat × List α)) := do
  match plan.features[position]?, plan.blocks[position]? with
  | some feature, some block =>
    let digits := (block, result) :: (r.arrived feature).filter fun entry => entry.1 != block
    if plan.digitCounts[feature]? = some digits.length then
      match inOrder digits digits.length with
      | some ordered => pure (⟨r.without feature⟩, some (feature, ordered))
      | none => throw (.fault (.missingName (toString block)))
    else pure (⟨(feature, digits) :: r.without feature⟩, none)
  | _, _ => throw (.fault .axisOutOfRange)

end Regrouping

namespace LookupPlan

variable {α : Type}

/-- The features without any digit, which are complete from the start. -/
def emptyFeatures (p : LookupPlan) : List Nat :=
  (p.digitCounts.zipIdx.filter fun (count, _) => count == 0).map Prod.snd

/-- Regroup arrivals: the features in the order in which they become complete, up to the first
arrival that is a failure. -/
def regroupFrom (p : LookupPlan) (r : Regrouping α) :
    List (Nat × Except Failure α) → List (Nat × List α) × Option Failure
  | [] => ([], none)
  | (_, .error e) :: _ => ([], some e)
  | (position, .ok result) :: rest =>
    match r.file p position result with
    | .error e => ([], some e)
    | .ok (r, none) => p.regroupFrom r rest
    | .ok (r, some feature) =>
      let (features, failure?) := p.regroupFrom r rest
      (feature :: features, failure?)

/-- Regroup arrivals from nothing. -/
def regroup (p : LookupPlan) (arrivals : List (Nat × Except Failure α)) :
    List (Nat × List α) × Option Failure :=
  p.regroupFrom .empty arrivals

/-- What a pool of workers yields feature by feature: the features without digits first, then the
others as they become complete. -/
def hostFeatures (p : LookupPlan) (arrivals : List (Nat × Except Failure α)) :
    List (Nat × List α) × Option Failure :=
  let (features, failure?) := p.regroup arrivals
  (p.emptyFeatures.map (fun feature => (feature, [])) ++ features, failure?)

end LookupPlan

end SealedMatch
