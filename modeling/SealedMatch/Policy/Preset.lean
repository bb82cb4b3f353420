/-
Module: SealedMatch.Policy.Preset
Purpose: The policies of the known datasets.
Trusted boundary: none
Main exports: presets, presetNames, findPreset
-/
import SealedMatch.Policy.Configuration
import SealedMatch.Text.Case

namespace SealedMatch

/-- Digits of three bits, four of them, and a threshold of 14. -/
def threeBitPolicy (name : String) (features : Nat) (name_ne : name ≠ "")
    (features_pos : 1 ≤ features) : MatchPolicy :=
  ⟨name, ⟨3, 4, by decide, by decide, by decide, by decide⟩, 4, features, 14, name_ne, by decide,
    features_pos⟩

def putPolicy : MatchPolicy := threeBitPolicy "PUT" 49 (by decide) (by decide)

def bmdbPolicy : MatchPolicy := threeBitPolicy "BMDB" 36 (by decide) (by decide)

/-- Digits of two bits allow smaller engine parameters, at the price of six of them. -/
def bmdb2Policy : MatchPolicy :=
  ⟨"BMDB2", ⟨2, 6, by decide, by decide, by decide, by decide⟩, 6, 36, 14, by decide, by decide,
    by decide⟩

def frgcPolicy : MatchPolicy := threeBitPolicy "FRGC" 94 (by decide) (by decide)

/-- All presets, in the order in which they were introduced. -/
def presets : List MatchPolicy := [putPolicy, bmdbPolicy, bmdb2Policy, frgcPolicy]

/-- The names of the presets in alphabetical order. -/
def presetNames : List String :=
  (presets.map (·.datasetName)).mergeSort fun a b => decide (a ≤ b)

/-- The preset of a dataset, whatever the case of the name's letters. -/
def findPreset (name : String) : Except Failure MatchPolicy :=
  match presets.find? (·.datasetName == Text.capitals name) with
  | some preset => .ok preset
  | none => .error (.configuration (.unknownPreset name presetNames))

end SealedMatch
