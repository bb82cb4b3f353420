/-
Module: SealedMatch.Engine.Place
Purpose: Where engine operations run, and how tables are evaluated.
Trusted boundary: none
Main exports: Place, BootstrapKind
-/

namespace SealedMatch

/-- Where an engine operation runs. -/
inductive Place where
  | host
  | accelerator
deriving DecidableEq, Repr

namespace Place

def name : Place → String
  | host => "host"
  | accelerator => "accelerator"

def ofName? (s : String) : Option Place :=
  if s = "host" then some host else if s = "accelerator" then some accelerator else none

theorem ofName?_name (p : Place) : ofName? p.name = some p := by
  cases p <;> decide

end Place

/-- The flavour of programmable bootstrapping that evaluates tables. -/
inductive BootstrapKind where
  | classic
  | multiBit
deriving DecidableEq, Repr

namespace BootstrapKind

def name : BootstrapKind → String
  | classic => "classic"
  | multiBit => "multi_bit"

def ofName? (s : String) : Option BootstrapKind :=
  if s = "classic" then some classic else if s = "multi_bit" then some multiBit else none

theorem ofName?_name (p : BootstrapKind) : ofName? p.name = some p := by
  cases p <;> decide

end BootstrapKind

end SealedMatch
