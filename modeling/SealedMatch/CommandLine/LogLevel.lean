/-
Module: SealedMatch.CommandLine.LogLevel
Purpose: Which log lines are shown.
Trusted boundary: none
Main exports: Severity, thresholdOf, shownSeverities
-/
import SealedMatch.Text.Case

namespace SealedMatch

/-- How grave a log line is. -/
inductive Severity where
  | debug
  | info
  | warning
  | error
  | critical
deriving DecidableEq, Repr

namespace Severity

def name : Severity → String
  | debug => "debug"
  | info => "info"
  | warning => "warning"
  | error => "error"
  | critical => "critical"

/-- The rank of a severity. -/
def rank : Severity → Nat
  | debug => 10
  | info => 20
  | warning => 30
  | error => 40
  | critical => 50

def all : List Severity := [debug, info, warning, error, critical]

end Severity

/-- The least rank that is shown at a level, whatever the case of its letters. Words that name no
level stand for the level of information. -/
def thresholdOf (level : String) : Nat :=
  match Text.capitals level with
  | "NOTSET" => 0
  | "DEBUG" => Severity.debug.rank
  | "INFO" => Severity.info.rank
  | "WARN" => Severity.warning.rank
  | "WARNING" => Severity.warning.rank
  | "ERROR" => Severity.error.rank
  | "FATAL" => Severity.critical.rank
  | "CRITICAL" => Severity.critical.rank
  | _ => Severity.info.rank

/-- The severities that are shown at a level. -/
def shownSeverities (level : String) : List Severity :=
  Severity.all.filter fun s => thresholdOf level ≤ s.rank

end SealedMatch
