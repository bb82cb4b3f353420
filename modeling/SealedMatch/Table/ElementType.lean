/-
Module: SealedMatch.Table.ElementType
Purpose: The common type of the entries of a table.
Trusted boundary: none
Main exports: ElementType, ElementType.join, ElementType.ofValue
-/
import SealedMatch.Power
import SealedMatch.Value.Basic

namespace SealedMatch

/-- The type that the entries of a table share. -/
inductive ElementType where
  | bool
  | int64
  | uint64
  | float64
  | text (length : Nat)
  | object
deriving DecidableEq, Repr

namespace ElementType

def name : ElementType → String
  | bool => "bool"
  | int64 => "int64"
  | uint64 => "uint64"
  | float64 => "float64"
  | text length => "<U" ++ toString length
  | object => "object"

/-- How many characters the values of a type need as text. -/
def textWidth : ElementType → Nat
  | bool => 5
  | int64 => 21
  | uint64 => 20
  | float64 => 32
  | text length => length
  | object => 0

/-- The smallest type that holds the values of both. Signed and unsigned words meet in the reals,
words and texts in texts, and what nothing else holds is an object. -/
def join : ElementType → ElementType → ElementType
  | object, _ => object
  | _, object => object
  | text n, t => text (max n t.textWidth)
  | t, text n => text (max t.textWidth n)
  | float64, _ => float64
  | _, float64 => float64
  | int64, uint64 => float64
  | uint64, int64 => float64
  | int64, _ => int64
  | _, int64 => int64
  | uint64, _ => uint64
  | _, uint64 => uint64
  | bool, bool => bool

/-- The type of a single entry. An integer is a signed word if it fits one, an unsigned word if
only that fits, and an object beyond both. -/
def ofValue : Value → ElementType
  | .bool _ => bool
  | .int n =>
    if -2 ^ 63 ≤ n ∧ n < 2 ^ 63 then int64
    else if 0 ≤ n ∧ n < 2 ^ 64 then uint64
    else object
  | .float _ => float64
  | .text s => text (max 1 s.length)
  | _ => object

/-- Whether the entries are integers of some width. Truth values are not. -/
def isInteger : ElementType → Bool
  | int64 => true
  | uint64 => true
  | _ => false

/-- The type of the entries of a table without entries is real. -/
def ofValues : List Value → ElementType
  | [] => float64
  | v :: rest => rest.foldl (fun t v => t.join (ofValue v)) (ofValue v)

end ElementType

end SealedMatch
