/-
Module: SealedMatch.Value.Basic
Purpose: Structured data whose shape is known only when it arrives.
Trusted boundary: none
Main exports: Value, Value.truthy, Record, assign
-/

namespace SealedMatch

/-- A datum as error contexts, reports and result files hold it. Integers and reals are kept apart,
and records keep the order of their fields. -/
inductive Value where
  | null
  | bool (b : Bool)
  | int (n : Int)
  | float (x : Float)
  | text (s : String)
  | list (items : List Value)
  | record (fields : List (String × Value))
deriving Inhabited

/-- Named values in a fixed order. -/
abbrev Record := List (String × Value)

namespace Value

/-- Whether a value counts as given: null, false, zero and everything empty do not. -/
def truthy : Value → Bool
  | null => false
  | bool b => b
  | int n => n != 0
  | float x => x != 0.0
  | text s => !s.isEmpty
  | list items => !items.isEmpty
  | record fields => !fields.isEmpty

/-- A natural number as a value. -/
def nat (n : Nat) : Value := .int n

/-- A value or null. -/
def ofOption (v? : Option Value) : Value := v?.getD .null

/-- Integers as a list value. -/
def ints (ns : List Int) : Value := .list (ns.map .int)

/-- Texts as a list value. -/
def texts (ss : List String) : Value := .list (ss.map .text)

end Value

/-- Give a name a value: in its old place if the name is there, at the end otherwise. -/
def assign {α : Type} (entries : List (String × α)) (name : String) (a : α) : List (String × α) :=
  if entries.any (·.1 == name) then
    entries.map fun entry => if entry.1 == name then (name, a) else entry
  else entries ++ [(name, a)]

/-- Set a field of a record. -/
def Record.set (fields : Record) (name : String) (v : Value) : Record := assign fields name v

/-- Set a field if there is a value for it. -/
def Record.set? (fields : Record) (name : String) (v? : Option Value) : Record :=
  match v? with
  | some v => fields.set name v
  | none => fields

end SealedMatch
