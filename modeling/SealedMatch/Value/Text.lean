/-
Module: SealedMatch.Value.Text
Purpose: Values as they appear inside messages.
Trusted boundary: none
Main exports: floatText, Value.typeName, Value.quoted, Value.display
-/
import SealedMatch.Decimal.Shortest
import SealedMatch.Text.Quoted
import SealedMatch.Value.Basic

namespace SealedMatch

/-- Reals in messages and files are scientific from `1e+16` up and below `0.0001`. -/
def floatFormat : Decimal.FloatFormat := ⟨"nan", "inf", 16, -4⟩

/-- The text of a real. -/
def floatText (x : Float) : String := floatFormat.render x

namespace Value

/-- The spelling of a truth value. -/
def boolText (b : Bool) : String := if b then "True" else "False"

/-- The name of a value's type in messages. -/
def typeName : Value → String
  | null => "NoneType"
  | bool _ => "bool"
  | int _ => "int"
  | float _ => "float"
  | text _ => "str"
  | list _ => "list"
  | record _ => "dict"

mutual

/-- The spelling of a value inside another one, where texts carry quotes. -/
def quoted : Value → String
  | null => "None"
  | bool b => boolText b
  | int n => toString n
  | float x => floatText x
  | text s => Text.quoted s
  | list items => "[" ++ ", ".intercalate (quotedItems items) ++ "]"
  | record fields => "\x7b" ++ ", ".intercalate (quotedFields fields) ++ "\x7d"

/-- The spellings of the items of a list. -/
def quotedItems : List Value → List String
  | [] => []
  | v :: rest => quoted v :: quotedItems rest

/-- The spellings of the fields of a record. -/
def quotedFields : List (String × Value) → List String
  | [] => []
  | (name, v) :: rest => (Text.quoted name ++ ": " ++ quoted v) :: quotedFields rest

end

/-- The spelling of a value on its own, where a text stands bare. -/
def display : Value → String
  | text s => s
  | v => v.quoted

end Value

end SealedMatch
