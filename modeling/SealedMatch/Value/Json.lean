/-
Module: SealedMatch.Value.Json
Purpose: Values as JSON documents.
Trusted boundary: none
Main exports: Value.pretty, Value.compact
-/
import SealedMatch.Value.Text

namespace SealedMatch

/-- Reals in JSON: as in messages, with words for the values that are not finite. -/
def jsonFloatFormat : Decimal.FloatFormat := ⟨"NaN", "Infinity", 16, -4⟩

/-- One escaped code unit of sixteen bits. -/
def escapedUnit (unit : Nat) : List Char := '\\' :: 'u' :: Text.hexDigits 4 unit

/-- A character inside a JSON string. With `ascii`, everything outside the printed ASCII characters
is written as code units, in pairs past the basic plane. -/
def jsonChar (ascii : Bool) (c : Char) : List Char :=
  if c == '"' || c == '\\' then ['\\', c]
  else if c == '\n' then ['\\', 'n']
  else if c == '\r' then ['\\', 'r']
  else if c == '\t' then ['\\', 't']
  else if c.toNat = 12 then ['\\', 'f']
  else if c.toNat = 8 then ['\\', 'b']
  else if c.toNat < 32 then escapedUnit c.toNat
  else if ascii && 126 < c.toNat then
    if c.toNat < 0x10000 then escapedUnit c.toNat
    else
      escapedUnit (0xD800 + (c.toNat - 0x10000) / 0x400) ++
        escapedUnit (0xDC00 + (c.toNat - 0x10000) % 0x400)
  else [c]

/-- A JSON string. -/
def jsonString (ascii : Bool) (s : String) : String :=
  String.ofList ('"' :: s.toList.flatMap (jsonChar ascii) ++ ['"'])

namespace Value

/-- A value without parts. -/
def jsonScalar (ascii : Bool) : Value → String
  | bool b => if b then "true" else "false"
  | int n => toString n
  | float x => jsonFloatFormat.render x
  | text s => jsonString ascii s
  | _ => "null"

/-- A line end and two blanks for every level. -/
def newLine (level : Nat) : String :=
  String.ofList ('\n' :: List.replicate (2 * level) ' ')

mutual

/-- JSON over several lines, two blanks deeper at every level. -/
def prettyAt (ascii : Bool) (level : Nat) : Value → String
  | list [] => "[]"
  | list (v :: rest) =>
    "[" ++ newLine (level + 1) ++ prettyAt ascii (level + 1) v ++
      prettyItems ascii (level + 1) rest ++ newLine level ++ "]"
  | record [] => "\x7b\x7d"
  | record ((name, v) :: rest) =>
    "\x7b" ++ newLine (level + 1) ++ jsonString ascii name ++ ": " ++
      prettyAt ascii (level + 1) v ++ prettyFields ascii (level + 1) rest ++ newLine level ++
      "\x7d"
  | v => jsonScalar ascii v

/-- The further items of a list, each after a comma. -/
def prettyItems (ascii : Bool) (level : Nat) : List Value → String
  | [] => ""
  | v :: rest => "," ++ newLine level ++ prettyAt ascii level v ++ prettyItems ascii level rest

/-- The further fields of a record, each after a comma. -/
def prettyFields (ascii : Bool) (level : Nat) : List (String × Value) → String
  | [] => ""
  | (name, v) :: rest =>
    "," ++ newLine level ++ jsonString ascii name ++ ": " ++ prettyAt ascii level v ++
      prettyFields ascii level rest

end

/-- JSON over several lines, either in ASCII or with every character but the controls as it is. -/
def pretty (v : Value) (ascii : Bool) : String := prettyAt ascii 0 v

mutual

/-- JSON on one line, in ASCII. -/
def compact : Value → String
  | list items => "[" ++ ", ".intercalate (compactItems items) ++ "]"
  | record fields => "\x7b" ++ ", ".intercalate (compactFields fields) ++ "\x7d"
  | v => jsonScalar true v

/-- The items of a list on one line. -/
def compactItems : List Value → List String
  | [] => []
  | v :: rest => compact v :: compactItems rest

/-- The fields of a record on one line. -/
def compactFields : List (String × Value) → List String
  | [] => []
  | (name, v) :: rest => (jsonString true name ++ ": " ++ compact v) :: compactFields rest

end

end Value

end SealedMatch
