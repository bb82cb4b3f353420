/-
Module: SealedMatch.Text.Case
Purpose: Capital and small forms of whole texts.
Trusted boundary: none
Main exports: capitals, smalls
-/
import SealedMatch.Text.CaseProperty
import SealedMatch.Text.CaseTable

namespace SealedMatch.Text

/-- The shift of the run that covers `code`, if one does. -/
def caseShift? (runs : Array CaseRun) (code : Nat) : Option Int :=
  (runs.find? (·.covers code)).map (·.shift)

/-- Move a character by the shift of its run. -/
def shiftCase (runs : Array CaseRun) (c : Char) : Char :=
  match caseShift? runs c.toNat with
  | some shift => Char.ofNat (Int.ofNat c.toNat + shift).toNat
  | none => c

/-- The capital form of a character, which may have several characters. -/
def capital (c : Char) : List Char :=
  if c.toNat < 128 then [c.toUpper]
  else
    match capitalExpansions.lookup c.toNat with
    | some codes => codes.map Char.ofNat
    | none => [shiftCase capitalRuns c]

/-- The small form of a character away from the end of a word. -/
def small (c : Char) : List Char :=
  if c.toNat < 128 then [c.toLower]
  else if c.toNat = 0x130 then [Char.ofNat 0x69, Char.ofNat 0x307]
  else [shiftCase smallRuns c]

/-- Whether the text, read on from here, begins with a letter that has case once the characters
that are passed over are skipped. -/
def caseFollows (cs : List Char) : Bool :=
  match cs.dropWhile isCaseIgnorable with
  | c :: _ => isCased c
  | [] => false

/-- Small forms of `cs`, where `before` holds the characters already read, the last one first.
A capital sigma after a letter with case and before none takes its final form. -/
def smallsAfter (before : List Char) : List Char → List Char
  | [] => []
  | c :: rest =>
    if c.toNat = 0x3A3 then
      let form := if caseFollows before && !caseFollows rest then 0x3C2 else 0x3C3
      Char.ofNat form :: smallsAfter (c :: before) rest
    else small c ++ smallsAfter (c :: before) rest

/-- A text in capital letters. -/
def capitals (s : String) : String :=
  String.ofList (s.toList.flatMap capital)

/-- A text in small letters. -/
def smalls (s : String) : String :=
  String.ofList (smallsAfter [] s.toList)

end SealedMatch.Text
