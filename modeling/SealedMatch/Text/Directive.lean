/-
Module: SealedMatch.Text.Directive
Purpose: Texts with directives: a percent sign, behind it the name of a fact and how it is shown.
Trusted boundary: none
Main exports: DirectiveDefect, checkDirectives
-/
import SealedMatch.Power
import SealedMatch.Text.Quoted

namespace SealedMatch.Text

/-- Why the directives of a text are not followed. -/
inductive DirectiveDefect where
  /-- The text ends within a directive. -/
  | unfinished
  /-- The text ends within the name of a fact. -/
  | unfinishedName
  | unknownName (name : String)
  /-- No fact is left that has not been shown. -/
  | nothingLeft
  | widthTooLarge
  | precisionTooLarge
  /-- A fact in the place of a width or precision that is no integer. -/
  | amountNotAnInteger
  /-- A letter, at a position, that says nothing about how a fact is shown. -/
  | unknownLetter (letter : Char) (position : Nat)
  | notReal (letter : Char) (type : String)
  | notAnInteger (letter : Char) (type : String)
  | notFloating (type : String)
  | notACharacter
deriving DecidableEq

namespace DirectiveDefect

/-- The wording of a defect. -/
def message : DirectiveDefect → String
  | unfinished => "incomplete format"
  | unfinishedName => "incomplete format key"
  | unknownName name => quoted name
  | nothingLeft => "not enough arguments for format string"
  | widthTooLarge => "width too big"
  | precisionTooLarge => "precision too big"
  | amountNotAnInteger => "* wants int"
  | unknownLetter letter position =>
    let shown := if 31 ≤ letter.toNat && letter.toNat < 127 then letter else '?'
    "unsupported format character '" ++ String.ofList [shown] ++ "' (0x" ++
      String.ofList (Nat.toDigits 16 letter.toNat) ++ ") at index " ++ toString position
  | notReal letter type =>
    "%" ++ String.ofList [letter] ++ " format: a real number is required, not " ++ type
  | notAnInteger letter type =>
    "%" ++ String.ofList [letter] ++ " format: an integer is required, not " ++ type
  | notFloating type => "must be real number, not " ++ type
  | notACharacter => "%c requires int or char"

end DirectiveDefect

/-- The type of the facts that count as numbers. -/
def numberType : String := "bool"

/-- The type of all facts taken together. -/
def allFactsType : String := "dict"

/-- The name of a fact up to its closing parenthesis, and what is behind; parentheses within the
name come in pairs. -/
def takeName (name : List Char) : Nat → List Char → Option (String × List Char)
  | _, [] => none
  | 0, ')' :: rest => some (String.ofList name.reverse, rest)
  | depth + 1, ')' :: rest => takeName (')' :: name) depth rest
  | depth, '(' :: rest => takeName ('(' :: name) (depth + 1) rest
  | depth, c :: rest => takeName (c :: name) depth rest

/-- The marks in front of a width. -/
def directiveFlags : List Char := ['-', '+', ' ', '#', '0']

/-- Pass over the digits of a number that is at most `limit`. -/
def passNumber (limit : Nat) (tooLarge : DirectiveDefect) (n : Nat) :
    List Char → Except DirectiveDefect (List Char)
  | [] => .ok []
  | c :: rest =>
    if '0' ≤ c && c ≤ '9' then
      let digit := c.toNat - '0'.toNat
      if n > (limit - digit) / 10 then .error tooLarge
      else passNumber limit tooLarge (10 * n + digit) rest
    else .ok (c :: rest)

/-- Pass over a width or a precision: a number, or a star in whose place the fact at hand stands.
`type?` is the type of the fact that has not been shown. -/
def passAmount (limit : Nat) (tooLarge : DirectiveDefect) (type? : Option String)
    (cs : List Char) : Except DirectiveDefect (Option String × List Char) :=
  match cs with
  | '*' :: rest =>
    match type? with
    | none => .error .nothingLeft
    | some type => if type == numberType then .ok (none, rest) else .error .amountNotAnInteger
  | cs => (passNumber limit tooLarge 0 cs).map fun rest => (type?, rest)

/-- Show a fact of a type as its letter says. -/
def showFact (letter : Char) (position : Nat) (type : String) : Except DirectiveDefect Unit :=
  let forNumbers (d : DirectiveDefect) := if type == numberType then .ok () else .error d
  if ['s', 'r', 'a'].contains letter then .ok ()
  else if ['d', 'i', 'u'].contains letter then forNumbers (.notReal letter type)
  else if ['o', 'x', 'X'].contains letter then forNumbers (.notAnInteger letter type)
  else if ['e', 'E', 'f', 'F', 'g', 'G'].contains letter then forNumbers (.notFloating type)
  else if letter == 'c' then forNumbers .notACharacter
  else .error (.unknownLetter letter position)

/-- Follow a directive behind its name: flags, width, precision, a mark of size and the letter.
`length` is the length of the whole text. -/
def followLetters (length : Nat) (type? : Option String) (cs : List Char) :
    Except DirectiveDefect (Option String × List Char) := do
  let cs := cs.dropWhile directiveFlags.contains
  let (type?, cs) ← passAmount (2 ^ 63 - 1) .widthTooLarge type? cs
  let (type?, cs) ←
    match cs with
    | '.' :: rest => passAmount (2 ^ 31 - 1) .precisionTooLarge type? rest
    | cs => .ok (type?, cs)
  let cs :=
    match cs with
    | c :: rest => if ['h', 'l', 'L'].contains c then rest else c :: rest
    | [] => []
  match cs, type? with
  | [], _ => .error .unfinished
  | _ :: _, none => .error .nothingLeft
  | letter :: rest, some type => do
    showFact letter (length - rest.length - 1) type
    pure (none, rest)

/-- Follow the directive behind a percent sign. A second percent sign stands for itself. -/
def followDirective (types : List (String × String)) (length : Nat) (type? : Option String)
    (cs : List Char) : Except DirectiveDefect (Option String × List Char) :=
  match cs with
  | '%' :: rest => .ok (type?, rest)
  | '(' :: rest =>
    match takeName [] 0 rest with
    | none => .error .unfinishedName
    | some (name, rest) =>
      match types.lookup name with
      | none => .error (.unknownName name)
      | some type => followLetters length (some type) rest
  | cs => followLetters length type? cs

/-- Follow directives in turn. Every one takes its percent sign at least, so the length of the text
is fuel enough. -/
def followAll (types : List (String × String)) (length : Nat) :
    Nat → Option String → List Char → Except DirectiveDefect Unit
  | 0, _, _ => .ok ()
  | fuel + 1, type?, cs =>
    match cs.dropWhile (· != '%') with
    | [] => .ok ()
    | _ :: rest => do
      let (type?, rest) ← followDirective types length type? rest
      followAll types length fuel type? rest

/-- Whether the directives of a text can be followed, given the types of the facts by name. A
directive without a name shows all facts together, and only once. -/
def checkDirectives (types : List (String × String)) (s : String) :
    Except DirectiveDefect Unit :=
  followAll types s.length s.length (some allFactsType) s.toList

end SealedMatch.Text
