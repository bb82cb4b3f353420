/-
Module: SealedMatch.CommandLine.Options
Purpose: Words of a command line matched with options and positional arguments.
Trusted boundary: none
Main exports: OptionSpec, PositionalSpec, Grammar, Grammar.read, Misread
-/
import SealedMatch.Text.DecimalDigit

namespace SealedMatch

/-- How many values an option takes. -/
inductive Arity where
  | flag
  | one
  | several
deriving DecidableEq

/-- An option: its names, the key of its values, how many it takes, and which it accepts. -/
structure OptionSpec where
  names : List String
  key : String
  arity : Arity
  accepts : String → Bool

/-- A positional argument: a single word, or the words of a command that has options of its own. -/
structure PositionalSpec where
  key : String
  takesRest : Bool
  accepts : String → Bool

/-- What a command line may hold. -/
structure Grammar where
  options : List OptionSpec
  positionals : List PositionalSpec
  /-- The options that must be given. -/
  required : List String

/-- Why a command line was not read to its end. -/
inductive Misread where
  /-- It asks for help. -/
  | help
  /-- It breaks a rule of its grammar. -/
  | misuse
deriving DecidableEq

/-- What has been read: the values by key, the later ones last, and words that nothing took. -/
structure Reading where
  values : List (String × List String)
  extras : List String

namespace Reading

def empty : Reading := ⟨[], []⟩

/-- Record values. -/
def add (r : Reading) (key : String) (values : List String) : Reading :=
  { r with values := r.values ++ [(key, values)] }

/-- Record words that nothing takes. -/
def skip (r : Reading) (words : List String) : Reading := { r with extras := r.extras ++ words }

/-- The values given last under a key. -/
def find? (r : Reading) (key : String) : Option (List String) := r.values.reverse.lookup key

end Reading

/-- The key of the option that asks for help. -/
def helpKey : String := "help"

/-- The option that asks for help. -/
def helpOption : OptionSpec := ⟨["-h", "--help"], helpKey, .flag, fun _ => true⟩

/-- A word that is an option: the one it stands for, if there is one, and the value behind it in
the same word. -/
structure Occurrence where
  option? : Option OptionSpec
  name : String
  attached? : Option String

/-- What a word is for. -/
inductive WordKind where
  | option (o : Occurrence)
  | argument
  /-- Two dashes: only arguments follow. -/
  | separator

/-- A word and what it is for. -/
structure Word where
  text : String
  kind : WordKind

namespace Word

def isOption (w : Word) : Bool :=
  match w.kind with
  | .option _ => true
  | _ => false

def isArgument (w : Word) : Bool :=
  match w.kind with
  | .argument => true
  | _ => false

def isSeparator (w : Word) : Bool :=
  match w.kind with
  | .separator => true
  | _ => false

end Word

/-- The word behind which only arguments follow. -/
def separator : String := "--"

/-- Whether a text consists of digits, at least one. -/
def takesDigits (cs : List Char) : Bool :=
  !cs.isEmpty && cs.all fun c => (Text.digitValue? c).isSome

/-- A text without the line end that it may close with. -/
def withoutLineEnd (cs : List Char) : List Char :=
  if cs.getLast? == some '\n' then cs.dropLast else cs

/-- Whether a word is a negative number: a dash, then digits, or digits around a point, then perhaps
a line end. -/
def isNegativeNumber (cs : List Char) : Bool :=
  match cs with
  | '-' :: rest =>
    match (withoutLineEnd rest).splitOn '.' with
    | [whole] => takesDigits whole
    | [whole, tail] => (whole.isEmpty || takesDigits whole) && takesDigits tail
    | _ => false
  | _ => false

namespace Grammar

variable (g : Grammar)

/-- All names of all options. -/
def names : List (String × OptionSpec) :=
  g.options.flatMap fun o => o.names.map fun name => (name, o)

/-- The option of a name. -/
def option? (name : String) : Option OptionSpec := g.names.lookup name

/-- A word cut at its first equals sign, if it has one. -/
def cutAtEquals (cs : List Char) : String × Option String :=
  let name := String.ofList (cs.takeWhile (· != '='))
  match cs.dropWhile (· != '=') with
  | _ :: value => (name, some (String.ofList value))
  | [] => (name, none)

/-- The options that a word may abbreviate. A long name may be cut short; behind the single letter
of a short name its value may follow at once. -/
def abbreviated (word : List Char) : List Occurrence :=
  match word with
  | '-' :: '-' :: _ =>
    let (start, attached?) := cutAtEquals word
    g.names.filterMap fun (name, o) =>
      if start.toList.isPrefixOf name.toList then some ⟨some o, name, attached?⟩ else none
  | '-' :: letter :: rest =>
    g.names.filterMap fun (name, o) =>
      if name == String.ofList ['-', letter] then
        some ⟨some o, name, some (String.ofList rest)⟩
      else if word.isPrefixOf name.toList then some ⟨some o, name, none⟩
      else none
  | _ => []

/-- What a word is for, two dashes apart. Words without a dash in front are arguments; so are a lone
dash, negative numbers and words with a blank that name no option. A word that may abbreviate two
options breaks the rules. -/
def classify (word : String) : Except Misread WordKind :=
  match word.toList with
  | '-' :: tail =>
    match g.option? word with
    | some o => .ok (.option ⟨some o, word, none⟩)
    | none =>
      if tail.isEmpty then .ok .argument
      else
        let (name, attached?) := cutAtEquals word.toList
        match attached?, g.option? name with
        | some attached, some o => .ok (.option ⟨some o, name, some attached⟩)
        | _, _ =>
          match g.abbreviated word.toList with
          | [o] => .ok (.option o)
          | _ :: _ :: _ => .error .misuse
          | [] =>
            if isNegativeNumber word.toList || tail.contains ' ' then .ok .argument
            else .ok (.option ⟨none, word, none⟩)
  | _ => .ok .argument

/-- Classify all words. -/
def classifyAll : List String → Except Misread (List Word)
  | [] => .ok []
  | word :: rest =>
    if word == separator then
      .ok (⟨word, .separator⟩ :: rest.map fun w => ⟨w, .argument⟩)
    else do
      let kind ← g.classify word
      let words ← classifyAll rest
      pure (⟨word, kind⟩ :: words)

/-- Take values for an option. -/
def take (r : Reading) (o : OptionSpec) (values : List String) : Except Misread Reading :=
  if o.key == helpKey then .error .help
  else if values.all o.accepts then .ok (r.add o.key values)
  else .error .misuse

/-- Letters behind a short flag are further short options; the value of one that takes values is
what remains of the word. The flags take effect once all letters have been read. -/
def takeLetters (flags : List OptionSpec) (r : Reading) : List Char → Except Misread Reading
  | [] => flags.foldlM (fun r o => take r o []) r
  | letter :: rest =>
    match g.option? (String.ofList ['-', letter]) with
    | none => .error .misuse
    | some o =>
      if o.arity = .flag then takeLetters (flags ++ [o]) r rest
      else do
        let r ← flags.foldlM (fun r o => take r o []) r
        take r o [String.ofList rest]

/-- Take an option with the value behind it in the same word. A separator in its place leaves the
option without a value. -/
def takeAttached (r : Reading) (o : OptionSpec) (name value : String) :
    Except Misread Reading :=
  match o.arity with
  | .flag =>
    if "--".toList.isPrefixOf name.toList || value.isEmpty then .error .misuse
    else g.takeLetters [o] r value.toList
  | _ => take r o ([value].erase separator)

/-- Take an option and the words behind it that are its values; tell how many these are. -/
def takeOption (r : Reading) (o : OptionSpec) (behind : List Word) :
    Except Misread (Reading × Nat) :=
  let arguments := (behind.takeWhile Word.isArgument).map (·.text)
  match o.arity with
  | .flag => do
    let r ← take r o []
    pure (r, 0)
  | .one =>
    match arguments with
    | [] => .error .misuse
    | value :: _ => do
      let r ← take r o [value]
      pure (r, 1)
  | .several =>
    if arguments.isEmpty then .error .misuse
    else do
      let r ← take r o arguments
      pure (r, arguments.length)

/-- How many words a positional argument takes from the front, if it can take any: an argument with
the separators around it, and for a command all words behind it. -/
def span (p : PositionalSpec) (words : List Word) : Option Nat :=
  let before := (words.takeWhile Word.isSeparator).length
  match words.drop before with
  | w :: rest =>
    if !w.isArgument then none
    else if p.takesRest then some words.length
    else some (before + 1 + (rest.takeWhile Word.isSeparator).length)
  | [] => none

/-- Take the words of a positional argument. Its first separator does not count, and behind a
separator even two dashes are an argument, so nothing may be left of it. -/
def takePositional (r : Reading) (p : PositionalSpec) (words : List Word) :
    Except Misread Reading :=
  let texts := words.map (·.text)
  if p.takesRest then
    if (texts.take 1).all p.accepts then .ok (r.add p.key texts) else .error .misuse
  else
    let values := texts.erase separator
    if values.all p.accepts then .ok (r.add p.key values) else .error .misuse

/-- Take as many positional arguments as the words at the front allow; give back the words and the
positional arguments that are left. -/
def takePositionals (r : Reading) : List PositionalSpec → List Word →
    Except Misread (Reading × List PositionalSpec × List Word)
  | [], words => .ok (r, [], words)
  | p :: rest, words =>
    match span p words with
    | none => .ok (r, p :: rest, words)
    | some n => do
      let r ← takePositional r p (words.take n)
      takePositionals r rest (words.drop n)

/-- Read words, options and positional arguments in turn. Every round takes a word at least, so the
number of words is fuel enough. -/
def readWords (g : Grammar) : Nat → Reading → List PositionalSpec → List Word →
    Except Misread (Reading × List PositionalSpec)
  | 0, r, positionals, _ => .ok (r, positionals)
  | fuel + 1, r, positionals, words =>
    if !words.any Word.isOption then do
      let (r, positionals, left) ← takePositionals r positionals words
      pure (r.skip (left.map (·.text)), positionals)
    else
      match words with
      | [] => .ok (r, positionals)
      | w :: rest =>
        match w.kind with
        | .option o =>
          match o.option?, o.attached? with
          | none, _ => readWords g fuel (r.skip [w.text]) positionals rest
          | some spec, some value => do
            let r ← g.takeAttached r spec o.name value
            readWords g fuel r positionals rest
          | some spec, none => do
            let (r, n) ← takeOption r spec rest
            readWords g fuel r positionals (rest.drop n)
        | _ => do
          let (r, positionals, left) ← takePositionals r positionals words
          if left.length < words.length then readWords g fuel r positionals left
          else
            let stray := words.takeWhile fun w => !w.isOption
            readWords g fuel (r.skip (stray.map (·.text))) positionals
              (words.drop stray.length)

/-- Read a command line. All positional arguments and the required options must be there; words
that nothing takes are told apart. -/
def read (words : List String) : Except Misread Reading := do
  let words ← g.classifyAll words
  let (r, missing) ← readWords g (words.length + 1) .empty g.positionals words
  if missing.isEmpty && g.required.all fun key => (r.find? key).isSome then pure r
  else throw .misuse

end Grammar

end SealedMatch
