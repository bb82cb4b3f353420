/-
Module: SealedMatch.CommandLine.Command
Purpose: The commands, and the words that ask for them.
Trusted boundary: none
Main exports: MatchingOptions, Command, Invocation, Refusal, Invocation.read, Command.inputs
-/
import SealedMatch.CommandLine.Help
import SealedMatch.CommandLine.Options
import SealedMatch.Matching.Strategy
import SealedMatch.Policy.Preset
import SealedMatch.Store.Provider

namespace SealedMatch

/-- What a command that matches samples is told. An option can be given without its value; nothing
is known of it then. -/
structure MatchingOptions where
  dataset? : Option String
  dataPath? : Option Path
  /-- The seed of the engines, if there is to be a certain one. -/
  seed? : Option Int
  workers? : Option Int
  allowReduced : Bool
  /-- Where results are saved, if they are saved. -/
  output? : Option (Option Path)

/-- What can be asked for. Samples are named by their lines in the dataset, from one on. -/
inductive Command where
  /-- Match one probe with one template. -/
  | verify (o : MatchingOptions) (probe : Int) (template? : Option Int)
    (strategy? : Option String) (debug : Bool)
  /-- Compare strategies on pairs of samples. -/
  | benchmark (o : MatchingOptions) (probes templates : List Int) (strategies : List String)
  /-- Show the presets. -/
  | presets
  /-- Check and show the settings. -/
  | config

/-- A command, and which log lines are shown meanwhile. -/
structure Invocation where
  logLevel : String
  command : Command

/-- Why a command line asks for no command. -/
inductive Refusal where
  /-- It asks for help. -/
  | help
  /-- It breaks a rule of its grammar. -/
  | misuse
  /-- It asks for something that fails at once. -/
  | failure (f : Failure)

/-- What the type of a missing value is called: an option without a value holds an empty list. -/
def missingType : String := (Value.list []).typeName

/-- The integer that a word stands for. -/
def integerOf? (s : String) : Option Int := Decimal.liberal.integer? s.toList

namespace Reading

variable (r : Reading)

/-- Whether a flag is given. -/
def given (key : String) : Bool := (r.find? key).isSome

/-- The last value of a key, or a default if the key is not given; none if it is given without a
value. -/
def valueOr {α : Type} (key : String) (default? : Option α) (ofText? : String → Option α) :
    Option α :=
  match r.find? key with
  | none => default?
  | some values => values.head?.bind ofText?

/-- The integers among the values of a key. -/
def integers (key : String) : List Int :=
  ((r.find? key).getD []).filterMap integerOf?

end Reading

/-! ### Grammars -/

/-- Any word will do. -/
def anyWord (_ : String) : Bool := true

/-- Only integers will do. -/
def isIntegerWord (s : String) : Bool := (integerOf? s).isSome

/-- A long option: two dashes and its key. -/
def longOption (key : String) (arity : Arity) (accepts : String → Bool) : OptionSpec :=
  ⟨["--" ++ key], key, arity, accepts⟩

/-- The commands by name. -/
def commandNames : List String := ["verify", "benchmark", "presets", "config"]

/-- What stands before and behind the name of a command. -/
def invocationGrammar : Grammar where
  options := [helpOption, longOption "log-level" .one anyWord]
  positionals := [⟨"command", true, commandNames.contains⟩]
  required := []

/-- The options of commands that match samples. -/
def matchingOptions : List OptionSpec :=
  [helpOption, longOption "dataset" .one presetNames.contains,
    longOption "data-path" .one anyWord, longOption "seed" .one isIntegerWord,
    longOption "workers" .one isIntegerWord, longOption "allow-reduced-assurance" .flag anyWord,
    longOption "output" .one anyWord]

/-- The words behind `verify`. -/
def verifyGrammar : Grammar where
  options :=
    matchingOptions ++
      [longOption "strategy" .one strategyNames.contains, longOption "debug" .flag anyWord]
  positionals := [⟨"probe", false, isIntegerWord⟩, ⟨"template", false, isIntegerWord⟩]
  required := []

/-- The words behind `benchmark`. -/
def benchmarkGrammar : Grammar where
  options :=
    matchingOptions ++
      [longOption "probes" .several isIntegerWord, longOption "templates" .several isIntegerWord,
        longOption "strategies" .several strategyNames.contains]
  positionals := []
  required := ["probes", "templates"]

/-- Commands that take nothing. -/
def bareGrammar : Grammar := ⟨[helpOption], [], []⟩

/-! ### Reading -/

/-- Options that are not given have the values of the settings. -/
def MatchingOptions.ofReading (s : Settings) (r : Reading) : MatchingOptions where
  dataset? := r.valueOr "dataset" (some s.dataset) some
  dataPath? := r.valueOr "data-path" (some s.dataPath) fun text => some (Path.ofText text)
  seed? := r.valueOr "seed" s.seed? integerOf?
  workers? := r.valueOr "workers" (some s.maxWorkers) integerOf?
  allowReduced := r.given "allow-reduced-assurance"
  output? := (r.find? "output").map fun values => values.head?.map Path.ofText

/-- Read words. Who asks for help is refused it where it cannot be given. -/
def Grammar.readOrHelp (g : Grammar) (help : List String) (words : List String) :
    Except Refusal Reading :=
  (g.read words).mapError fun
    | .misuse => .misuse
    | .help =>
      match checkHelp help with
      | .ok () => .help
      | .error f => .failure f

namespace Command

/-- Read the words behind the name of a command; tell the words that nothing takes. -/
def read (s : Settings) (name : String) (words : List String) :
    Except Refusal (Command × List String) :=
  let help := s.commandHelp name
  match name with
  | "verify" => do
    let r ← verifyGrammar.readOrHelp help words
    match r.valueOr "probe" none integerOf? with
    | some probe =>
      let template? := r.valueOr "template" none integerOf?
      let strategy? := r.valueOr "strategy" (some s.strategy) some
      let debug := s.debug || r.given "debug"
      pure (.verify (.ofReading s r) probe template? strategy? debug, r.extras)
    | none => throw .misuse
  | "benchmark" => do
    let r ← benchmarkGrammar.readOrHelp help words
    let strategies := (r.find? "strategies").getD strategyNames
    pure
      (.benchmark (.ofReading s r) (r.integers "probes") (r.integers "templates") strategies,
        r.extras)
  | "presets" => do
    let r ← bareGrammar.readOrHelp help words
    pure (.presets, r.extras)
  | "config" => do
    let r ← bareGrammar.readOrHelp help words
    pure (.config, r.extras)
  | _ => throw .misuse

end Command

/-- Read a command line. No word may be left over, and the level of the log must be known. -/
def Invocation.read (s : Settings) (words : List String) : Except Refusal Invocation := do
  let r ← invocationGrammar.readOrHelp s.generalHelp words
  match r.find? "command" with
  | some (name :: rest) =>
    let (command, extras) ← Command.read s name rest
    if r.extras.isEmpty && extras.isEmpty then
      match r.valueOr "log-level" (some s.logLevel) some with
      | some level => pure ⟨level, command⟩
      | none => throw (.failure (.fault (.noAttribute missingType "upper")))
    else throw .misuse
  | _ => throw .misuse

/-- How commands are asked for. -/
def usage : String :=
  "usage: sealed-match [-h] [--log-level LEVEL] COMMAND ...\n" ++
    "\n" ++
    "  verify PROBE TEMPLATE [--strategy NAME] [--debug]\n" ++
    "  benchmark --probes LINE ... --templates LINE ... [--strategies NAME ...]\n" ++
    "  presets\n" ++
    "  config\n" ++
    "\n" ++
    "verify and benchmark also take --dataset NAME, --data-path DIRECTORY, --seed NUMBER,\n" ++
    "--workers NUMBER, --allow-reduced-assurance and --output DIRECTORY.\n"

/-! ### Files -/

/-- The files of the classifier of a dataset. -/
def TableProvider.files (p : TableProvider) : List Path :=
  let dataset := p.configuration.datasetName
  let start := (p.layout.scoreTableStart dataset).text
  p.datasetFile :: p.layout.binsPath dataset ::
    (List.range p.configuration.featureCount).map fun feature => scoreTablePath start feature

/-- The source of the classifier inputs that options name. -/
def MatchingOptions.provider (o : MatchingOptions) : Except Failure TableProvider :=
  match o.dataset? with
  | none => .error (.fault (.noAttribute missingType "upper"))
  | some dataset => do
    let c ← findPreset dataset
    match o.dataPath? with
    | none => throw (.fault (.notAPath missingType))
    | some dataPath => pure ⟨c, .standard dataPath⟩

/-- A strategy by name, with the workers that options name. -/
def MatchingOptions.strategy (o : MatchingOptions) (name? : Option String) :
    Except Failure Strategy :=
  match name? with
  | none => .error (.fault (.noAttribute missingType "lower"))
  | some name => do
    let s ← findStrategy name none
    pure { s with maxWorkers? := o.workers? }

/-- The files that a command may read. -/
def Command.inputs : Command → List Path
  | verify o _ _ _ _ => (o.provider.map (·.files)).toOption.getD []
  | benchmark o _ _ _ => (o.provider.map (·.files)).toOption.getD []
  | presets => []
  | config => []

end SealedMatch
