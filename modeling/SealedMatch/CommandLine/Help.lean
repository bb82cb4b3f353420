/-
Module: SealedMatch.CommandLine.Help
Purpose: What help says about settings, and whether it can be said.
Trusted boundary: none
Main exports: Settings.generalHelp, Settings.commandHelp, checkHelp
-/
import SealedMatch.CommandLine.Settings

namespace SealedMatch

/-- The facts about an option that its help may show by name, with their types. -/
def optionFacts : List (String × String) :=
  [("option_strings", "list"), ("dest", "str"), ("nargs", "NoneType"), ("const", "NoneType"),
    ("default", "str"), ("type", "NoneType"), ("choices", "str"), ("required", "bool"),
    ("help", "str"), ("metavar", "NoneType"), ("container", "_ArgumentGroup"), ("prog", "str")]

namespace Settings

variable (s : Settings)

/-- What the help in front of all commands says about settings. -/
def generalHelp : List String := ["Logging level. Default: " ++ s.logLevel ++ "."]

/-- What the help of a command says about settings, in the order in which it is said. -/
def commandHelp (command : String) : List String :=
  let dataset := "Dataset preset. Default: " ++ s.dataset ++ "."
  let strategy := "Execution strategy. Default: " ++ s.strategy ++ "."
  match command with
  | "verify" => [dataset, strategy]
  | "benchmark" => [dataset]
  | _ => []

end Settings

/-- Refuse help with directives that cannot be followed: a setting that holds percent signs may
spoil it. -/
def checkHelp (texts : List String) : Except Failure Unit :=
  texts.forM fun text =>
    (Text.checkDirectives optionFacts text).mapError fun d => .fault (.directive d)

end SealedMatch
