import Flowpress.Command.Style

/-!
# Arguments of the command line

The command line is a tree of commands: the program itself, its commands, and the
commands of its `config` command. Every command has named arguments, written with
two dashes or, some of them, with one dash and a letter; some take a value. The
commands that look at a document take its path without a name.
-/

namespace Flowpress.Command

/-- What the command line can say. -/
inductive Argument where
  /-- The path of a document, which has no name. -/
  | input
  | output
  | maxLines
  | target
  | name
  | config
  | json
  | verbose
  | completions
  | help
  | version
deriving DecidableEq, Repr

namespace Argument

/-- The name behind two dashes. -/
def long? : Argument → Option String
  | .input => none
  | .output => some "output"
  | .maxLines => some "max-lines"
  | .target => some "target"
  | .name => some "name"
  | .config => some "config"
  | .json => some "json"
  | .verbose => some "verbose"
  | .completions => some "completions"
  | .help => some "help"
  | .version => some "version"

/-- The letter behind one dash. -/
def short? : Argument → Option Char
  | .output => some 'o'
  | .target => some 't'
  | .config => some 'c'
  | .help => some 'h'
  | .version => some 'V'
  | _ => none

/-- What stands for the value in help and messages, if the argument takes one. -/
def placeholder? : Argument → Option String
  | .input => some "INPUT"
  | .output => some "OUTPUT"
  | .maxLines => some "MAX_LINES"
  | .target => some "TARGET"
  | .name => some "NAME"
  | .config => some "CONFIG"
  | .completions => some "SHELL"
  | .json | .verbose | .help | .version => none

def takesValue (argument : Argument) : Bool := argument.placeholder?.isSome

/-- The argument in messages. -/
def label (argument : Argument) : String :=
  let value := match argument.placeholder? with
    | some placeholder => "<" ++ placeholder ++ ">"
    | none => ""
  match argument.long? with
  | some long => if value = "" then "--" ++ long else "--" ++ long ++ " " ++ value
  | none => value

end Argument

/-- The program and its commands. -/
inductive Level where
  | program
  | generate
  | inspect
  | verify
  | config
  | validate
deriving DecidableEq, Repr

/-- What a word can mean where a command is expected. -/
inductive Subcommand where
  | help
  | level (level : Level)
deriving DecidableEq, Repr

namespace Level

/-- The named arguments of a command. -/
def arguments : Level → List Argument
  | .program => [.config, .json, .verbose, .completions, .help, .version]
  | .generate => [.output, .maxLines, .target, .name, .config, .json, .verbose, .help]
  | .inspect | .verify => [.maxLines, .target, .name, .config, .json, .verbose, .help]
  | .config | .validate => [.config, .json, .verbose, .help]

/-- Whether a command takes the path of a document. -/
def takesInput : Level → Bool
  | .generate | .inspect | .verify => true
  | _ => false

/-- The commands below a command. -/
def inner : Level → List (String × Level)
  | .program =>
    [("generate", .generate), ("inspect", .inspect), ("verify", .verify), ("config", .config)]
  | .config => [("validate", .validate)]
  | _ => []

/-- The command that a word names. Where there are commands, one of them gives help. -/
def subcommand? (level : Level) (word : String) : Option Subcommand :=
  match level.inner with
  | [] => none
  | inner => if word = "help" then some .help else (inner.lookup word).map .level

/-- The words that lead to a command. -/
def path : Level → String
  | .program => "strata"
  | .generate => "strata generate"
  | .inspect => "strata inspect"
  | .verify => "strata verify"
  | .config => "strata config"
  | .validate => "strata config validate"

/-- What a command does, in one line. -/
def summary : Level → String
  | .program => "Strata CLI - Generate chunked metadata sources from project documents"
  | .generate => "Generate a chunked source file from a JSON document"
  | .inspect => "Show segment layout and line statistics for a document"
  | .verify => "Emit in memory, run the driver and compare against the input"
  | .config => "Configuration management commands"
  | .validate => "Validate the configuration file"

end Level

/-- The shells for which completions can be asked for. -/
def shells : List String := ["bash", "elvish", "fish", "powershell", "zsh"]

end Flowpress.Command
