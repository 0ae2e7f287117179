import Flowpress.Command.Argument
import Flowpress.Emission.Target

/-!
# Help and usage errors

The help of the program lists its commands and its named arguments in two
columns. A usage error says, in one line, which part of a command line cannot be
used and why.
-/

namespace Flowpress.Command

/-- Why a numeral is no count. -/
inductive CountFault where
  | empty
  | notDigit
  | tooLarge
deriving DecidableEq, Repr

/-- The fault in words. -/
def CountFault.message : CountFault → String
  | .empty => "cannot parse integer from empty string"
  | .notDigit => "invalid digit found in string"
  | .tooLarge => "number too large to fit in target type"

/-- Why a command line cannot be used. -/
inductive UsageError where
  | missingArguments
  | missingSubcommand (level : Level)
  | unknownSubcommand (word : String)
  | unexpectedArgument (word : String)
  | unexpectedValue (argument : Argument) (value : String)
  | missingValue (argument : Argument)
  | repeated (argument : Argument)
  | invalidCount (argument : Argument) (value : String) (fault : CountFault)
  | invalidTarget (argument : Argument) (value : String)
  | unlistedValue (argument : Argument) (value : String)
deriving DecidableEq, Repr

/-- The error in words, in one line. -/
def UsageError.message (error : UsageError) (colored : Bool) : String :=
  let word (text : String) : String := "'" ++ Emphasis.invalid.enclose colored text ++ "'"
  let label (argument : Argument) (emphasis : Emphasis) : String :=
    "'" ++ emphasis.enclose colored argument.label ++ "'"
  let invalid (argument : Argument) (value : String) : String :=
    "invalid value " ++ word value ++ " for " ++ label argument .literal
  Emphasis.usageError.enclose colored "error:" ++ " " ++ match error with
    | .missingArguments => "the following required arguments were not provided:"
    | .missingSubcommand level =>
      word level.path ++ " requires a subcommand but one was not provided"
    | .unknownSubcommand text => "unrecognized subcommand " ++ word text
    | .unexpectedArgument text => "unexpected argument " ++ word text ++ " found"
    | .unexpectedValue argument value =>
      "unexpected value " ++ word value ++ " for " ++ label argument .literal ++
        " found; no more were expected"
    | .missingValue argument =>
      "a value is required for " ++ label argument .literal ++ " but none was supplied"
    | .repeated argument =>
      "the argument " ++ label argument .invalid ++ " cannot be used multiple times"
    | .invalidCount argument value fault => invalid argument value ++ ": " ++ fault.message
    | .invalidTarget argument value =>
      invalid argument value ++ ": " ++ Target.unknownMessage value
    | .unlistedValue argument value => invalid argument value

namespace Help

/-- What an argument of the program says, in one line. -/
def summary : Argument → String
  | .config => "Path to strata.toml configuration file [default: strata.toml]"
  | .json => "Output as JSON (machine-readable format)"
  | .verbose => "Enable verbose output"
  | .completions =>
    "Generate shell completions [possible values: " ++ String.intercalate ", " shells ++ "]"
  | .help => "Print help"
  | .version => "Print version"
  | _ => ""

/-- A row of a list: its left column, how that is shown, and its right column. -/
structure Row where
  left : String
  shown : String
  right : String

/-- The row of a command. -/
def commandRow (colored : Bool) (name summary : String) : Row where
  left := name
  shown := Emphasis.literal.enclose colored name
  right := summary

/-- The row of a named argument: its letter, its name and what stands for its value. -/
def argumentRow (colored : Bool) (argument : Argument) : Row :=
  let row (colored : Bool) : String :=
    let letter := match argument.short? with
      | some letter => Emphasis.literal.enclose colored (String.ofList ['-', letter]) ++ ", "
      | none => "    "
    let name := Emphasis.literal.enclose colored ("--" ++ argument.long?.getD "")
    let value := match argument.placeholder? with
      | some placeholder => " <" ++ placeholder ++ ">"
      | none => ""
    letter ++ name ++ value
  ⟨row false, row colored, summary argument⟩

/-- The lines of a list, with its columns two spaces apart. -/
def list (rows : List Row) : String :=
  let width := rows.foldl (fun width row => max width row.left.length) 0
  String.join <| rows.map fun row =>
    let space := String.ofList (List.replicate (width - row.left.length + 2) ' ')
    "  " ++ row.shown ++ space ++ row.right ++ "\n"

/-- The help of the program. -/
def text (colored : Bool) : String :=
  let heading (text : String) : String := Emphasis.usageHeading.enclose colored text
  let commands := Level.program.inner.map fun (name, level) =>
    commandRow colored name level.summary
  let help := commandRow colored "help" "Print this message or the help of the given subcommand(s)"
  Level.program.summary ++ "\n\n" ++
    heading "Usage:" ++ " " ++ Emphasis.literal.enclose colored Level.program.path ++
      " [OPTIONS] [COMMAND]\n\n" ++
    heading "Commands:" ++ "\n" ++ list (commands ++ [help]) ++ "\n" ++
    heading "Options:" ++ "\n" ++ list (Level.program.arguments.map (argumentRow colored))

end Help

/-- The version of the program. -/
def versionText : String := "strata 0.1.0\n"

end Flowpress.Command
