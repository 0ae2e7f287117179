import Flowpress.Command.Usage
import Flowpress.Emission.Target
import Flowpress.Project.Settings

/-!
# Reading a command line

A command line is read word by word, one command after the other. What stands
behind two lone dashes is never a named argument. A value is looked at when the
next argument shows up or the command line ends, so an unknown argument is
reported in front of a value that does not fit. The commands inside are read in
full before the last value in front of them is looked at.

Arguments that all commands know may stand at any of them; of several, the one
farthest inside counts.
-/

namespace Flowpress.Command

/-- What has been said so far at one command. -/
structure Said where
  input? : Option Files.Path
  output? : Option Files.Path
  maxLines? : Option Nat
  target? : Option Target
  name? : Option String
  config? : Option String
  json : Bool
  verbose : Bool
  completions? : Option String
deriving DecidableEq, Repr

/-- Why the reading of a command line stops before its end. -/
inductive Stop where
  | help
  | version
  /-- A command with further commands was given without anything. -/
  | overview (level : Level)
  | usage (error : UsageError)
deriving DecidableEq, Repr

/-! ## Values -/

/-- Reads digits behind a number. The first digit that is none, or that makes the number too large,
is the fault. -/
def countFrom (number : Nat) : List Char → Except CountFault Nat
  | [] => .ok number
  | char :: rest =>
    if char.isDigit then
      let number := number * 10 + (char.toNat - '0'.toNat)
      if number < UInt64.size then countFrom number rest else .error .tooLarge
    else .error .notDigit

/-- Reads a count that fits a word. A plus may stand in front. -/
def countOf (text : String) : Except CountFault Nat :=
  match text.toList with
  | [] => .error .empty
  | ['+'] => .error .notDigit
  | '+' :: digits => countFrom 0 digits
  | digits => countFrom 0 digits

namespace Said

/-- Nothing said. -/
def nothing : Said := ⟨none, none, none, none, none, none, false, false, none⟩

/-- Whether an argument has been said. -/
def has (said : Said) : Argument → Bool
  | .input => said.input?.isSome
  | .output => said.output?.isSome
  | .maxLines => said.maxLines?.isSome
  | .target => said.target?.isSome
  | .name => said.name?.isSome
  | .config => said.config?.isSome
  | .json => said.json
  | .verbose => said.verbose
  | .completions => said.completions?.isSome
  | .help | .version => false

/-- A path out of a value, which must not be empty. -/
def pathOf (argument : Argument) (value : String) : Except UsageError Files.Path :=
  if value = "" then .error (.missingValue argument) else .ok ⟨value⟩

/-- Takes an argument with its value. The value of an argument that takes none is not looked at. -/
def take (said : Said) (argument : Argument) (value : String) : Except UsageError Said :=
  if said.has argument then .error (.repeated argument)
  else
    match argument with
    | .input => (pathOf argument value).map fun path => { said with input? := some path }
    | .output => (pathOf argument value).map fun path => { said with output? := some path }
    | .maxLines =>
      match countOf value with
      | .ok count => .ok { said with maxLines? := some count }
      | .error fault => .error (.invalidCount argument value fault)
    | .target =>
      match Target.ofName? value with
      | some target => .ok { said with target? := some target }
      | none => .error (.invalidTarget argument value)
    | .name => .ok { said with name? := some value }
    | .config => .ok { said with config? := some value }
    | .json => .ok { said with json := true }
    | .verbose => .ok { said with verbose := true }
    | .completions =>
      if value ∈ shells then .ok { said with completions? := some value }
      else if value = "" then .error (.missingValue argument)
      else .error (.unlistedValue argument value)
    | .help | .version => .ok said

/-- What is said at a command inside, together with what all commands know from outside. -/
def inherit (inside outside : Said) : Said :=
  { inside with
    config? := inside.config? <|> outside.config?
    json := inside.json || outside.json
    verbose := inside.verbose || outside.verbose
    completions? := inside.completions? <|> outside.completions? }

end Said

/-! ## Words -/

/-- What a word of a command line looks like. -/
inductive Word where
  /-- Two dashes and a name, with what stands behind an equals sign. -/
  | long (name : String) (value? : Option String)
  /-- One dash and letters. -/
  | short (letters : List Char)
  /-- Two lone dashes. -/
  | divider
  | plain
deriving DecidableEq, Repr

/-- What a word looks like. -/
def Word.ofText (text : String) : Word :=
  match text.toList with
  | ['-', '-'] => .divider
  | '-' :: '-' :: rest =>
    let name := String.ofList (rest.takeWhile (· != '='))
    match rest.dropWhile (· != '=') with
    | _ :: value => .long name (some (String.ofList value))
    | [] => .long name none
  | '-' :: char :: rest => .short (char :: rest)
  | _ => .plain

/-- A command while it is read. -/
structure Progress where
  said : Said
  /-- The last argument, with its value if that has come, before the value is looked at. -/
  pending? : Option (Argument × Option String)
  inputGiven : Bool
  /-- Two lone dashes have been passed. -/
  divided : Bool

namespace Progress

/-- Nothing read yet. -/
def initial : Progress := ⟨.nothing, none, false, false⟩

/-- Whether the next word is the value of the last argument. -/
def awaitsValue (progress : Progress) : Bool :=
  match progress.pending? with
  | some (_, none) => true
  | _ => false

/-- Takes the last argument. -/
def settle (progress : Progress) : Except UsageError Progress := do
  match progress.pending? with
  | none => .ok progress
  | some (argument, none) => .error (.missingValue argument)
  | some (argument, some value) =>
    .ok { progress with said := ← progress.said.take argument value, pending? := none }

/-- Passes errors on as reasons to stop. -/
def stopping {α : Type} (result : Except UsageError α) : Except Stop α := result.mapError .usage

/-- Takes an argument without a value. -/
def flag (progress : Progress) (argument : Argument) : Except Stop Progress := do
  let progress ← stopping progress.settle
  match argument with
  | .help => .error .help
  | .version => .error .version
  | argument => .ok { progress with said := ← stopping (progress.said.take argument "") }

/-- Takes an argument whose value is attached, or comes next. -/
def option (progress : Progress) (argument : Argument) (value? : Option String) :
    Except Stop Progress := do
  let progress ← stopping progress.settle
  match value? with
  | some value => .ok { progress with said := ← stopping (progress.said.take argument value) }
  | none => .ok { progress with pending? := some (argument, none) }

/-- Takes a name behind two dashes. -/
def long (progress : Progress) (level : Level) (name : String) (value? : Option String) :
    Except Stop Progress :=
  match level.arguments.find? fun argument => argument.long? == some name with
  | none => .error (.usage (.unexpectedArgument ("--" ++ name)))
  | some argument =>
    if argument.takesValue then progress.option argument value?
    else
      match value? with
      | some value => .error (.usage (.unexpectedValue argument value))
      | none => progress.flag argument

/-- Takes letters behind one dash. What stands behind the letter of an argument with a value is the
value. -/
def short (progress : Progress) (level : Level) : List Char → Except Stop Progress
  | [] => .ok progress
  | letter :: rest =>
    match level.arguments.find? fun argument => argument.short? == some letter with
    | none => .error (.usage (.unexpectedArgument (String.ofList ['-', letter])))
    | some argument =>
      if argument.takesValue then
        match rest with
        | [] => progress.option argument none
        | '=' :: value => progress.option argument (some (String.ofList value))
        | value => progress.option argument (some (String.ofList value))
      else do (← progress.flag argument).short level rest

/-- Takes a word that is no named argument. -/
def positional (progress : Progress) (level : Level) (text : String) : Except Stop Progress :=
  if level.takesInput && !progress.inputGiven then do
    let progress ← stopping progress.settle
    .ok { progress with pending? := some (.input, some text), inputGiven := true }
  else if level.inner.isEmpty || progress.divided && (level.subcommand? text).isSome then
    .error (.usage (.unexpectedArgument text))
  else .error (.usage (.unknownSubcommand text))

/-- Takes a word that may be the value of the last argument. -/
def plain (progress : Progress) (level : Level) (text : String) : Except Stop Progress :=
  match progress.pending? with
  | some (argument, none) => .ok { progress with pending? := some (argument, some text) }
  | _ => progress.positional level text

/-- The command that a word names where a command may stand. -/
def subcommand? (progress : Progress) (level : Level) (text : String) : Option Subcommand :=
  if progress.divided || progress.awaitsValue then none else level.subcommand? text

/-- Reads the words of one command: up to the end, or to the next command, which is given with the
words behind it. -/
def scan (level : Level) :
    Progress → List String → Except Stop (Progress × Option (Subcommand × List String))
  | progress, [] => .ok (progress, none)
  | progress, text :: rest =>
    match progress.subcommand? level text with
    | some subcommand => .ok (progress, some (subcommand, rest))
    | none => do
      let progress ←
        if progress.divided then progress.positional level text
        else
          match Word.ofText text with
          | .divider => .ok { progress with divided := true }
          | .long name value? => progress.long level name value?
          | .short letters => progress.short level letters
          | .plain => progress.plain level text
      scan level progress rest

/-- What was said at a command when all its words are read. The environment stands in for a number
of lines that was not given. -/
def finish (progress : Progress) (environment : Environment) (level : Level) :
    Except Stop Said := do
  let said := (← stopping progress.settle).said
  let wanted := decide (Argument.maxLines ∈ level.arguments) && said.maxLines?.isNone
  match environment.maxLines?, wanted with
  | some value, true => stopping (said.take .maxLines value)
  | _, _ => .ok said

end Progress

/-! ## Commands -/

/-- Help on a command inside. -/
def helpOn : Level → List String → Stop
  | _, [] => .help
  | level, word :: rest =>
    match level.subcommand? word, rest with
    | none, _ => .usage (.unknownSubcommand word)
    | some .help, next :: _ => .usage (.unknownSubcommand next)
    | some .help, [] => .help
    | some (.level inside), rest => helpOn inside rest

/-- What a command needs. -/
def checkNeeds (level : Level) (said : Said) : Except Stop Unit :=
  if level = .config then
    if said = .nothing then .error (.overview level)
    else .error (.usage (.missingSubcommand level))
  else if level.takesInput && said.input?.isNone then .error (.usage .missingArguments)
  else .ok ()

/-- Reads a command line from a command on, which has at most `depth` commands inside each other:
the command farthest inside, and all that was said. -/
def readFrom (environment : Environment) : Nat → Level → List String → Except Stop (Level × Said)
  | 0, level, _ => .ok (level, .nothing)
  | depth + 1, level, words => do
    match ← Progress.initial.scan level words with
    | (progress, none) =>
      let said ← progress.finish environment level
      checkNeeds level said
      .ok (level, said)
    | (_, some (.help, words)) => .error (helpOn level words)
    | (progress, some (.level inside, words)) =>
      let (innermost, said) ← readFrom environment depth inside words
      let outside ← progress.finish environment level
      .ok (innermost, said.inherit outside)

/-- How deep commands stand inside each other. -/
def levelDepth : Nat := 3

/-- The work that a command line asks for. -/
inductive Job where
  | generate (input : Files.Path) (output? : Option Files.Path) (overrides : Overrides)
  | inspect (input : Files.Path) (overrides : Overrides)
  | verify (input : Files.Path) (overrides : Overrides)
  | validate
deriving DecidableEq, Repr

/-- A command line that was read. -/
structure Invocation where
  /-- The path of the settings. -/
  settingsPath : Files.Path
  json : Bool
  verbose : Bool
  job : Job
deriving DecidableEq, Repr

/-- What a command line asks for. -/
inductive Request where
  | help
  | completions (shell : String)
  | run (invocation : Invocation)
deriving DecidableEq, Repr

/-- Where settings are unless the command line says otherwise. -/
def standardSettingsPath : String := "strata.toml"

/-- The work of the command that was read, if it has any. -/
def Job.ofSaid (level : Level) (said : Said) : Option Job :=
  let overrides : Overrides := ⟨said.target?, said.maxLines?, said.name?⟩
  match level, said.input? with
  | .generate, some input => some (.generate input said.output? overrides)
  | .inspect, some input => some (.inspect input overrides)
  | .verify, some input => some (.verify input overrides)
  | .validate, _ => some .validate
  | _, _ => none

/-- Reads a command line. -/
def Request.read (environment : Environment) (words : List String) : Except Stop Request := do
  let (level, said) ← readFrom environment levelDepth .program words
  match said.completions?, Job.ofSaid level said with
  | some shell, _ => .ok (.completions shell)
  | none, none => .ok .help
  | none, some job =>
    .ok (.run {
      settingsPath := ⟨said.config?.getD standardSettingsPath⟩
      json := said.json
      verbose := said.verbose
      job })

end Flowpress.Command
