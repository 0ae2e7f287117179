import Flowpress.Command.Reading
import Flowpress.Command.Report
import Flowpress.Command.Script

/-!
# The program

The program reads its command line and runs the command that it asks for. A
command reads the settings, if there are any, and its document, computes, and
reports; only `generate` changes files. A command line that cannot be used ends
with exit code two, a command that fails with one.
-/

namespace Flowpress.Command

open Files (Path)

/-- A script that may fail. -/
abbrev Task (α : Type) := ExceptT Failure Script α

namespace Task

/-- Prints a text. -/
def print (text : String) : Task Unit := ExceptT.lift (.print text (.done ()))

/-- Goes on with a result, or fails. -/
def ofExcept {α : Type} (result : Except Failure α) : Task α := ExceptT.mk (.done result)

/-- The text of a file, or a failure. -/
def readText (path : Path) (failure : Files.FileError → Failure) : Task String :=
  ExceptT.mk (.readText path fun answer => .done (answer.mapError failure))

def isPresent (path : Path) : Task Bool := ExceptT.lift (.isPresent path .done)

/-- Makes a directory and, where they are missing, those on the way to it. -/
def ensureDirectory (path : Path) : Task Unit := ExceptT.mk do
  return (← Script.ensureDirectory path).mapError (Failure.directoryNotMade path)

/-- Puts a text into a file whose directory is there. -/
def replaceFile (path : Path) (text : String) : Task Unit :=
  ExceptT.mk (.replaceFile path text fun answer =>
    .done (answer.mapError (Failure.fileNotReplaced path)))

end Task

/-- Reads settings that must be there. -/
def readSettings (path : Path) : Task Settings := do
  let text ← Task.readText path (Failure.settingsUnreadable path)
  Task.ofExcept <| (Settings.read text).mapError fun
    | .malformed => .settingsMalformed path
    | error => .settingsUnusable error

/-- Reads settings that may be missing. -/
def findSettings (path : Path) : Task (Option Settings) := do
  if ← Task.isPresent path then
    let settings ← readSettings path
    return some settings
  else return none

/-- Reads a document. -/
def readDocument (path : Path) : Task Document := do
  let text ← Task.readText path (Failure.documentUnreadable path)
  Task.ofExcept <| (codec.decode text).mapError (Failure.documentMalformed path)

/-- The directory that a file goes to. -/
def directoryOf (path : Path) : Path :=
  match path.parent with
  | some parent => if parent.text = "" then ⟨"."⟩ else parent
  | none => ⟨"."⟩

/-- Writes a text to a file, making directories that are missing. -/
def writeFile (path : Path) (text : String) : Task Unit := do
  Task.ensureDirectory (directoryOf path)
  Task.replaceFile path text

/-- Does the work of an invocation. -/
def Invocation.run (invocation : Invocation) (colored : Bool) : Task Unit := do
  let print (value : Json.Value) (report : String) : Task Unit :=
    Task.print (if invocation.json then Line.json value else report)
  let announce (message : String) : Task Unit :=
    if invocation.json then pure () else Task.print (Line.step colored message)
  let path := invocation.settingsPath
  match invocation.job with
  | .generate input output? overrides =>
    let settings? ← findSettings path
    announce ("Reading document from " ++ input.text ++ "...")
    let document ← readDocument input
    let generation ← Task.ofExcept (Generation.of settings? input output? overrides document)
    writeFile generation.output generation.unit.source
    print generation.toValue (generation.report colored)
  | .inspect input overrides =>
    let settings? ← findSettings path
    let document ← readDocument input
    let inspection ← Task.ofExcept (Inspection.of settings? overrides document)
    print inspection.toValue (inspection.report input colored)
  | .verify input overrides =>
    let settings? ← findSettings path
    let document ← readDocument input
    let verification ← Task.ofExcept (Verification.of settings? overrides document)
    print verification.toValue (verification.report input colored)
    Task.ofExcept (if verification.passed then .ok () else .error (.notReproduced input))
  | .validate =>
    announce "Validating configuration..."
    let settings ← (readSettings path).adapt (Failure.settingsNotLoaded path)
    print (settingsValue settings) (settingsReport settings colored)

/-- How the program ends: its exit code, and what it complains about. -/
structure Ending where
  exitCode : UInt32
  complaint : String
deriving DecidableEq, Repr

/-- The program did what it was asked for. -/
def Ending.success : Ending := ⟨0, ""⟩

/-- How the program ends when a command line cannot be read to its end. -/
def Stop.ending (environment : Environment) : Stop → Script Ending
  | .help =>
    let colored := environment.usageColored environment.outputIsTerminal
    .print (Help.text colored) (.done .success)
  | .version => .print versionText (.done .success)
  | .overview level => .done ⟨2, level.summary ++ "\n"⟩
  | .usage error =>
    .done ⟨2, error.message (environment.usageColored environment.errorIsTerminal) ++ "\n"⟩

/-- The program. No shell gets any completions. -/
def program (environment : Environment) (arguments : List String) : Script Ending :=
  match Request.read environment arguments with
  | .error stop => stop.ending environment
  | .ok .help => Stop.help.ending environment
  | .ok (.completions _) => .done .success
  | .ok (.run invocation) => do
    match ← (invocation.run environment.reportsColored).run with
    | .ok () => return .success
    | .error failure => return ⟨1, Line.error environment.reportsColored failure⟩

end Flowpress.Command
