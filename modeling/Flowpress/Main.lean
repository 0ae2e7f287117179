import Flowpress.Command.Program

/-!
# The executable

Runs the script of the program on the files of the machine.
-/

namespace Flowpress.Main

open Command (Environment Script)
open Files (FileError Path)

/-- The cause of a failed operation on files. -/
def fileError (error : IO.Error) : FileError :=
  let ofCode (code : UInt32) (details : String) : FileError :=
    if code = 2 then .notFound
    else if code = 16 then .busy
    else if code = 17 then .exists
    else if code = 20 then .notDirectory
    else if code = 21 then .isDirectory
    else .other (details ++ " (os error " ++ toString code ++ ")")
  match error with
  | .noFileOrDirectory _ code details | .alreadyExists _ code details
  | .inappropriateType _ code details | .permissionDenied _ code details => ofCode code details
  | .resourceBusy code details | .otherError code details => ofCode code details
  | error => .other (toString error)

/-- The answer of an operation that may fail. -/
def attempt {α : Type} (operation : IO α) : IO (Except FileError α) :=
  try return .ok (← operation) catch error => return .error (fileError error)

/-- The text of a file. -/
def readText (path : Path) : IO (Except FileError String) := do
  match ← attempt (IO.FS.readBinFile path.text) with
  | .error error => return .error error
  | .ok content =>
    match String.fromUTF8? content with
    | some text => return .ok text
    | none => return .error .notText

/-- Puts a text into a file by way of another file in its directory, so that nobody finds half of
it. -/
def replaceFile (path : Path) (text : String) : IO Unit := do
  let draft := ((Command.directoryOf path).join ".flowpress.draft").text
  IO.FS.writeFile draft text
  try IO.FS.rename draft path.text
  catch error => do
    IO.FS.removeFile draft
    throw error

/-- Runs a script. -/
def perform {α : Type} : Script α → IO α
  | .done result => return result
  | .print text next => do
    IO.print text
    perform next
  | .readText path next => do perform (next (← readText path))
  | .isPresent path next => do
    let answer ← attempt (IO.FS.realPath path.text)
    perform (next answer.toOption.isSome)
  | .isDirectory path next => do
    let answer ← attempt (do (← IO.FS.realPath path.text).isDir)
    perform (next (answer.toOption.getD false))
  | .makeDirectory path next => do perform (next (← attempt (IO.FS.createDir path.text)))
  | .replaceFile path text next => do perform (next (← attempt (replaceFile path text)))

/-- What the program finds around it. -/
def environment : IO Environment := do
  return {
    maxLines? := ← IO.getEnv "STRATA_MAX_LINES"
    colorForce? := ← IO.getEnv "CLICOLOR_FORCE"
    noColor? := ← IO.getEnv "NO_COLOR"
    outputIsTerminal := ← (← IO.getStdout).isTty
    errorIsTerminal := ← (← IO.getStderr).isTty }

end Flowpress.Main

/-- Runs the program and ends with its exit code. -/
def main (arguments : List String) : IO UInt32 := do
  let environment ← Flowpress.Main.environment
  let ending ← Flowpress.Main.perform (Flowpress.Command.program environment arguments)
  IO.eprint ending.complaint
  return ending.exitCode
