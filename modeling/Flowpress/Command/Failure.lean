import Flowpress.Document.Emission
import Flowpress.Files.Tree
import Flowpress.Pipeline.Action
import Flowpress.Project.Settings

/-!
# Why a command fails
-/

namespace Flowpress.Command

open Files (FileError Path)

/-- Why a command fails. -/
inductive Failure where
  | settingsUnreadable (path : Path) (error : FileError)
  | settingsMalformed (path : Path)
  | settingsUnusable (error : SettingsError)
  | documentUnreadable (path : Path) (error : FileError)
  | documentMalformed (path : Path) (refusal : Json.Refusal)
  | emission (error : EmitError)
  /-- The text that a unit builds cannot be read back. -/
  | reloading (refusal : Json.Refusal)
  | statistics (error : PipelineError)
  | directoryNotMade (path : Path) (error : FileError)
  | fileNotReplaced (path : Path) (error : FileError)
  | notReproduced (path : Path)
  /-- The settings that a command is about cannot be loaded. -/
  | settingsNotLoaded (path : Path) (cause : Failure)
deriving DecidableEq

namespace Failure

/-- The failure of an emission or of loading a unit. -/
def ofDocumentError : DocumentError Json.Refusal → Failure
  | .serialization refusal => .reloading refusal
  | .emission error => .emission error

/-- The failure in words. -/
def message : Failure → String
  | .settingsUnreadable path error =>
    "Failed to read config file: " ++ path.text ++ ": " ++ error.message
  | .settingsMalformed path =>
    "Failed to parse config file: " ++ path.text ++ ": " ++ SettingsError.malformed.message
  | .settingsUnusable error => error.message
  | .documentUnreadable path error =>
    "Failed to read document: " ++ path.text ++ ": " ++ error.message
  | .documentMalformed path refusal =>
    "Failed to parse document JSON: " ++ path.text ++ ": " ++ refusal.message
  | .emission error => error.message
  | .reloading refusal => refusal.message
  | .statistics error => error.message
  | .directoryNotMade path error =>
    "Failed to create output directory: " ++ path.text ++ ": " ++ error.message
  | .fileNotReplaced path error =>
    "Failed to move generated file into place: " ++ path.text ++ ": " ++ error.message
  | .notReproduced path => "Generated unit does not reproduce " ++ path.text
  | .settingsNotLoaded path cause =>
    "Failed to load configuration from " ++ path.text ++ ": " ++ cause.message

end Failure

end Flowpress.Command
