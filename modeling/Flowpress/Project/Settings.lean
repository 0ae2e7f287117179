import Flowpress.Emission.ConfigCodec
import Flowpress.Files.Path
import Flowpress.Text.Blank
import Flowpress.Toml.Decode
import Flowpress.Toml.Document

/-!
# Project settings

The settings of a project name it, configure its emissions and say where
generated files go. They are read from a TOML text. `Settings.resolve` puts
settings, overrides and the name of a document together to the configuration of
one emission: overrides win over settings, and settings over standard values.
-/

namespace Flowpress

/-- The settings of a project. -/
structure Settings where
  project : String
  emission : EmitterConfig
  outputDirectory? : Option String
deriving DecidableEq, Repr

/-- Why settings cannot be used. -/
inductive SettingsError where
  /-- The text is no TOML, or its values do not fit. -/
  | malformed
  | blankProject
  | emission (error : EmitError)
  | blankOutputDirectory
deriving DecidableEq, Repr

/-- The error in words. -/
def SettingsError.message : SettingsError → String
  | .malformed => "TOML parse error"
  | .blankProject => "Project name cannot be empty"
  | .emission error => "Invalid [codegen] section: " ++ error.message
  | .blankOutputDirectory => "Output directory cannot be empty"

namespace EmitterConfig

open Toml (Value)

/-- Takes one setting of an emission from a value. -/
def Setting.ofToml (setting : Setting) (value : Value) (config : EmitterConfig) :
    Option EmitterConfig :=
  match setting with
  | .maxLines => value.asNatural.map fun count => { config with maxLines := count }
  | .target => (value.variant targetNames).map fun language => { config with target := language }
  | _ => value.asText.map fun name => config.withName setting (some name)

/-- Takes the settings of an emission from a value; those that are missing keep their standard
values. -/
def ofToml (value : Value) : Option EmitterConfig :=
  if value.isRecord then
    Setting.all.zipIdx.foldlM (fun config (setting, place) =>
      match value.field? setting.name place with
      | some value => setting.ofToml value config
      | none => some config) standard
  else none

end EmitterConfig

namespace Settings

/-- Where generated files go unless the settings say otherwise. -/
def standardOutputDirectory : String := "./generated"

/-- Takes the name of a project from the value of its section. -/
def projectOfToml (content : Toml.Value) : Option String := do (← content.field? "name" 0).asText

/-- Takes the output directory from the value of its section. -/
def outputOfToml (content : Toml.Value) : Option String :=
  if content.isRecord then
    match content.field? "dir" 0 with
    | some directory => directory.asText
    | none => some standardOutputDirectory
  else none

/-- Takes settings from a table. -/
def ofToml (value : Toml.Value) : Option Settings := do
  let project ← projectOfToml (← value.field? "project" 0)
  let emission ← match value.field? "codegen" 1 with
    | some emission => EmitterConfig.ofToml emission
    | none => some .standard
  let outputDirectory? ← match value.field? "output" 2 with
    | some output => (outputOfToml output).map some
    | none => some none
  some { project, emission, outputDirectory? }

/-- The first reason why settings cannot be used, if there is one. -/
def check (settings : Settings) : Except SettingsError Unit := do
  if Text.isBlank settings.project then .error .blankProject
  settings.emission.check.mapError .emission
  if settings.outputDirectory?.any Text.isBlank then .error .blankOutputDirectory

/-- Reads settings that can be used. -/
def read (text : String) : Except SettingsError Settings :=
  match (Toml.read text).bind ofToml with
  | none => .error .malformed
  | some settings => do
    settings.check
    .ok settings

def outputDirectory (settings : Settings) : String :=
  settings.outputDirectory?.getD standardOutputDirectory

end Settings

/-- What a command says about an emission in place of the settings. -/
structure Overrides where
  target? : Option Target
  maxLines? : Option Nat
  unitName? : Option String
deriving DecidableEq, Repr

/-- The configuration of an emission. A unit without a name is named after its document, or else
after the project. -/
def Settings.resolve (settings? : Option Settings) (overrides : Overrides)
    (documentName? : Option String) : EmitterConfig :=
  let base := match settings? with
    | some settings => settings.emission
    | none => .standard
  { base with
    target := overrides.target?.getD base.target
    maxLines := overrides.maxLines?.getD base.maxLines
    unitName? :=
      overrides.unitName? <|> base.unitName? <|> documentName? <|> settings?.map Settings.project }

/-- The file for the unit of a document: in the output directory, named after the file of the
document. -/
def Settings.outputPath (settings? : Option Settings) (input : Files.Path) (target : Target) :
    Files.Path :=
  let directory := match settings? with
    | some settings => settings.outputDirectory
    | none => standardOutputDirectory
  (Files.Path.mk directory).join
    (input.stem?.getD "document" ++ "_metadata." ++ target.fileExtension)

end Flowpress
