import Flowpress.Emission.Config
import Flowpress.Json.Record

/-!
# Configurations as data

A configuration is read from a JSON text or value and written back as JSON.
Settings that are left out take their standard values; names may also be null.
-/

namespace Flowpress.EmitterConfig

/-- The settings of a configuration, in the order of declaration. -/
inductive Setting where
  | maxLines
  | target
  | partPrefix
  | driverName
  | accumulator
  | unitName
deriving DecidableEq, Repr

/-- Every setting. -/
def Setting.all : List Setting :=
  [.maxLines, .target, .partPrefix, .driverName, .accumulator, .unitName]

def Setting.name : Setting → String
  | .maxLines => "max_lines_per_segment"
  | .target => "target"
  | .partPrefix => "part_prefix"
  | .driverName => "driver_name"
  | .accumulator => "accumulator"
  | .unitName => "unit_name"

/-- A configuration while it is read, and the settings read so far. -/
structure Draft where
  config : EmitterConfig
  read : List Setting

/-- Nothing read yet: the standard values. -/
def Draft.initial : Draft := ⟨.standard, []⟩

/-- The draft with a setting read. -/
def Draft.set (draft : Draft) (setting : Setting) (change : EmitterConfig → EmitterConfig) :
    Draft :=
  ⟨change draft.config, setting :: draft.read⟩

/-- A configuration with one of its names set. -/
def withName (config : EmitterConfig) (setting : Setting) (name : Option String) : EmitterConfig :=
  match setting with
  | .partPrefix => { config with partPrefix? := name }
  | .driverName => { config with driverName? := name }
  | .accumulator => { config with accumulator? := name }
  | .unitName => { config with unitName? := name }
  | _ => config

/-- The names of the targets with what they mean. -/
def targetNames : List (String × Target) := Target.all.map fun target => (target.name, target)

open Json (Cursor Fault RecordField Reader Refusal Value)

/-- Reads a setting from a text. -/
def Setting.read (setting : Setting) (levels : Nat) (draft : Draft) : Reader Draft := fun cursor =>
  match setting with
  | .maxLines => do
    let (count, cursor) ← cursor.natural
    .ok (draft.set setting fun config => { config with maxLines := count }, cursor)
  | .target => do
    let (language, cursor) ← Cursor.variant targetNames levels cursor
    .ok (draft.set setting fun config => { config with target := language }, cursor)
  | _ => do
    let (name, cursor) ← Cursor.optional Cursor.text cursor
    .ok (draft.set setting fun config => config.withName setting name, cursor)

/-- Takes a setting from a value. -/
def Setting.decode (setting : Setting) (value : Value) (draft : Draft) : Except Fault Draft :=
  match setting with
  | .maxLines => value.asNatural.map fun count =>
    draft.set setting fun config => { config with maxLines := count }
  | .target => (value.variant targetNames).map fun language =>
    draft.set setting fun config => { config with target := language }
  | _ => (value.asOptional Value.asText).map fun name =>
    draft.set setting fun config => config.withName setting name

/-- The setting as a field of a record. -/
def Setting.field (setting : Setting) : RecordField Draft where
  name := setting.name
  isSet draft := decide (setting ∈ draft.read)
  read levels draft := setting.read levels draft

/-- What a configuration is called in refusals. -/
def recordName : String := "struct EmitterConfig"

/-- Reads a configuration from a JSON text. -/
def read (text : String) : Except Refusal EmitterConfig :=
  (Cursor.readWhole (fun bound => Cursor.record bound Json.nestingLimit recordName
    (Setting.all.map Setting.field) Draft.initial) text).map Draft.config

/-- Takes settings from the members of an object; others are left alone. -/
def decodeMembers (draft : Draft) : List (String × Value) → Except Fault Draft
  | [] => .ok draft
  | (name, value) :: rest => do
    match Setting.all.find? fun setting => setting.name == name with
    | some setting => decodeMembers (← setting.decode value draft) rest
    | none => decodeMembers draft rest

/-- Takes settings from the elements of an array, in the order of declaration. -/
def decodeElements (draft : Draft) : List Setting → List Value → Except Fault Draft
  | setting :: settings, value :: rest => do
    decodeElements (← setting.decode value draft) settings rest
  | _, _ => .ok draft

/-- Takes a configuration from a JSON value. -/
def ofValue (value : Value) : Except Fault EmitterConfig :=
  match value with
  | .object members => (decodeMembers .initial members).map Draft.config
  | .array elements => do
    let draft ← decodeElements .initial Setting.all elements
    if elements.length ≤ Setting.all.length then .ok draft.config
    else .error (.wrongLength elements.length "fewer elements in array")
  | other => .error (other.mismatch recordName)

/-- A configuration as a JSON value, in the order of declaration; names that are not set are left
out. -/
def toValue (config : EmitterConfig) : Value :=
  let name (setting : Setting) : Option String → List (String × Value)
    | some name => [(setting.name, .string name)]
    | none => []
  .object (
    [(Setting.maxLines.name, .ofNat config.maxLines),
      (Setting.target.name, .string config.target.name)] ++
    name .partPrefix config.partPrefix? ++ name .driverName config.driverName? ++
    name .accumulator config.accumulator? ++ name .unitName config.unitName?)

/-- A configuration as a JSON text without spaces. -/
def write (config : EmitterConfig) : String := config.toValue.write .compact

end Flowpress.EmitterConfig
