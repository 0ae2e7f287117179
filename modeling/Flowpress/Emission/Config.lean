import Flowpress.Emission.Error

/-!
# Emitter configurations

A configuration says how many lines a segment may have, which target is written,
and how the generated functions are called. Names that are not set follow the
conventions of the target. `EmitterConfig.check` finds the first reason why a
configuration cannot be used.
-/

namespace Flowpress

/-- Settings of an emission. -/
structure EmitterConfig where
  maxLines : Nat
  target : Target
  partPrefix? : Option String
  driverName? : Option String
  accumulator? : Option String
  /-- The name in the header of the generated file. -/
  unitName? : Option String
deriving DecidableEq, Repr

namespace EmitterConfig

/-- A hundred lines to a segment, and no name set. -/
def ofTarget (target : Target) : EmitterConfig where
  maxLines := 100
  target := target
  partPrefix? := none
  driverName? := none
  accumulator? := none
  unitName? := none

/-- The settings that hold where nothing is said. -/
def standard : EmitterConfig := ofTarget .rust

def partPrefix (config : EmitterConfig) : String :=
  config.partPrefix?.getD config.target.defaultPartPrefix

def driverName (config : EmitterConfig) : String := config.driverName?.getD "init"

def accumulator (config : EmitterConfig) : String := config.accumulator?.getD "sb"

def unitName (config : EmitterConfig) : String := config.unitName?.getD "document"

/-- The name of the part with an index. -/
def partName (config : EmitterConfig) (index : Nat) : String := config.partPrefix ++ toString index

/-- Whether a character can begin an identifier: an ASCII letter or an underscore. -/
def isIdentifierStart (char : Char) : Bool := char.isAlpha || char == '_'

/-- Whether a character can stand in an identifier behind its first. -/
def isIdentifierPart (char : Char) : Bool := char.isAlphanum || char == '_'

/-- Whether a name is an identifier in both targets, keywords included. -/
def isIdentifier (name : String) : Bool :=
  match name.toList with
  | [] => false
  | first :: rest => isIdentifierStart first && rest.all isIdentifierPart

/-- The name that a configuration gives to a role. -/
def nameOf (config : EmitterConfig) : NameRole → String
  | .partPrefix => config.partPrefix
  | .driverName => config.driverName
  | .accumulator => config.accumulator

/-- Refuses a name that is no identifier. -/
def checkIdentifier (config : EmitterConfig) (role : NameRole) : Except EmitError Unit :=
  if isIdentifier (config.nameOf role) then .ok ()
  else .error (.notIdentifier role (config.nameOf role))

/-- Refuses a name that the target reserves. -/
def checkReserved (config : EmitterConfig) (role : NameRole) : Except EmitError Unit :=
  if config.nameOf role ∈ config.target.reservedNames then
    .error (.reservedName role (config.nameOf role) config.target)
  else .ok ()

/-- Whether a name begins with the prefix of the parts. -/
def collidesWithParts (config : EmitterConfig) (name : String) : Bool :=
  config.partPrefix.toList.isPrefixOf name.toList

/-- The first reason why a configuration cannot be used, if there is one. -/
def check (config : EmitterConfig) : Except EmitError Unit := do
  if config.maxLines = 0 then .error .zeroBound
  config.checkIdentifier .partPrefix
  config.checkIdentifier .driverName
  config.checkIdentifier .accumulator
  config.checkReserved .driverName
  config.checkReserved .accumulator
  if config.collidesWithParts config.driverName then
    .error (.driverCollides config.driverName config.partPrefix)
  if config.accumulator = config.driverName ∨ config.collidesWithParts config.accumulator then
    .error (.accumulatorCollides config.accumulator)

/-- Whether a configuration can be used. -/
def Valid (config : EmitterConfig) : Prop := config.check = .ok ()

end EmitterConfig

end Flowpress
