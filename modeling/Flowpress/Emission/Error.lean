import Flowpress.Emission.Target

/-!
# Why an emission fails
-/

namespace Flowpress

/-- The names of a generated file that a configuration chooses. -/
inductive NameRole where
  | partPrefix
  | driverName
  | accumulator
deriving DecidableEq, Repr

/-- The role as configurations call it. -/
def NameRole.label : NameRole → String
  | .partPrefix => "part_prefix"
  | .driverName => "driver_name"
  | .accumulator => "accumulator"

/-- What is wrong with a backslash in a literal. -/
inductive LiteralFault where
  | unknownEscape (char : Char)
  | danglingBackslash
deriving DecidableEq, Repr

def LiteralFault.message : LiteralFault → String
  | .unknownEscape char => "unknown escape '\\" ++ String.ofList [char] ++ "'"
  | .danglingBackslash => "dangling backslash"

/-- Why a text cannot be emitted or a unit cannot be run. -/
inductive EmitError where
  | zeroBound
  | notIdentifier (role : NameRole) (name : String)
  | reservedName (role : NameRole) (name : String) (target : Target)
  | driverCollides (driverName partPrefix : String)
  | accumulatorCollides (accumulator : String)
  /-- A character that no literal can hold; lines and columns count from one. -/
  | unencodable (line column : Nat) (char : Char)
  /-- A backslash that begins no escape, `position` bytes into its literal. -/
  | malformedLiteral (position : Nat) (fault : LiteralFault)
deriving DecidableEq, Repr

/-- The error in words. -/
def EmitError.message : EmitError → String
  | .zeroBound => "Invalid argument: max_lines_per_segment must be positive"
  | .notIdentifier role name =>
    "Invalid argument: " ++ role.label ++ " '" ++ name ++ "' is not a valid identifier"
  | .reservedName role name target =>
    "Invalid argument: " ++ role.label ++ " '" ++ name ++ "' is reserved in " ++ target.name ++
      " output"
  | .driverCollides driverName partPrefix =>
    "Invalid argument: driver_name '" ++ driverName ++ "' collides with part_prefix '" ++
      partPrefix ++ "'"
  | .accumulatorCollides accumulator =>
    "Invalid argument: accumulator '" ++ accumulator ++ "' collides with a generated function name"
  | .unencodable line column char =>
    "Cannot encode " ++ Text.quotedChar char ++ " as a literal (line " ++ toString line ++
      ", column " ++ toString column ++ ")"
  | .malformedLiteral position fault =>
    "Malformed literal at byte " ++ toString position ++ ": " ++ fault.message

end Flowpress
