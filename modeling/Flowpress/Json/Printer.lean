import Flowpress.Binary64.Shortest
import Flowpress.Json.Value

/-!
# Writing JSON

There are two layouts. The compact one has no space at all; the indented one
puts every element and member on a line of its own, two spaces deeper than its
container, and writes an empty container without a line break. In both, a string
escapes the quote, the backslash and the characters below U+0020, and nothing
else; a double is written with the fewest digits that read back.
-/

namespace Flowpress.Json

/-- Doubles from `1e-5` up to `1e15` are positional and always show a point; others
carry a power of ten with its sign. -/
def doubleNotation : DecimalNotation where
  leastPositional := -5
  greatestPositional := 15
  wholeSuffix := ".0"
  exponentMark := "e+"
  negativeExponentMark := "e-"

/-- The text of a double, its sign in front. -/
def writeBinary (value : Binary64) : List Char :=
  if value.isNegative then '-' :: doubleNotation.write value.shortest
  else doubleNotation.write value.shortest

def Number.write : Number → List Char
  | .integer value _ => (toString value).toList
  | .binary value _ => writeBinary value

/-- A hexadecimal digit in lower case. -/
def hexDigit (value : Nat) : Char := Nat.digitChar value

/-- One character of a string: the quote, the backslash and the characters below
U+0020 as escapes, the rest as it is. -/
def escapeChar (char : Char) : List Char :=
  if char = '"' then ['\\', '"']
  else if char = '\\' then ['\\', '\\']
  else if char = '\x08' then ['\\', 'b']
  else if char = '\x0c' then ['\\', 'f']
  else if char = '\n' then ['\\', 'n']
  else if char = '\r' then ['\\', 'r']
  else if char = '\t' then ['\\', 't']
  else if char.toNat < 0x20 then
    ['\\', 'u', '0', '0', hexDigit (char.toNat / 16), hexDigit (char.toNat % 16)]
  else [char]

/-- A string between quotes. -/
def writeString (text : String) : List Char :=
  '"' :: (text.toList.flatMap escapeChar ++ ['"'])

/-- How the parts of a container are laid out. -/
inductive Layout where
  | compact
  | indented
deriving DecidableEq, Repr

namespace Layout

/-- What stands in front of each part of a container, and of its closing bracket. -/
def lineBreak (layout : Layout) (depth : Nat) : List Char :=
  match layout with
  | .compact => []
  | .indented => '\n' :: List.replicate (2 * depth) ' '

/-- What stands between a name and its value. -/
def colon : Layout → List Char
  | .compact => [':']
  | .indented => [':', ' ']

/-- The parts of a container that is `depth` containers deep, separated by commas. -/
def separate (layout : Layout) (depth : Nat) : List (List Char) → List Char
  | [] => []
  | [part] => layout.lineBreak (depth + 1) ++ part
  | part :: rest => layout.lineBreak (depth + 1) ++ part ++ ',' :: layout.separate depth rest

/-- A container: nothing between the brackets if it is empty. -/
def enclose (layout : Layout) (depth : Nat) (opening closing : Char) (parts : List (List Char)) :
    List Char :=
  match parts with
  | [] => [opening, closing]
  | parts => opening :: (layout.separate depth parts ++ layout.lineBreak depth ++ [closing])

/-- A name with its value. -/
def member (layout : Layout) (name : String) (value : List Char) : List Char :=
  writeString name ++ layout.colon ++ value

end Layout

namespace Value

mutual

/-- The text of a value that is `depth` containers deep. -/
def writeAt (layout : Layout) (depth : Nat) : Value → List Char
  | .null => "null".toList
  | .bool true => "true".toList
  | .bool false => "false".toList
  | .number value => value.write
  | .string value => writeString value
  | .array elements => layout.enclose depth '[' ']' (writeElements layout (depth + 1) elements)
  | .object members => layout.enclose depth '{' '}' (writeMembers layout (depth + 1) members)

/-- The text of each element. -/
def writeElements (layout : Layout) (depth : Nat) : List Value → List (List Char)
  | [] => []
  | element :: rest => element.writeAt layout depth :: writeElements layout depth rest

/-- The text of each member. -/
def writeMembers (layout : Layout) (depth : Nat) : List (String × Value) → List (List Char)
  | [] => []
  | (name, value) :: rest =>
    layout.member name (value.writeAt layout depth) :: writeMembers layout depth rest

end

/-- The text of a value. -/
def write (layout : Layout) (value : Value) : String := String.ofList (value.writeAt layout 0)

end Value

end Flowpress.Json
