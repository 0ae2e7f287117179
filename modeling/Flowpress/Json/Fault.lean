import Flowpress.Json.Printer
import Flowpress.Text.Quoted

/-!
# Why a JSON text or value is refused

A `Fault` is a cause. A fault of syntax or of a text that ends too early is a
fault of the text; a fault of data says that a well-formed value is not what its
place asks for. Faults met while reading a text carry the position the reader
had reached.
-/

namespace Flowpress.Json

/-- What stood where something else was expected. -/
inductive Found where
  | null
  | bool (value : Bool)
  | integer (value : Int)
  | binary (value : Binary64)
  | string (value : String)
  | sequence
  | map
deriving DecidableEq

/-- The kind of a value, and its content if it is not a container. -/
def Found.ofValue : Value → Found
  | .null => .null
  | .bool value => .bool value
  | .number (.integer value _) => .integer value
  | .number (.binary value _) => .binary value
  | .string value => .string value
  | .array _ => .sequence
  | .object _ => .map

def Found.message : Found → String
  | .null => "null"
  | .bool value => "boolean `" ++ toString value ++ "`"
  | .integer value => "integer `" ++ toString value ++ "`"
  | .binary value => "floating point `" ++ String.ofList (writeBinary value) ++ "`"
  | .string value => "string " ++ Text.quoted value
  | .sequence => "sequence"
  | .map => "map"

/-- Why a text or a value is refused. -/
inductive Fault where
  | endOfList
  | endOfObject
  | endOfString
  | endOfValue
  | colonExpected
  | listSeparatorExpected
  | objectSeparatorExpected
  | identifierExpected
  | valueExpected
  | nameExpected
  | badEscape
  | badNumber
  | numberOutOfRange
  | loneSurrogate
  | unfinishedSurrogatePair
  | controlCharacter
  | trailingComma
  | trailingCharacters
  | tooDeep
  | wrongType (found : Found) (expected : String)
  | wrongValue (found : Found) (expected : String)
  | wrongLength (length : Nat) (expected : String)
  | unknownVariant (name : String) (known : List String)
  | duplicateField (name : String)
deriving DecidableEq

/-- The three kinds of fault. -/
inductive Category where
  | syntactic
  | data
  | endOfText
deriving DecidableEq, Repr

namespace Fault

def category : Fault → Category
  | .endOfList | .endOfObject | .endOfString | .endOfValue => .endOfText
  | .wrongType .. | .wrongValue .. | .wrongLength .. | .unknownVariant .. | .duplicateField _ =>
    .data
  | _ => .syntactic

/-- A list of names in a sentence: one alone, two joined by "or", more after "one of". -/
def alternatives (names : List String) : String :=
  match names.map (fun name => "`" ++ name ++ "`") with
  | [] => "no names"
  | [only] => only
  | [first, second] => first ++ " or " ++ second
  | names => "one of " ++ String.intercalate ", " names

/-- The fault in words. -/
def message : Fault → String
  | .endOfList => "EOF while parsing a list"
  | .endOfObject => "EOF while parsing an object"
  | .endOfString => "EOF while parsing a string"
  | .endOfValue => "EOF while parsing a value"
  | .colonExpected => "expected `:`"
  | .listSeparatorExpected => "expected `,` or `]`"
  | .objectSeparatorExpected => "expected `,` or `\x7d`"
  | .identifierExpected => "expected ident"
  | .valueExpected => "expected value"
  | .nameExpected => "key must be a string"
  | .badEscape => "invalid escape"
  | .badNumber => "invalid number"
  | .numberOutOfRange => "number out of range"
  | .loneSurrogate => "lone leading surrogate in hex escape"
  | .unfinishedSurrogatePair => "unexpected end of hex escape"
  | .controlCharacter => "control character (\\u0000-\\u001F) found while parsing a string"
  | .trailingComma => "trailing comma"
  | .trailingCharacters => "trailing characters"
  | .tooDeep => "recursion limit exceeded"
  | .wrongType found expected => "invalid type: " ++ found.message ++ ", expected " ++ expected
  | .wrongValue found expected => "invalid value: " ++ found.message ++ ", expected " ++ expected
  | .wrongLength length expected =>
    "invalid length " ++ toString length ++ ", expected " ++ expected
  | .unknownVariant name known =>
    "unknown variant `" ++ name ++ "`, expected " ++ alternatives known
  | .duplicateField name => "duplicate field `" ++ name ++ "`"

end Fault

/-- A place in a text: lines count from one, columns count the bytes of the line
that lie in front of the place. -/
structure Position where
  line : Nat
  column : Nat
deriving DecidableEq, Repr

/-- A fault, with its place when a text was read. -/
structure Refusal where
  fault : Fault
  position : Option Position
deriving DecidableEq

/-- The fault in words and its place. -/
def Refusal.message (refusal : Refusal) : String :=
  match refusal.position with
  | none => refusal.fault.message
  | some position =>
    refusal.fault.message ++ " at line " ++ toString position.line ++ " column " ++
      toString position.column

end Flowpress.Json
