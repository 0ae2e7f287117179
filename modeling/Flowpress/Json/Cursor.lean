import Flowpress.Json.Fault

/-!
# Reading places

A `Cursor` is what is left of a text together with the position reached. A fault
is reported in one of two places: where the cursor stands, or one byte further,
when the character that does not fit has been looked at.
-/

namespace Flowpress.Json

namespace Position

/-- Where every text begins. -/
def start : Position := ⟨1, 0⟩

/-- The position behind a character. -/
def after (position : Position) (char : Char) : Position :=
  if char = '\n' then ⟨position.line + 1, 0⟩
  else ⟨position.line, position.column + char.utf8Size⟩

/-- The position behind the first byte of a character. -/
def afterByte (position : Position) (char : Char) : Position :=
  if char = '\n' then ⟨position.line + 1, 0⟩ else ⟨position.line, position.column + 1⟩

/-- The position `count` bytes further, or none if the text has fewer bytes; then the
position of its end comes second. -/
def afterBytes (position : Position) : Nat → List Char → Except Position Position
  | 0, _ => .ok position
  | _, [] => .error position
  | count, char :: rest =>
    if char.utf8Size ≤ count then (position.after char).afterBytes (count - char.utf8Size) rest
    else .ok ⟨position.line, position.column + count⟩

end Position

/-- What is left of a text, and where that begins. -/
structure Cursor where
  rest : List Char
  position : Position

/-- A reader takes a value off the front of what is left. -/
abbrev Reader (α : Type) := Cursor → Except Refusal (α × Cursor)

namespace Cursor

def start (text : String) : Cursor := ⟨text.toList, .start⟩

/-- One character further. -/
def advance (cursor : Cursor) : Cursor :=
  match cursor.rest with
  | [] => cursor
  | char :: rest => ⟨rest, cursor.position.after char⟩

/-- The position one byte further, or the end of the text. -/
def beyond (cursor : Cursor) : Position :=
  match cursor.rest with
  | [] => cursor.position
  | char :: _ => cursor.position.afterByte char

/-- Refuses where the cursor stands. -/
def refuse {α : Type} (cursor : Cursor) (fault : Fault) : Except Refusal α :=
  .error ⟨fault, some cursor.position⟩

/-- Refuses the next character. -/
def refuseNext {α : Type} (cursor : Cursor) (fault : Fault) : Except Refusal α :=
  .error ⟨fault, some cursor.beyond⟩

/-- The space between the parts of a text. -/
def isBlank (char : Char) : Bool := char = ' ' || char = '\n' || char = '\t' || char = '\r'

/-- What is left behind the blanks in front of `rest`. -/
def skipBlankFrom : List Char → Position → Cursor
  | [], position => ⟨[], position⟩
  | char :: rest, position =>
    if isBlank char then skipBlankFrom rest (position.after char) else ⟨char :: rest, position⟩

def skipBlank (cursor : Cursor) : Cursor := skipBlankFrom cursor.rest cursor.position

/-- Takes the letters of a fixed word. -/
def expect (cursor : Cursor) : List Char → Except Refusal Cursor
  | [] => .ok cursor
  | letter :: letters =>
    match cursor.rest with
    | [] => cursor.refuse .endOfValue
    | char :: _ =>
      if char = letter then cursor.advance.expect letters else cursor.refuseNext .identifierExpected

/-- Takes the decimal digits in front. -/
def takeDigitsFrom : List Char → Position → List Char × Cursor
  | [], position => ([], ⟨[], position⟩)
  | char :: rest, position =>
    if char.isDigit then
      let taken := takeDigitsFrom rest (position.after char)
      (char :: taken.1, taken.2)
    else ([], ⟨char :: rest, position⟩)

def takeDigits (cursor : Cursor) : List Char × Cursor := takeDigitsFrom cursor.rest cursor.position

end Cursor

end Flowpress.Json
