import Flowpress.Json.Numeral
import Flowpress.Json.StringReader

/-!
# Reading JSON

`Value.read` reads a whole text as one value. A text may nest at most 127
containers. Readers for other types are put together from the same parts:
`Cursor.elements` for lists, `Cursor.fields` for objects whose fields are known,
and `Cursor.skipValue` for the values of fields that are not known, which may
nest to any depth.

Every loop takes at least one character of the text each time round, so the
length of the text bounds it.
-/

namespace Flowpress.Json

/-- How many containers a text may nest. -/
def nestingLimit : Nat := 127

namespace Cursor

variable {α σ : Type}

/-- Enters a container at its bracket unless no further level is left. -/
def enter (cursor : Cursor) (levels : Nat) (body : Nat → Reader α) : Except Refusal (α × Cursor) :=
  match levels with
  | 0 => cursor.refuseNext .tooDeep
  | levels + 1 => body levels cursor.advance

/-- Refuses the value that begins here because its place asks for something else. A scalar is
read first, so that the refusal can show it. -/
def refuseValue (cursor : Cursor) (expected : String) : Except Refusal α :=
  match cursor.rest with
  | 'n' :: _ => do
    let after ← cursor.expect "null".toList
    after.refuse (.wrongType .null expected)
  | 't' :: _ => do
    let after ← cursor.expect "true".toList
    after.refuse (.wrongType (.bool true) expected)
  | 'f' :: _ => do
    let after ← cursor.expect "false".toList
    after.refuse (.wrongType (.bool false) expected)
  | '"' :: _ => do
    let (text, after) ← cursor.advance.string
    after.refuse (.wrongType (.string text) expected)
  | '[' :: _ => cursor.refuse (.wrongType .sequence expected)
  | '{' :: _ => cursor.refuse (.wrongType .map expected)
  | '-' :: _ => do
    let (number, after) ← cursor.advance.numeral true
    after.refuse (.wrongType (.ofValue (.number number)) expected)
  | char :: _ =>
    if char.isDigit then do
      let (number, after) ← cursor.numeral false
      after.refuse (.wrongType (.ofValue (.number number)) expected)
    else cursor.refuseNext .valueExpected
  | [] => cursor.refuseNext .valueExpected

/-- The place where a value begins; there has to be one. -/
def valueStart (cursor : Cursor) : Except Refusal Cursor :=
  let cursor := cursor.skipBlank
  match cursor.rest with
  | [] => cursor.refuse .endOfValue
  | _ => .ok cursor

/-! ## Lists -/

/-- Goes to the next element of a list: to its first character, or to the closing bracket,
in which case the answer is false. -/
def nextElement (cursor : Cursor) (first : Bool) : Except Refusal (Bool × Cursor) :=
  let cursor := cursor.skipBlank
  match cursor.rest with
  | [] => cursor.refuse .endOfList
  | char :: _ =>
    if char = ']' then .ok (false, cursor)
    else if first then .ok (true, cursor)
    else if char = ',' then
      let cursor := cursor.advance.skipBlank
      match cursor.rest with
      | [] => cursor.refuse .endOfValue
      | char :: _ => if char = ']' then cursor.refuseNext .trailingComma else .ok (true, cursor)
    else cursor.refuseNext .listSeparatorExpected

/-- Closes a list of which no further element is wanted. -/
def closeList (cursor : Cursor) : Except Refusal Cursor :=
  let cursor := cursor.skipBlank
  match cursor.rest with
  | [] => cursor.refuse .endOfList
  | char :: _ =>
    if char = ']' then .ok cursor.advance
    else if char = ',' then
      let cursor := cursor.advance.skipBlank
      match cursor.rest with
      | ']' :: _ => cursor.refuseNext .trailingComma
      | _ => cursor.refuseNext .trailingCharacters
    else cursor.refuseNext .trailingCharacters

/-- Reads elements until the list closes. `taken` holds those read so far, the last one first. -/
def elementsFrom (element : Reader α) :
    Nat → Bool → List α → Cursor → Except Refusal (List α × Cursor)
  | 0, _, _, cursor => cursor.refuse .endOfList
  | bound + 1, first, taken, cursor => do
    let (more, cursor) ← cursor.nextElement first
    if more then
      let (value, cursor) ← element cursor
      elementsFrom element bound false (value :: taken) cursor
    else .ok (taken.reverse, cursor.advance)

/-- Reads a list behind its opening bracket. -/
def elements (bound : Nat) (element : Reader α) : Reader (List α) :=
  elementsFrom element (bound + 1) true []

/-! ## Objects -/

/-- Takes the colon between a name and its value. -/
def colon (cursor : Cursor) : Except Refusal Cursor :=
  let cursor := cursor.skipBlank
  match cursor.rest with
  | [] => cursor.refuse .endOfObject
  | char :: _ => if char = ':' then .ok cursor.advance else cursor.refuseNext .colonExpected

/-- Goes to the next name of an object: to its opening quote, or to the closing brace, in
which case the answer is false. -/
def nextName (cursor : Cursor) (first : Bool) : Except Refusal (Bool × Cursor) :=
  let cursor := cursor.skipBlank
  match cursor.rest with
  | [] => cursor.refuse .endOfObject
  | char :: _ =>
    if char = '}' then .ok (false, cursor)
    else if first then
      if char = '"' then .ok (true, cursor) else cursor.refuseNext .nameExpected
    else if char = ',' then
      let cursor := cursor.advance.skipBlank
      match cursor.rest with
      | [] => cursor.refuse .endOfValue
      | char :: _ =>
        if char = '"' then .ok (true, cursor)
        else if char = '}' then cursor.refuseNext .trailingComma
        else cursor.refuseNext .nameExpected
    else cursor.refuseNext .objectSeparatorExpected

/-- Refuses the name that was just read. The object may close right behind it; the fault is
placed behind the brace then. -/
def refuseName (cursor : Cursor) (fault : Fault) : Except Refusal α :=
  let cursor := cursor.skipBlank
  match cursor.rest with
  | '}' :: _ => cursor.advance.refuse fault
  | _ => cursor.refuse fault

/-- Reads fields until the object closes. `field` says, for what was read so far and a name,
how the value of that name is read, or why the name is refused. -/
def fieldsFrom (field : σ → String → Except Fault (Reader σ)) :
    Nat → Bool → σ → Cursor → Except Refusal (σ × Cursor)
  | 0, _, _, cursor => cursor.refuse .endOfObject
  | bound + 1, first, state, cursor => do
    let (more, cursor) ← cursor.nextName first
    if more then
      let (name, cursor) ← cursor.advance.string
      match field state name with
      | .error fault => cursor.refuseName fault
      | .ok value =>
        let cursor ← cursor.colon
        let (state, cursor) ← value cursor
        fieldsFrom field bound false state cursor
    else .ok (state, cursor.advance)

/-- Reads an object behind its opening brace. -/
def fields (bound : Nat) (field : σ → String → Except Fault (Reader σ)) (initial : σ) : Reader σ :=
  fieldsFrom field (bound + 1) true initial

/-- Reads an object with any names behind its opening brace. Of members with one name the
last one stays. -/
def members (bound : Nat) (value : Reader α) : Reader (Members α) :=
  fields bound (fun (members : Members α) name => .ok fun cursor => do
    let (value, cursor) ← value cursor
    .ok (members.insert name value, cursor)) []

/-! ## Values of unknown fields -/

/-- The containers that are open around a value that is passed over. -/
inductive Bracket where
  | list
  | object
deriving DecidableEq, Repr

namespace Bracket

def closing : Bracket → Char
  | .list => ']'
  | .object => '}'

def endOfText : Bracket → Fault
  | .list => .endOfList
  | .object => .endOfObject

def separatorExpected : Bracket → Fault
  | .list => .listSeparatorExpected
  | .object => .objectSeparatorExpected

end Bracket

/-- Passes over decimal digits. -/
def skipDigits (cursor : Cursor) : Cursor := cursor.takeDigits.2

/-- Passes over the power of ten of a numeral behind its mark. -/
def skipExponent (cursor : Cursor) : Except Refusal Cursor :=
  let cursor := match cursor.rest with
    | '+' :: _ | '-' :: _ => cursor.advance
    | _ => cursor
  match cursor.rest with
  | [] => cursor.refuse .badNumber
  | char :: _ => if char.isDigit then .ok cursor.skipDigits else cursor.refuseNext .badNumber

/-- Passes over a numeral behind its sign. -/
def skipNumeral (cursor : Cursor) : Except Refusal Cursor := do
  let cursor ← match cursor.rest with
    | [] => cursor.refuse .badNumber
    | '0' :: char :: _ =>
      if char.isDigit then cursor.advance.refuseNext .badNumber else .ok cursor.advance
    | char :: _ => if char.isDigit then .ok cursor.skipDigits else cursor.refuseNext .badNumber
  let cursor ← match cursor.rest with
    | '.' :: char :: _ =>
      if char.isDigit then .ok cursor.advance.skipDigits else cursor.advance.refuseNext .badNumber
    | ['.'] => cursor.advance.refuse .badNumber
    | _ => .ok cursor
  if cursor.atExponent then cursor.advance.skipExponent else .ok cursor

/-- Passes over a name and its colon if an object is open. -/
def skipName (cursor : Cursor) : Bracket → Except Refusal Cursor
  | .list => .ok cursor
  | .object =>
    let cursor := cursor.skipBlank
    match cursor.rest with
    | [] => cursor.refuse .endOfObject
    | '"' :: _ => do (← cursor.advance.skipString).colon
    | _ => cursor.refuseNext .nameExpected

/-- Where the passing over of a value stands. -/
inductive SkipState where
  | value
  | opened
  | complete
deriving DecidableEq, Repr

/-- Passes over the rest of a value inside the `enclosing` containers, innermost first. -/
def skipFrom : Nat → SkipState → List Bracket → Cursor → Except Refusal Cursor
  | 0, _, _, cursor => cursor.refuse .endOfValue
  | bound + 1, .value, enclosing, cursor =>
    let cursor := cursor.skipBlank
    match cursor.rest with
    | [] => cursor.refuse .endOfValue
    | 'n' :: _ => do skipFrom bound .complete enclosing (← cursor.expect "null".toList)
    | 't' :: _ => do skipFrom bound .complete enclosing (← cursor.expect "true".toList)
    | 'f' :: _ => do skipFrom bound .complete enclosing (← cursor.expect "false".toList)
    | '"' :: _ => do skipFrom bound .complete enclosing (← cursor.advance.skipString)
    | '[' :: _ => skipFrom bound .opened (.list :: enclosing) cursor.advance
    | '{' :: _ => skipFrom bound .opened (.object :: enclosing) cursor.advance
    | '-' :: _ => do skipFrom bound .complete enclosing (← cursor.advance.skipNumeral)
    | char :: _ =>
      if char.isDigit then do skipFrom bound .complete enclosing (← cursor.skipNumeral)
      else cursor.refuseNext .valueExpected
  | _ + 1, _, [], cursor => .ok cursor
  | bound + 1, .opened, bracket :: outer, cursor =>
    let cursor := cursor.skipBlank
    match cursor.rest with
    | [] => cursor.refuse bracket.endOfText
    | char :: _ =>
      if char = bracket.closing then skipFrom bound .complete outer cursor.advance
      else do skipFrom bound .value (bracket :: outer) (← cursor.skipName bracket)
  | bound + 1, .complete, bracket :: outer, cursor =>
    let cursor := cursor.skipBlank
    match cursor.rest with
    | [] => cursor.refuse bracket.endOfText
    | char :: _ =>
      if char = bracket.closing then skipFrom bound .complete outer cursor.advance
      else if char = ',' then do
        skipFrom bound .value (bracket :: outer) (← cursor.advance.skipName bracket)
      else cursor.refuseNext bracket.separatorExpected

/-- Passes over a value. -/
def skipValue (bound : Nat) (cursor : Cursor) : Except Refusal Cursor :=
  skipFrom (2 * bound + 2) .value [] cursor

/-! ## Whole texts -/

/-- Only blanks may stand behind the value of a text. -/
def finish (cursor : Cursor) : Except Refusal Unit :=
  let cursor := cursor.skipBlank
  match cursor.rest with
  | [] => .ok ()
  | _ => cursor.refuseNext .trailingCharacters

/-- Reads a whole text. The reader is given a bound on the length of what is left. -/
def readWhole (reader : Nat → Reader α) (text : String) : Except Refusal α := do
  let cursor := Cursor.start text
  let (value, cursor) ← reader cursor.rest.length cursor
  cursor.finish
  .ok value

end Cursor

namespace Value

/-- Reads a value whose parts are read by `part`, if `levels` allows it to have any. -/
def readWith (bound levels : Nat) (part : Reader Value) : Reader Value := fun cursor => do
  let cursor ← cursor.valueStart
  match cursor.rest with
  | 'n' :: _ => .ok (.null, ← cursor.expect "null".toList)
  | 't' :: _ => .ok (.bool true, ← cursor.expect "true".toList)
  | 'f' :: _ => .ok (.bool false, ← cursor.expect "false".toList)
  | '"' :: _ =>
    let (text, cursor) ← cursor.advance.string
    .ok (.string text, cursor)
  | '[' :: _ =>
    cursor.enter levels fun _ cursor => do
      let (elements, cursor) ← cursor.elements bound part
      .ok (.array elements, cursor)
  | '{' :: _ =>
    cursor.enter levels fun _ cursor => do
      let (members, cursor) ← cursor.members bound part
      .ok (.object members, cursor)
  | '-' :: _ =>
    let (value, cursor) ← cursor.advance.numeral true
    .ok (.number value, cursor)
  | char :: _ =>
    if char.isDigit then
      let (value, cursor) ← cursor.numeral false
      .ok (.number value, cursor)
    else cursor.refuseNext .valueExpected
  | [] => cursor.refuse .endOfValue

/-- Reads a value that may nest `levels` containers. -/
def reader (bound : Nat) : Nat → Reader Value
  | 0 => readWith bound 0 fun cursor => cursor.refuseNext .tooDeep
  | levels + 1 => readWith bound (levels + 1) (reader bound levels)

/-- Reads a whole text as one value. -/
def read (text : String) : Except Refusal Value :=
  Cursor.readWhole (fun bound => reader bound nestingLimit) text

end Value

end Flowpress.Json
