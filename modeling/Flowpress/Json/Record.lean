import Flowpress.Json.Decode
import Flowpress.Json.Reader

/-!
# Records

A record is written as an object whose fields are known by name, in any order, or
as an array of their values in the order of declaration, of which the last ones
may be left out. Unknown fields of an object are passed over; a known field may
not come twice.

A `RecordField` says how one field is read into the record so far, from a text or from
a value.
-/

namespace Flowpress.Json

/-- One field of a record whose fields are collected in `σ`. -/
structure RecordField (σ : Type) where
  name : String
  /-- Whether the field has been read. -/
  isSet : σ → Bool
  /-- Reads the value of the field where the text may nest so many more containers. -/
  read : Nat → σ → Reader σ

namespace Cursor

variable {α σ : Type}

/-! ## Scalars -/

/-- Reads a text. -/
def text : Reader String := fun cursor => do
  let cursor ← cursor.valueStart
  match cursor.rest with
  | '"' :: _ => cursor.advance.string
  | _ => cursor.refuseValue "a string"

/-- Reads a natural number that fits a word. -/
def natural : Reader Nat := fun cursor => do
  let cursor ← cursor.valueStart
  let negative := match cursor.rest with
    | '-' :: _ => true
    | _ => false
  let digits := match cursor.rest with
    | char :: _ => char.isDigit
    | [] => false
  if negative || digits then
    let (number, cursor) ← (if negative then cursor.advance else cursor).numeral negative
    match (Value.number number).asNatural with
    | .ok value => .ok (value, cursor)
    | .error fault => cursor.refuse fault
  else cursor.refuseValue "usize"

/-- Reads null, or a value. -/
def optional (value : Reader α) : Reader (Option α) := fun cursor => do
  let cursor := cursor.skipBlank
  match cursor.rest with
  | 'n' :: _ => .ok (none, ← cursor.expect "null".toList)
  | _ =>
    let (value, cursor) ← value cursor
    .ok (some value, cursor)

/-- Reads null. -/
def unit (cursor : Cursor) : Except Refusal Cursor := do
  let cursor ← cursor.valueStart
  match cursor.rest with
  | 'n' :: _ => cursor.expect "null".toList
  | _ => cursor.refuseValue "unit"

/-- Looks up a name that was just read. -/
def variantNamed (known : List (String × α)) (name : String) : Reader α := fun cursor =>
  match known.lookup name with
  | some meaning => .ok (meaning, cursor)
  | none => cursor.refuse (.unknownVariant name (known.map Prod.fst))

/-- Reads a name out of a list: alone, or as the only name of an object whose value is null. -/
def variant (known : List (String × α)) (levels : Nat) : Reader α := fun cursor => do
  let cursor ← cursor.valueStart
  match cursor.rest with
  | '"' :: _ =>
    let (name, cursor) ← cursor.advance.string
    variantNamed known name cursor
  | '{' :: _ =>
    cursor.enter levels fun _ cursor => do
      let cursor ← cursor.valueStart
      match cursor.rest with
      | '"' :: _ =>
        let (name, cursor) ← cursor.advance.string
        let (meaning, cursor) ← variantNamed known name cursor
        let cursor ← (← cursor.colon).unit
        let cursor := cursor.skipBlank
        match cursor.rest with
        | '}' :: _ => .ok (meaning, cursor.advance)
        | [] => cursor.refuse .endOfObject
        | _ => cursor.refuse .valueExpected
      | _ => cursor.refuseValue "variant identifier"
  | _ => cursor.refuseNext .valueExpected

/-! ## Containers -/

/-- Reads a list of values. -/
def list (bound levels : Nat) (element : Nat → Reader α) : Reader (List α) := fun cursor => do
  let cursor ← cursor.valueStart
  match cursor.rest with
  | '[' :: _ => cursor.enter levels fun levels => elements bound (element levels)
  | _ => cursor.refuseValue "a sequence"

/-- Reads an object with any names. -/
def map (bound levels : Nat) (value : Nat → Reader α) : Reader (Members α) := fun cursor => do
  let cursor ← cursor.valueStart
  match cursor.rest with
  | '{' :: _ => cursor.enter levels fun levels => members bound (value levels)
  | _ => cursor.refuseValue "a map"

/-- Reads the values of a record from an array, as far as it goes. -/
def fieldsInOrder (levels : Nat) : Bool → List (RecordField σ) → σ → Reader σ
  | _, [], state, cursor => do .ok (state, ← cursor.closeList)
  | first, field :: fields, state, cursor => do
    let (more, cursor) ← cursor.nextElement first
    if more then
      let (state, cursor) ← field.read levels state cursor
      fieldsInOrder levels false fields state cursor
    else .ok (state, cursor.advance)

/-- How the value of a named field is read into a record. -/
def fieldNamed (bound levels : Nat) (known : List (RecordField σ)) (state : σ) (name : String) :
    Except Fault (Reader σ) :=
  match known.find? fun field => field.name == name with
  | some field =>
    if field.isSet state then .error (.duplicateField name) else .ok (field.read levels state)
  | none => .ok fun cursor => do .ok (state, ← cursor.skipValue bound)

/-- Reads a record; `expected` names it in refusals. -/
def record (bound levels : Nat) (expected : String) (known : List (RecordField σ)) (initial : σ) :
    Reader σ := fun cursor => do
  let cursor ← cursor.valueStart
  match cursor.rest with
  | '[' :: _ => cursor.enter levels fun levels => fieldsInOrder levels true known initial
  | '{' :: _ =>
    cursor.enter levels fun levels => fields bound (fieldNamed bound levels known) initial
  | _ => cursor.refuseValue expected

end Cursor

end Flowpress.Json
