import Flowpress.Toml.Value

/-!
# Taking TOML values apart

A record is written as a table whose fields are known by name, or as an array of
their values in the order of declaration; entries and elements that no field asks
for are left alone. A date or time counts as a record without known fields. A
name out of a list is written alone, or as the key of an empty container.
-/

namespace Flowpress.Toml.Value

variable {α : Type}

/-- Whether a value can be taken as a record. -/
def isRecord : Value → Bool
  | .table .. | .array .. | .dateTime _ => true
  | _ => false

/-- The field of a record with a name and a place in the order of declaration. -/
def field? (value : Value) (name : String) (place : Nat) : Option Value :=
  match value with
  | .table _ _ entries => entries.lookup name
  | .array _ elements => elements[place]?
  | _ => none

/-- A text. -/
def asText : Value → Option String
  | .string text => some text
  | _ => none

/-- A natural number. -/
def asNatural : Value → Option Nat
  | .integer value => if value < 0 then none else some value.toNat
  | _ => none

/-- Whether a value is a container with nothing in it. -/
def isEmptyContainer : Value → Bool
  | .table _ _ [] | .array _ [] => true
  | _ => false

/-- A name out of a list. A table between braces has no other key than the name. -/
def variant (known : List (String × α)) : Value → Option α
  | .string name => known.lookup name
  | .table inline _ ((name, content) :: rest) =>
    if inline && !rest.isEmpty || !content.isEmptyContainer then none else known.lookup name
  | _ => none

end Flowpress.Toml.Value
