import Flowpress.Binary64

/-!
# TOML values

A table keeps its entries in the order in which they were written. It also
remembers how it came to be, because that decides whether later lines may add to
it: a table with a header of its own, or between braces, is complete; one that
was only named on the way to a deeper header may still get a header; one that
was made by a dotted key may grow by further dotted keys.
-/

namespace Flowpress.Toml

/-- What may still be added to a table. -/
inductive Standing where
  /-- Nothing: the table has its header or its braces. -/
  | complete
  /-- Named on the way to a deeper header. -/
  | implied
  /-- Made by a dotted key. -/
  | dotted
deriving DecidableEq, Repr

/-- A TOML value. -/
inductive Value where
  | string (text : String)
  | integer (value : Int)
  | float (value : Binary64)
  | boolean (value : Bool)
  /-- A date, a time of day or both, as written. -/
  | dateTime (text : String)
  /-- An array; `grows` if it is made of tables with headers. -/
  | array (grows : Bool) (elements : List Value)
  /-- A table; `inline` if it stands between braces. -/
  | table (inline : Bool) (standing : Standing) (entries : List (String × Value))
deriving Inhabited

/-- The entries of a table, in the order in which they were written. -/
abbrev Entries := List (String × Value)

namespace Entries

/-- Changes the entry of a key, in its place or, if it is new, at the end. -/
def alter (key : String) (change : Option Value → Option Value) : Entries → Option Entries
  | [] => (change none).map fun value => [(key, value)]
  | (other, value) :: rest =>
    if other = key then (change (some value)).map fun value => (other, value) :: rest
    else (alter key change rest).map fun rest => (other, value) :: rest

/-- Changes the last element of an array. -/
def alterLast (change : Value → Option Value) : List Value → Option (List Value)
  | [] => none
  | [last] => (change last).map fun last => [last]
  | element :: rest => (alterLast change rest).map fun rest => element :: rest

/-- Changes the entries of a table. -/
def within (change : Entries → Option Entries) : Value → Option Value
  | .table inline standing entries =>
    (change entries).map fun entries => .table inline standing entries
  | _ => none

/-- Changes the table that the way to a header leads to. Tables that are missing are implied, and
of an array of tables the last one counts. -/
def descend (change : Entries → Option Entries) : List String → Entries → Option Entries
  | [], entries => change entries
  | key :: rest, entries =>
    entries.alter key fun
      | none => (descend change rest []).map fun inner => .table false .implied inner
      | some (.table false standing inner) =>
        (descend change rest inner).map fun inner => .table false standing inner
      | some (.array true elements) =>
        (alterLast (within (descend change rest)) elements).map fun elements => .array true elements
      | some _ => none

/-- Adds the value of a dotted key. Tables that are missing are made by the key, between braces if
`inline` says so; the table that gets the value must have been made by dotted keys alone. -/
def insertDotted (inline : Bool) (value : Value) : List String → Entries → Option Entries
  | [], _ => none
  | [key], entries =>
    entries.alter key fun
      | none => some value
      | some _ => none
  | key :: next :: rest, entries =>
    entries.alter key fun
      | none =>
        (insertDotted inline value (next :: rest) []).map fun inner => .table inline .dotted inner
      | some (.table between standing inner) =>
        if standing = .complete ∨ rest.isEmpty ∧ standing ≠ .dotted then none
        else (insertDotted inline value (next :: rest) inner).map fun inner =>
          .table between standing inner
      | some (.array true elements) =>
        if rest.isEmpty then none
        else
          let change := insertDotted inline value (next :: rest)
          (alterLast (within change) elements).map fun elements => .array true elements
      | some _ => none

end Entries

end Flowpress.Toml
