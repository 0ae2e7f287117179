import Flowpress.Toml.Grammar

/-!
# TOML documents

`Toml.read` gives the table that a text describes: its statements are taken in
order, each entry going into the table of the last header. A table has at most
one header, and a key is set at most once.
-/

namespace Flowpress.Toml

/-- What the statements so far make: all entries, and the path of the last header. -/
structure Draft where
  entries : Entries
  path : List String

/-- Nothing stated yet. -/
def Draft.initial : Draft := ⟨[], []⟩

/-- Opens the table under a key. Only a table that was implied may be there already. -/
def openTable (key : String) (entries : Entries) : Option Entries :=
  entries.alter key fun
    | none => some (.table false .complete [])
    | some (.table false .implied inner) => some (.table false .complete inner)
    | some _ => none

/-- Opens one more table of the array under a key. -/
def openElement (key : String) (entries : Entries) : Option Entries :=
  entries.alter key fun
    | none => some (.array true [.table false .complete []])
    | some (.array true elements) => some (.array true (elements ++ [.table false .complete []]))
    | some _ => none

/-- Opens what a header names, with `opening` for the last part of its path. -/
def Draft.enter (draft : Draft) (path : List String) (opening : String → Entries → Option Entries) :
    Option Draft := do
  let key ← path.getLast?
  let entries ← draft.entries.descend (opening key) path.dropLast
  some ⟨entries, path⟩

/-- Takes one statement. -/
def Draft.take (draft : Draft) : Statement → Option Draft
  | .header path => draft.enter path openTable
  | .arrayHeader path => draft.enter path openElement
  | .entry path value => do
    let entries ← draft.entries.descend (Entries.insertDotted false value path) draft.path
    some { draft with entries }

/-- The mark that a text may begin with. -/
def byteOrderMark : Char := '\ufeff'

/-- The text without a mark in front. -/
def dropMark : List Char → List Char
  | char :: rest => if char = byteOrderMark then rest else char :: rest
  | [] => []

/-- The table that a text describes, if it is a TOML text. -/
def read (text : String) : Option Value := do
  let text := dropMark text.toList
  let statements ← statements (text.length + 1) text
  let draft ← statements.foldlM Draft.take Draft.initial
  some (.table false .complete draft.entries)

end Flowpress.Toml
