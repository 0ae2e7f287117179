import Flowpress.Document
import Flowpress.Json.Record

/-!
# Documents as JSON

A document is written as an object with the fields `properties` and `children`,
in this order; empty ones are left out. It is read from an object with these
fields, or from an array of their values. The written text depends on the
document alone, so equal texts mean equal documents.
-/

namespace Flowpress.Document

open Json (Cursor Fault RecordField Layout Reader Refusal Value)

/-! ## Writing -/

mutual

/-- The text of a document that is `depth` containers deep. -/
def writeAt (layout : Layout) (depth : Nat) : Document → List Char
  | .node properties collections =>
    let propertyField := if properties.isEmpty then [] else
      [layout.member "properties" ((Value.object properties).writeAt layout (depth + 1))]
    let childField := if collections.isEmpty then [] else
      [layout.member "children"
        (layout.enclose (depth + 1) '{' '}' (writeCollections layout (depth + 2) collections))]
    layout.enclose depth '{' '}' (propertyField ++ childField)

/-- The text of each collection with its name. -/
def writeCollections (layout : Layout) (depth : Nat) :
    List (String × List Document) → List (List Char)
  | [] => []
  | (name, children) :: rest =>
    layout.member name (layout.enclose depth '[' ']' (writeAll layout (depth + 1) children)) ::
      writeCollections layout depth rest

/-- The text of each document. -/
def writeAll (layout : Layout) (depth : Nat) : List Document → List (List Char)
  | [] => []
  | document :: rest => document.writeAt layout depth :: writeAll layout depth rest

end

/-- The text of a document. -/
def write (layout : Layout) (document : Document) : String :=
  String.ofList (document.writeAt layout 0)

/-! ## Reading -/

/-- What a document is called in refusals. -/
def recordName : String := "struct Document"

/-- A document while it is read. -/
structure Draft where
  properties? : Option (Members Value)
  collections? : Option (Members (List Document))

/-- Nothing read yet. -/
def Draft.initial : Draft := ⟨none, none⟩

/-- The document, with nothing where nothing was read. -/
def Draft.document (draft : Draft) : Document :=
  .node (draft.properties?.getD []) (draft.collections?.getD [])

/-- The fields of a document whose children are read by `child`. -/
def fieldsWith (bound : Nat) (child : Reader Document) : List (RecordField Draft) := [
  { name := "properties"
    isSet draft := draft.properties?.isSome
    read levels draft cursor := do
      let (properties, cursor) ← Cursor.map bound levels (Value.reader bound) cursor
      .ok ({ draft with properties? := some properties }, cursor) },
  { name := "children"
    isSet draft := draft.collections?.isSome
    read levels draft cursor := do
      let (collections, cursor) ← Cursor.map bound levels
        (fun levels => Cursor.list bound levels fun _ => child) cursor
      .ok ({ draft with collections? := some collections }, cursor) }]

/-- Reads a document whose children are read by `child`, which is three containers deeper. -/
def readWith (bound levels : Nat) (child : Reader Document) : Reader Document := fun cursor => do
  let (draft, cursor) ←
    Cursor.record bound levels recordName (fieldsWith bound child) Draft.initial cursor
  .ok (draft.document, cursor)

/-- Reads a document that may nest `levels` containers. -/
def reader (bound : Nat) : Nat → Reader Document
  | levels + 3 => readWith bound (levels + 3) (reader bound levels)
  | levels => readWith bound levels fun cursor => cursor.refuseNext .tooDeep

/-- Reads a whole text as one document. -/
def read (text : String) : Except Refusal Document :=
  Cursor.readWhole (fun bound => reader bound Json.nestingLimit) text

/-! ## Values -/

/-- Takes properties from a value. -/
def propertiesOfValue : Value → Except Fault (Members Value)
  | .object members => .ok members
  | other => .error (other.mismatch "a map")

mutual

/-- Takes a document from a JSON value. -/
def ofValue : Value → Except Fault Document
  | .object members => (ofMembers .initial members).map Draft.document
  | .array elements => ofElements elements
  | other => .error (other.mismatch recordName)

/-- Takes the fields of a document from the members of an object; others are left alone. -/
def ofMembers (draft : Draft) : List (String × Value) → Except Fault Draft
  | [] => .ok draft
  | (name, value) :: rest => do
    if name = "properties" then
      let properties ← propertiesOfValue value
      ofMembers { draft with properties? := some properties } rest
    else if name = "children" then
      let collections ← collectionsOfValue value
      ofMembers { draft with collections? := some collections } rest
    else ofMembers draft rest

/-- Takes a document from the elements of an array: properties, then collections. -/
def ofElements : List Value → Except Fault Document
  | [] => .ok empty
  | properties :: rest => do
    let properties ← propertiesOfValue properties
    ofCollectionElement properties rest

/-- Takes a document from its properties and the elements of an array behind them. -/
def ofCollectionElement (properties : Members Value) : List Value → Except Fault Document
  | [] => .ok (.node properties [])
  | collections :: rest => do
    let collections ← collectionsOfValue collections
    if rest.isEmpty then .ok (.node properties collections)
    else .error (.wrongLength (rest.length + 2) "fewer elements in array")

/-- Takes collections from a value. -/
def collectionsOfValue : Value → Except Fault (Members (List Document))
  | .object members => collectionsOfMembers members
  | other => .error (other.mismatch "a map")

/-- Takes collections from the members of an object. -/
def collectionsOfMembers : List (String × Value) → Except Fault (Members (List Document))
  | [] => .ok []
  | (name, value) :: rest => do
    let children ← childrenOfValue value
    let others ← collectionsOfMembers rest
    .ok ((name, children) :: others)

/-- Takes a list of documents from a value. -/
def childrenOfValue : Value → Except Fault (List Document)
  | .array elements => childrenOfElements elements
  | other => .error (other.mismatch "a sequence")

/-- Takes a document from each element of an array. -/
def childrenOfElements : List Value → Except Fault (List Document)
  | [] => .ok []
  | element :: rest => do
    let document ← ofValue element
    let others ← childrenOfElements rest
    .ok (document :: others)

end

end Flowpress.Document
