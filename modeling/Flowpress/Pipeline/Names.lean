import Flowpress.Json.Decode
import Flowpress.Pipeline.Action

/-!
# Names in data

Element types and kinds of action are written in data by their names.
-/

namespace Flowpress

/-- Reads the name of an element type. -/
def ElementType.ofValue (value : Json.Value) : Except Json.Fault ElementType :=
  value.variant (ElementType.all.map fun type => (type.name, type))

/-- Reads the name of a kind of action. -/
def ActionKind.ofValue (value : Json.Value) : Except Json.Fault ActionKind :=
  value.variant (ActionKind.all.map fun kind => (kind.name, kind))

end Flowpress
