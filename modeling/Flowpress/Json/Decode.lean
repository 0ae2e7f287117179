import Flowpress.Json.Fault

/-!
# Taking values apart

A decoder turns a JSON value into a value of a domain type or says what does not
fit. There are no positions here: the text the value came from is gone.
-/

namespace Flowpress.Json.Value

variable {α : Type}

/-- The fault of a value where something else is expected. -/
def mismatch (value : Value) (expected : String) : Fault := .wrongType (.ofValue value) expected

/-- A name out of a list: alone, or as the only name of an object whose value is null. -/
def variant (known : List (String × α)) (value : Value) : Except Fault α :=
  let find (name : String) : Except Fault α :=
    match known.lookup name with
    | some meaning => .ok meaning
    | none => .error (.unknownVariant name (known.map Prod.fst))
  match value with
  | .string name => find name
  | .object [(name, content)] => do
    let meaning ← find name
    match content with
    | .null => .ok meaning
    | other => .error (other.mismatch "unit")
  | .object _ => .error (.wrongValue .map "map with a single key")
  | other => .error (other.mismatch "string or map")

/-- A text. -/
def asText : Value → Except Fault String
  | .string text => .ok text
  | other => .error (other.mismatch "a string")

/-- A natural number that fits a word. -/
def asNatural : Value → Except Fault Nat
  | .number (.integer count _) =>
    if count < 0 then .error (.wrongValue (.integer count) "usize") else .ok count.toNat
  | other => .error (other.mismatch "usize")

/-- Null, or what the decoder makes of any other value. -/
def asOptional (decode : Value → Except Fault α) : Value → Except Fault (Option α)
  | .null => .ok none
  | other => (decode other).map some

end Flowpress.Json.Value
