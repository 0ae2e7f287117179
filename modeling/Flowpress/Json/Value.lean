import Flowpress.Binary64

/-!
# JSON values

A number is an integer that fits sixty-four bits, signed or unsigned, or else a
finite double: `1` and `1.0` are different values. The members of an object are
kept in the order of their names, each name once; `Members.insert` keeps that
order and `Value.Canonical` states it of a whole value.

`Value.same` is the equality of the data model. It differs from equality of
values in one place: the two zeros of the doubles are the same number.
-/

namespace Flowpress

/-- Named entries, in ascending order of their names. -/
abbrev Members (α : Type) := List (String × α)

namespace Members

variable {α : Type}

/-- The entry of a name. -/
def find? (members : Members α) (name : String) : Option α :=
  List.lookup name members

/-- Sets the entry of a name, in its place in the order, from what stood there before. -/
def alter (name : String) (change : Option α → α) : Members α → Members α
  | [] => [(name, change none)]
  | (other, value) :: rest =>
    if name < other then (name, change none) :: (other, value) :: rest
    else if name = other then (name, change (some value)) :: rest
    else (other, value) :: alter name change rest

/-- Sets the entry of a name, replacing what stood there. -/
def insert (members : Members α) (name : String) (value : α) : Members α :=
  members.alter name (fun _ => value)

/-- The entries of a list in the order of their names; of one name the last entry stays. -/
def ofList (entries : List (String × α)) : Members α :=
  entries.foldl (fun members entry => members.insert entry.1 entry.2) []

/-- Every name is less than all names behind it. -/
def Ordered (members : Members α) : Prop :=
  members.Pairwise (fun first second => first.1 < second.1)

end Members

namespace Json

/-- The integers that are kept exactly. -/
def FitsWord (value : Int) : Prop := Int64.minValue.toInt ≤ value ∧ value < UInt64.size

instance (value : Int) : Decidable (FitsWord value) := inferInstanceAs (Decidable (_ ∧ _))

/-- A number of a JSON text. -/
inductive Number where
  | integer (value : Int) (fits : FitsWord value)
  | binary (value : Binary64) (finite : value.isFinite = true)
deriving DecidableEq

/-- Equality of numbers: an integer never equals a double, and the two zeros of
the doubles are the same number. -/
def Number.same : Number → Number → Bool
  | .integer first _, .integer second _ => first == second
  | .binary first _, .binary second _ => first.same second
  | _, _ => false

/-- A JSON value. -/
inductive Value where
  | null
  | bool (value : Bool)
  | number (value : Number)
  | string (value : String)
  | array (elements : List Value)
  | object (members : List (String × Value))
deriving Inhabited

namespace Value

/-- An integer that fits a word. -/
def integer? (value : Int) : Option Value :=
  if fits : FitsWord value then some (.number (.integer value fits)) else none

/-- A natural number; one that is too large is null. -/
def ofNat (value : Nat) : Value := (integer? value).getD .null

mutual

/-- Equality of values, member by member. -/
def same : Value → Value → Bool
  | .null, .null => true
  | .bool first, .bool second => first == second
  | .number first, .number second => first.same second
  | .string first, .string second => first == second
  | .array first, .array second => sameElements first second
  | .object first, .object second => sameMembers first second
  | _, _ => false

/-- Equality of lists of values. -/
def sameElements : List Value → List Value → Bool
  | [], [] => true
  | first :: firstRest, second :: secondRest =>
    first.same second && sameElements firstRest secondRest
  | _, _ => false

/-- Equality of members with their names. -/
def sameMembers : List (String × Value) → List (String × Value) → Bool
  | [], [] => true
  | (firstName, first) :: firstRest, (secondName, second) :: secondRest =>
    firstName == secondName && first.same second && sameMembers firstRest secondRest
  | _, _ => false

end

mutual

/-- Every object in the value has its members in ascending order of their names. -/
def Canonical : Value → Prop
  | .array elements => CanonicalElements elements
  | .object members => Members.Ordered members ∧ CanonicalMembers members
  | _ => True

/-- Every element is canonical. -/
def CanonicalElements : List Value → Prop
  | [] => True
  | element :: rest => element.Canonical ∧ CanonicalElements rest

/-- The value of every member is canonical. -/
def CanonicalMembers : List (String × Value) → Prop
  | [] => True
  | (_, value) :: rest => value.Canonical ∧ CanonicalMembers rest

end

end Value

end Json

end Flowpress
