import Flowpress.Binary64

/-!
# Elements

A pipeline carries elements of one of three types. `ElementType.Carrier` gives
the values of each, and the class `Element` says what sorting, summing and
converting mean for them. Integers order and wrap as machine words do; doubles
order by the total order of bit patterns, under which elements tie exactly when
they are equal.
-/

namespace Flowpress

/-- The types of element a pipeline can carry. -/
inductive ElementType where
  | int
  | long
  | double
deriving DecidableEq, Repr

namespace ElementType

/-- Every type, in the order in which messages list them. -/
def all : List ElementType := [.int, .long, .double]

/-- The name of the type, in messages and in data. -/
def name : ElementType → String
  | .int => "int"
  | .long => "long"
  | .double => "double"

/-- The name of the type where a structure is spelled out. -/
def label : ElementType → String
  | .int => "Int"
  | .long => "Long"
  | .double => "Double"

/-- The values of the type: two sizes of two's complement integers, and doubles. -/
abbrev Carrier : ElementType → Type
  | .int => Int32
  | .long => Int64
  | .double => Binary64

end ElementType

/-- What a pipeline needs to know about its elements. -/
class Element (α : Type) where
  /-- The tag of the type. -/
  elementType : ElementType
  /-- Where a sum starts. -/
  zero : α
  /-- The order in which elements are sorted unless another one is given. -/
  order : α → α → Ordering
  /-- The sum of two elements, or none if it is out of range. -/
  add? : α → α → Option α

namespace Element

/-- The exact sum if it is a value of the machine word. -/
def addWithin (low high : Int) (first second : Int) : Option Int :=
  if low ≤ first + second ∧ first + second ≤ high then some (first + second) else none

instance : Element Int32 where
  elementType := .int
  zero := 0
  order first second := compare first.toInt second.toInt
  add? first second :=
    (addWithin Int32.minValue.toInt Int32.maxValue.toInt first.toInt second.toInt).map Int32.ofInt

instance : Element Int64 where
  elementType := .long
  zero := 0
  order first second := compare first.toInt second.toInt
  add? first second :=
    (addWithin Int64.minValue.toInt Int64.maxValue.toInt first.toInt second.toInt).map Int64.ofInt

instance : Element Binary64 where
  elementType := .double
  zero := .zero
  order := Binary64.totalOrder
  add? first second := some (first.add second)

end Element

namespace ElementType

instance (type : ElementType) : DecidableEq type.Carrier :=
  match type with
  | .int => inferInstanceAs (DecidableEq Int32)
  | .long => inferInstanceAs (DecidableEq Int64)
  | .double => inferInstanceAs (DecidableEq Binary64)

instance (type : ElementType) : Element type.Carrier :=
  match type with
  | .int => inferInstanceAs (Element Int32)
  | .long => inferInstanceAs (Element Int64)
  | .double => inferInstanceAs (Element Binary64)

/-- Conversion between element types: an integer keeps its low bits, a double is cut toward
zero and clamped, an integer becomes the nearest double. -/
def convert : (source target : ElementType) → source.Carrier → target.Carrier
  | .int, .int, value => value
  | .int, .long, value => Int64.ofInt value.toInt
  | .int, .double, value => Binary64.ofInt value.toInt
  | .long, .int, value => Int32.ofInt value.toInt
  | .long, .long, value => value
  | .long, .double, value => Binary64.ofInt value.toInt
  | .double, .int, value =>
    Int32.ofInt (Binary64.clamp value Int32.minValue.toInt Int32.maxValue.toInt)
  | .double, .long, value =>
    Int64.ofInt (Binary64.clamp value Int64.minValue.toInt Int64.maxValue.toInt)
  | .double, .double, value => value

end ElementType

/-- An element of any type. -/
abbrev AnyElement : Type := (type : ElementType) × type.Carrier

end Flowpress
