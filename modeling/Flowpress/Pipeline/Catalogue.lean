import Flowpress.Pipeline.Action

/-!
# A catalogue of functions

Programs of pipeline steps name their functions. Each name of the catalogue, with
its arguments, stands for a predicate, an operator, an expander or an order over
the elements of any type; `Arithmetic` says what the names mean for each type.
Integer arithmetic wraps as machine words do, and remainders are never negative.
Double arithmetic gives one NaN only.
-/

namespace Flowpress

/-- The operations that the functions of the catalogue are made of. -/
class Arithmetic (α : Type) where
  /-- Numeric "less than". -/
  less : α → α → Bool
  /-- Numeric equality. -/
  same : α → α → Bool
  isNaN : α → Bool
  neg : α → α
  abs : α → α
  add : α → α → α
  mul : α → α → α
  /-- Division; integers are left as they are. -/
  div : α → α → α
  /-- The remainder that is not negative; doubles are left as they are. -/
  remainder : α → α → α
  /-- The value and all smaller ones down to one, if it is an integer from one to fifty. -/
  countdown : α → List α
  /-- The order of the absolute values. -/
  compareAbs : α → α → Ordering

namespace Arithmetic

/-- The integers from `value` down to one, unless there are none or more than fifty. -/
def integersDownFrom (value : Int) : List Int :=
  if value < 1 ∨ 50 < value then []
  else (List.range value.toNat).map fun (passed : Nat) => value - passed

instance : Arithmetic Int32 where
  less first second := decide (first.toInt < second.toInt)
  same first second := decide (first = second)
  isNaN _ := false
  neg value := -value
  abs value := Int32.ofInt value.toInt.natAbs
  add first second := first + second
  mul first second := first * second
  div value _ := value
  remainder value divisor := Int32.ofInt (value.toInt.emod divisor.toInt)
  countdown value := (integersDownFrom value.toInt).map Int32.ofInt
  compareAbs first second := compare first.toInt.natAbs second.toInt.natAbs

instance : Arithmetic Int64 where
  less first second := decide (first.toInt < second.toInt)
  same first second := decide (first = second)
  isNaN _ := false
  neg value := -value
  abs value := Int64.ofInt value.toInt.natAbs
  add first second := first + second
  mul first second := first * second
  div value _ := value
  remainder value divisor := Int64.ofInt (value.toInt.emod divisor.toInt)
  countdown value := (integersDownFrom value.toInt).map Int64.ofInt
  compareAbs first second := compare first.toInt.natAbs second.toInt.natAbs

instance : Arithmetic Binary64 where
  less := Binary64.lt
  same := Binary64.same
  isNaN := Binary64.isNaN
  neg := Binary64.neg
  abs := Binary64.abs
  add := Binary64.add
  mul := Binary64.mul
  div := Binary64.div
  remainder value _ := value
  countdown _ := []
  compareAbs first second := first.withoutSign.totalOrder second.withoutSign

end Arithmetic

instance (type : ElementType) : Arithmetic type.Carrier :=
  match type with
  | .int => inferInstanceAs (Arithmetic Int32)
  | .long => inferInstanceAs (Arithmetic Int64)
  | .double => inferInstanceAs (Arithmetic Binary64)

namespace Catalogue

variable {α : Type}

/-- The predicates that have a name. -/
inductive Predicate (α : Type) where
  | always
  | never
  | greater (bound : α)
  | less (bound : α)
  | differs (value : α)
  | remainder (divisor rest : α)
  | isNaN

/-- The operators that have a name. -/
inductive Operator (α : Type) where
  | identity
  | negate
  | absolute
  | constant (value : α)
  | add (summand : α)
  | multiply (factor : α)
  | divide (divisor : α)
  | remainder (divisor : α)

/-- The expanders that have a name. -/
inductive Expander (α : Type) where
  | nothing
  | repeated (times : Nat)
  | pair (summand : α)
  | repeatedIfGreater (bound : α) (times : Nat)
  | countdown

/-- The orders that have a name. -/
inductive Order (α : Type) where
  | natural
  | reverse
  | equal
  | absolute
  | remainder (divisor : α)

variable [Arithmetic α]

def Predicate.holds : Predicate α → α → Bool
  | .always, _ => true
  | .never, _ => false
  | .greater bound, value => Arithmetic.less bound value
  | .less bound, value => Arithmetic.less value bound
  | .differs other, value => !Arithmetic.same value other
  | .remainder divisor rest, value => Arithmetic.same (Arithmetic.remainder value divisor) rest
  | .isNaN, value => Arithmetic.isNaN value

def Operator.image : Operator α → α → α
  | .identity, value => value
  | .negate, value => Arithmetic.neg value
  | .absolute, value => Arithmetic.abs value
  | .constant other, _ => other
  | .add summand, value => Arithmetic.add value summand
  | .multiply factor, value => Arithmetic.mul value factor
  | .divide divisor, value => Arithmetic.div value divisor
  | .remainder divisor, value => Arithmetic.remainder value divisor

def Expander.expand : Expander α → α → List α
  | .nothing, _ => []
  | .repeated times, value => List.replicate times value
  | .pair summand, value => [value, Arithmetic.add value summand]
  | .repeatedIfGreater bound times, value =>
    if Arithmetic.less bound value then List.replicate times value else []
  | .countdown, value => Arithmetic.countdown value

def Order.compare [Element α] : Order α → α → α → Ordering
  | .natural, first, second => Element.order first second
  | .reverse, first, second => Element.order second first
  | .equal, _, _ => .eq
  | .absolute, first, second => Arithmetic.compareAbs first second
  | .remainder divisor, first, second =>
    Element.order (Arithmetic.remainder first divisor) (Arithmetic.remainder second divisor)

end Catalogue

end Flowpress
