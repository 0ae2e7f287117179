/-!
# Sixty-four bit floating point values

A `Binary64` is the bit pattern of an IEEE 754 double. Keeping the bits, and
not only the number they stand for, lets two NaNs with different payloads be
different elements and keeps the two zeros apart.

Equality of `Binary64` is equality of bits. The numeric comparisons `lt` and
`same` follow IEEE 754, where a NaN compares with nothing and the zeros agree;
`totalOrder` is the total order of IEEE 754, which agrees with equality of
bits.
-/

namespace Flowpress

/-- The bit pattern of an IEEE 754 double. -/
structure Binary64 where
  bits : UInt64
deriving DecidableEq, Repr, Inhabited

namespace Binary64

/-- The NaN that arithmetic gives. -/
def quietNaN : Binary64 := ⟨0x7ff8000000000000⟩

/-- Positive zero. -/
def zero : Binary64 := ⟨0⟩

/-- The sign bit. -/
def isNegative (x : Binary64) : Bool := decide (0x8000000000000000 ≤ x.bits)

/-- All bits but the sign, as a number. -/
def magnitude (x : Binary64) : Nat := x.bits.toNat % 0x8000000000000000

/-- The magnitude of the infinities: the NaNs lie above it, the finite values below. -/
def infiniteMagnitude : Nat := 0x7ff0000000000000

def isNaN (x : Binary64) : Bool := decide (infiniteMagnitude < x.magnitude)

def isFinite (x : Binary64) : Bool := decide (x.magnitude < infiniteMagnitude)

/-- The key whose integer order is the total order of IEEE 754: negative values
in front of positive ones, and the farther from zero the closer to an end. -/
def totalKey (x : Binary64) : Int :=
  if x.isNegative then -(x.magnitude : Int) - 1 else x.magnitude

/-- The total order of IEEE 754 on bit patterns. -/
def totalOrder (x y : Binary64) : Ordering := compare x.totalKey y.totalKey

/-! ## Arithmetic and numeric comparison -/

def toFloat (x : Binary64) : Float := Float.ofBits x.bits

/-- Every NaN is taken to `quietNaN`. -/
def ofFloat (x : Float) : Binary64 := if x.isNaN then quietNaN else ⟨x.toBits⟩

def add (x y : Binary64) : Binary64 := ofFloat (x.toFloat + y.toFloat)

def mul (x y : Binary64) : Binary64 := ofFloat (x.toFloat * y.toFloat)

def div (x y : Binary64) : Binary64 := ofFloat (x.toFloat / y.toFloat)

/-- The value with the other sign; every NaN becomes `quietNaN`. -/
def neg (x : Binary64) : Binary64 :=
  if x.isNaN then quietNaN else ⟨x.bits ^^^ 0x8000000000000000⟩

/-- The value without its sign bit, NaNs included. -/
def withoutSign (x : Binary64) : Binary64 := ⟨x.bits &&& 0x7fffffffffffffff⟩

/-- The absolute value; every NaN becomes `quietNaN`. -/
def abs (x : Binary64) : Binary64 := if x.isNaN then quietNaN else x.withoutSign

/-- Numeric "less than": false when either side is a NaN. -/
def lt (x y : Binary64) : Bool := decide (x.toFloat < y.toFloat)

/-- Numeric equality: a NaN equals nothing and the two zeros are equal. -/
def same (x y : Binary64) : Bool := x.toFloat == y.toFloat

/-! ## Integers -/

/-- The nearest double, a half going to the even neighbour. -/
def ofInt (value : Int) : Binary64 := ⟨(Float.ofInt value).toBits⟩

/-- The bit that the significand of a normal value has in front of those that are kept. -/
def hiddenBit : Nat := 0x10000000000000

/-- A finite value is `significand * 2 ^ exponent`, up to its sign. -/
def significand (x : Binary64) : Nat :=
  if x.magnitude < hiddenBit then x.magnitude else x.magnitude % hiddenBit + hiddenBit

/-- The power of two that `significand` counts. -/
def exponent (x : Binary64) : Int :=
  if x.magnitude < hiddenBit then -1074 else (x.magnitude / hiddenBit : Nat) - 1075

/-- The integer part of a finite value, toward zero. -/
def truncate (x : Binary64) : Int :=
  let whole := x.significand * Nat.pow 2 x.exponent.toNat / Nat.pow 2 (-x.exponent).toNat
  if x.isNegative then -whole else whole

/-- Conversion to the integers from `low` to `high`: toward zero, clamped to the
ends, and zero for a NaN. -/
def clamp (x : Binary64) (low high : Int) : Int :=
  if x.isNaN then 0
  else if x.isFinite then max low (min high x.truncate)
  else if x.isNegative then low else high

end Binary64

end Flowpress
