import Flowpress.Json.Cursor

/-!
# Numerals

A numeral is read in two steps: its parts are taken from the text, and then its
value is found. An integer that fits a word is exact. Any other numeral is a
double, computed from as many leading digits as fit sixty-four bits: the digits
behind those only count toward the power of ten, which is then multiplied or
divided in by one rounded operation after another. The result is close to the
written number but not always the nearest double.
-/

namespace Flowpress.Json

/-- The parts of a numeral: sign, digits in front of the point, digits behind it, and the
power of ten with its sign. -/
structure Numeral where
  negative : Bool
  whole : List Char
  fraction : List Char
  exponentNegative : Bool
  exponent : List Char
  /-- Neither a point nor a power of ten was written. -/
  integral : Bool

namespace Numeral

/-- The value of a decimal digit. -/
def digitValue (digit : Char) : Nat := digit.toNat - 48

/-- Takes digits into a number while it stays below `bound`; gives the number and the
digits that were left. -/
def absorb (bound : Nat) (number : Nat) : List Char → Nat × List Char
  | [] => (number, [])
  | digit :: rest =>
    if number * 10 + digitValue digit < bound then
      absorb bound (number * 10 + digitValue digit) rest
    else (number, digit :: rest)

/-- A power of ten as a double. -/
def powerOfTen (exponent : Nat) : Binary64 := .ofFloat (Float.ofScientific 1 false exponent)

/-- `value * 10 ^ exponent`, at most 308 powers of ten at a time; none if it is too large. -/
def scale (value : Binary64) (exponent : Int) : Option Binary64 :=
  if exponent.natAbs ≤ 308 then
    if 0 ≤ exponent then some (value.mul (powerOfTen exponent.natAbs))
    else some (value.div (powerOfTen exponent.natAbs))
  else if value.magnitude = 0 then some value
  else if 0 ≤ exponent then none
  else scale (value.div (powerOfTen 308)) (exponent + 308)
termination_by exponent.natAbs
decreasing_by omega

/-- A double with the sign of the numeral; none if it is not finite. -/
def signed? (negative : Bool) (value : Binary64) : Option Number :=
  let value := if negative then value.neg else value
  if finite : value.isFinite = true then some (.binary value finite) else none

/-- The greatest power of ten that is read as written. -/
def exponentBound : Nat := 0x80000000

/-- The digits of the power of ten that fit, the first one behind them included if there is one. -/
def exponentDigitsRead (numeral : Numeral) : Nat :=
  let left := (absorb exponentBound 0 numeral.exponent).2
  if left.isEmpty then numeral.exponent.length else numeral.exponent.length - left.length + 1

/-- Whether the power of ten has too many digits to be read. -/
def exponentOverflows (numeral : Numeral) : Bool :=
  !(absorb exponentBound 0 numeral.exponent).2.isEmpty

/-- The value of a numeral; none if it is out of range. -/
def value? (numeral : Numeral) : Option Number :=
  let (leading, wholeLeft) := absorb UInt64.size 0 numeral.whole
  let integer : Int := if numeral.negative then -leading else leading
  if numeral.integral ∧ wholeLeft = [] ∧ FitsWord integer ∧ ¬(numeral.negative ∧ leading = 0) then
    if fits : FitsWord integer then some (.integer integer fits) else none
  else
    let (significand, fractionLeft) := absorb UInt64.size leading numeral.fraction
    let shift : Int :=
      (wholeLeft.length : Int) - (numeral.fraction.length - fractionLeft.length : Nat)
    if numeral.exponentOverflows then
      if significand ≠ 0 ∧ ¬numeral.exponentNegative then none
      else signed? numeral.negative .zero
    else
      let power : Int := (absorb exponentBound 0 numeral.exponent).1
      let exponent := if numeral.exponentNegative then shift - power else shift + power
      (scale (.ofInt significand) exponent).bind (signed? numeral.negative)

end Numeral

namespace Cursor

/-- Takes the power of ten behind its mark: a sign, and at least one digit. -/
def exponentPart (cursor : Cursor) : Except Refusal ((Bool × List Char) × Cursor) :=
  let (negative, cursor) := match cursor.rest with
    | '+' :: _ => (false, cursor.advance)
    | '-' :: _ => (true, cursor.advance)
    | _ => (false, cursor)
  match cursor.rest with
  | [] => cursor.refuse .endOfValue
  | char :: _ =>
    if char.isDigit then
      let (digits, cursor) := cursor.takeDigits
      .ok ((negative, digits), cursor)
    else cursor.refuseNext .badNumber

/-- Takes the digits in front of the point: no zero stands in front of another digit. -/
def wholePart (cursor : Cursor) : Except Refusal (List Char × Cursor) :=
  match cursor.rest with
  | [] => cursor.refuse .endOfValue
  | '0' :: rest =>
    let cursor := cursor.advance
    match rest with
    | [] => .ok (['0'], cursor)
    | char :: _ => if char.isDigit then cursor.refuseNext .badNumber else .ok (['0'], cursor)
  | char :: _ => if char.isDigit then .ok cursor.takeDigits else cursor.refuseNext .badNumber

/-- Takes the digits behind the point, at least one. -/
def fractionPart (cursor : Cursor) : Except Refusal (List Char × Cursor) :=
  match cursor.rest with
  | [] => cursor.refuse .endOfValue
  | char :: _ => if char.isDigit then .ok cursor.takeDigits else cursor.refuseNext .badNumber

/-- Whether a power of ten follows. -/
def atExponent (cursor : Cursor) : Bool :=
  match cursor.rest with
  | char :: _ => char = 'e' || char = 'E'
  | [] => false

/-- Takes the parts of a numeral behind its sign. The second cursor stands where the digits
of the power of ten begin. -/
def numeralParts (negative : Bool) (cursor : Cursor) :
    Except Refusal ((Numeral × Cursor) × Cursor) := do
  let (whole, cursor) ← cursor.wholePart
  let pointed := match cursor.rest with
    | '.' :: _ => true
    | _ => false
  let (fraction, cursor) ← if pointed then cursor.advance.fractionPart else .ok ([], cursor)
  if cursor.atExponent then
    let ((exponentNegative, exponent), after) ← cursor.advance.exponentPart
    let signed := match cursor.advance.rest with
      | '+' :: _ | '-' :: _ => cursor.advance.advance
      | _ => cursor.advance
    .ok ((⟨negative, whole, fraction, exponentNegative, exponent, false⟩, signed), after)
  else
    .ok ((⟨negative, whole, fraction, false, [], !pointed⟩, cursor), cursor)

/-- Takes a numeral behind its sign and finds its value. A power of ten that is too long is
refused at the digit that is one too many. -/
def numeral (negative : Bool) : Reader Number := fun cursor => do
  let ((numeral, digitsStart), after) ← cursor.numeralParts negative
  match numeral.value? with
  | some number => .ok (number, after)
  | none =>
    if numeral.exponentOverflows then
      let place := digitsStart.position
      .error ⟨.numberOutOfRange, some ⟨place.line, place.column + numeral.exponentDigitsRead⟩⟩
    else after.refuse .numberOutOfRange

end Cursor

end Flowpress.Json
