import Flowpress.Toml.Quoted
import Flowpress.Toml.Value

/-!
# TOML numbers

Integers are decimal with an optional sign, or hexadecimal, octal or binary
without one, and fit sixty-four bits with a sign. A float has a fraction, a power
of ten or both, or is the word for infinity or for no number. Underscores may
stand between digits. A positive float that is too large is refused.
-/

namespace Flowpress.Toml

/-- The digits behind the first one; an underscore must have a digit behind it. -/
def moreDigits (isDigit : Char → Bool) : Reader (List Char)
  | [] => some ([], [])
  | '_' :: char :: rest =>
    if isDigit char then do
      let (digits, rest) ← moreDigits isDigit rest
      some (char :: digits, rest)
    else none
  | char :: rest =>
    if isDigit char then do
      let (digits, rest) ← moreDigits isDigit rest
      some (char :: digits, rest)
    else if char = '_' then none
    else some ([], char :: rest)

/-- At least one digit. -/
def digits (isDigit : Char → Bool) : Reader (List Char)
  | [] => none
  | char :: rest =>
    if isDigit char then do
      let (digits, rest) ← moreDigits isDigit rest
      some (char :: digits, rest)
    else none

/-- The number that digits stand for. -/
def numberOf (base : Nat) (digits : List Char) : Nat :=
  digits.foldl (fun number digit => number * base + (hexValue? digit).getD 0) 0

/-- Takes a sign: whether there was one, and whether it was a minus. -/
def sign : List Char → (Bool × Bool) × List Char
  | '+' :: rest => ((true, false), rest)
  | '-' :: rest => ((true, true), rest)
  | text => ((false, false), text)

/-- The digits of a decimal integer: a lone zero, or no zero in front. -/
def decimalDigits : Reader (List Char)
  | '0' :: rest => some (['0'], rest)
  | text => digits Char.isDigit text

/-- The integers of a table. -/
def integer? (negative : Bool) (magnitude : Nat) : Option Value :=
  let value : Int := if negative then -magnitude else magnitude
  if Int64.minValue.toInt ≤ value ∧ value ≤ Int64.maxValue.toInt then some (.integer value)
  else none

/-- An integer in another base than ten, behind its mark. -/
def basedInteger (base : Nat) : Reader Value := fun text => do
  let isDigit (char : Char) : Bool := (hexValue? char).any fun value => decide (value < base)
  let (digits, rest) ← digits isDigit text
  some (← integer? false (numberOf base digits), rest)

/-- Positive infinity. -/
def infinity : Binary64 := ⟨0x7ff0000000000000⟩

/-- The double nearest to `significand * 10 ^ exponent`. -/
def nearest (significand : Nat) (exponent : Int) : Binary64 :=
  let size : Int := (Nat.toDigits 10 significand).length
  if significand = 0 ∨ exponent + size < -400 then .zero
  else if 400 < exponent + size then infinity
  else .ofFloat (Float.ofScientific significand (decide (exponent < 0)) exponent.natAbs)

/-- A float out of its parts; none if it is positive and too large. -/
def float? (negative : Bool) (whole fraction : List Char) (exponent : Int) : Option Value :=
  let value := nearest (numberOf 10 (whole ++ fraction)) (exponent - fraction.length)
  if negative then some (.float value.neg)
  else if value = infinity then none
  else some (.float value)

/-- Takes the power of ten behind its mark. -/
def exponentPart : Reader Int := fun text => do
  let ((_, negative), text) := sign text
  let (digits, rest) ← digits Char.isDigit text
  let magnitude : Int := numberOf 10 digits
  some (if negative then -magnitude else magnitude, rest)

/-- Takes a power of ten if there is one. -/
def optionalExponent : Reader (Option Int)
  | 'e' :: rest | 'E' :: rest => do
    let (exponent, rest) ← exponentPart rest
    some (some exponent, rest)
  | text => some (none, text)

/-- A decimal number behind its sign. -/
def decimal (negative : Bool) : Reader Value := fun text => do
  let (whole, rest) ← decimalDigits text
  match rest with
  | '.' :: rest => do
    let (fraction, rest) ← digits Char.isDigit rest
    let (exponent, rest) ← optionalExponent rest
    some (← float? negative whole fraction (exponent.getD 0), rest)
  | rest => do
    let (exponent, rest) ← optionalExponent rest
    match exponent with
    | some exponent => some (← float? negative whole [] exponent, rest)
    | none => some (← integer? negative (numberOf 10 whole), rest)

/-- A number. -/
def number : Reader Value
  | '0' :: 'x' :: rest => basedInteger 16 rest
  | '0' :: 'o' :: rest => basedInteger 8 rest
  | '0' :: 'b' :: rest => basedInteger 2 rest
  | text =>
    let ((_, negative), text) := sign text
    match text with
    | 'i' :: 'n' :: 'f' :: rest => some (.float (if negative then infinity.neg else infinity), rest)
    | 'n' :: 'a' :: 'n' :: rest => some (.float .quietNaN, rest)
    | text => decimal negative text

end Flowpress.Toml
