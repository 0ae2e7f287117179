import Flowpress.Binary64

/-!
# The shortest decimal of a double

`Binary64.shortest` finds the decimal with the fewest digits among those that
round to a given finite double, and of these the one nearest to it. The search
goes through ever finer decimal grids and stops at the first one with a point
in the interval of reals that round to the double; should none of the grids it
tries have one, it gives the exact decimal expansion, which always lies there.
So the result always reads back as the double it was made from.

A `DecimalNotation` says how such a decimal is written.
-/

namespace Flowpress

/-- The number `digits * 10 ^ exponent`. -/
structure Decimal where
  digits : Nat
  exponent : Int
deriving DecidableEq, Repr

namespace Binary64

/-- Twice the distance from the lower neighbour, in quarters of the last place:
the gap below a power of two is half of the gap above it. -/
def gapBelow (x : Binary64) : Nat :=
  if x.significand = hiddenBit ∧ 2 * hiddenBit ≤ x.magnitude then 1 else 2

/-- Whether `point * unit` lies among the numbers that round to `x`, all counted
so that a quarter of the last place of `x` is `quarter`. The ends of the interval
belong to it when the significand is even. -/
def roundsTo (x : Binary64) (quarter unit point : Nat) : Bool :=
  let low := (4 * x.significand - x.gapBelow) * quarter
  let high := (4 * x.significand + 2) * quarter
  let value := point * unit
  if x.significand % 2 = 0 then decide (low ≤ value ∧ value ≤ high)
  else decide (low < value ∧ value < high)

/-- The point of the grid of multiples of `10 ^ exponent` that rounds to `x`, the
nearer one if there are two, and of two at the same distance the even one. -/
def gridPoint? (x : Binary64) (exponent : Int) : Option Nat :=
  let binary := x.exponent - 2
  let quarter := Nat.pow 2 binary.toNat * Nat.pow 10 (-exponent).toNat
  let unit := Nat.pow 10 exponent.toNat * Nat.pow 2 (-binary).toNat
  let below := 4 * x.significand * quarter / unit
  let rest := 4 * x.significand * quarter % unit
  let belowFits := decide (0 < below) && x.roundsTo quarter unit below
  let aboveFits := x.roundsTo quarter unit (below + 1)
  match belowFits, aboveFits with
  | true, true =>
    if 2 * rest < unit ∨ (2 * rest = unit ∧ below % 2 = 0) then some below else some (below + 1)
  | true, false => some below
  | false, true => some (below + 1)
  | false, false => none

/-- The exact decimal expansion of a finite value without its sign. -/
def exactDecimal (x : Binary64) : Decimal where
  digits := x.significand * Nat.pow 2 x.exponent.toNat * Nat.pow 5 (-x.exponent).toNat
  exponent := -((-x.exponent).toNat : Int)

/-- Tries `tries` grids, each ten times finer than the one before. -/
def shortestFrom (x : Binary64) : Nat → Int → Decimal
  | 0, _ => x.exactDecimal
  | tries + 1, exponent =>
    match x.gridPoint? exponent with
    | some digits => ⟨digits, exponent⟩
    | none => shortestFrom x tries (exponent - 1)

/-- An exponent so large that its grid has no point near `x`. -/
def coarseExponent (x : Binary64) : Int :=
  ((x.significand.log2 + x.exponent) * 30103).fdiv 100000 + 2

/-- The decimal with the fewest digits that rounds to a finite `x`, its sign left out. -/
def shortest (x : Binary64) : Decimal :=
  if x.magnitude = 0 then ⟨0, 0⟩ else x.shortestFrom 24 x.coarseExponent

end Binary64

/-- How a decimal is written. -/
structure DecimalNotation where
  /-- The least power of ten of a leading digit that is written positionally. -/
  leastPositional : Int
  /-- The greatest power of ten of a leading digit that is written positionally. -/
  greatestPositional : Int
  /-- What stands behind a positional whole number. -/
  wholeSuffix : String
  /-- What stands between digits and a power of ten that is not negative. -/
  exponentMark : String
  /-- What stands between digits and a negative power of ten. -/
  negativeExponentMark : String

namespace DecimalNotation

/-- Zeros in front of, behind and between the digits as the place of the point asks. -/
def positional (style : DecimalNotation) (digits : List Char) (exponent : Int) : List Char :=
  let leading := exponent + digits.length
  if 0 ≤ exponent then
    digits ++ List.replicate exponent.toNat '0' ++ style.wholeSuffix.toList
  else if 0 < leading then
    digits.take leading.toNat ++ '.' :: digits.drop leading.toNat
  else
    '0' :: '.' :: (List.replicate (-leading).toNat '0' ++ digits)

/-- One digit, the others behind a point, and the power of ten. -/
def scientific (style : DecimalNotation) (digits : List Char) (leading : Int) : List Char :=
  let significand := match digits with
    | first :: second :: others => first :: '.' :: second :: others
    | short => short
  if 0 ≤ leading then
    significand ++ style.exponentMark.toList ++ (toString leading.natAbs).toList
  else
    significand ++ style.negativeExponentMark.toList ++ (toString leading.natAbs).toList

/-- The text of a decimal. -/
def write (style : DecimalNotation) (decimal : Decimal) : List Char :=
  let digits := (toString decimal.digits).toList
  let leading := decimal.exponent + digits.length - 1
  if style.leastPositional ≤ leading ∧ leading ≤ style.greatestPositional then
    style.positional digits decimal.exponent
  else
    style.scientific digits leading

end DecimalNotation

end Flowpress
