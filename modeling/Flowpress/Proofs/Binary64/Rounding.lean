import Mathlib.Algebra.Order.Field.Power
import Mathlib.Data.Nat.Cast.Order.Field
import Mathlib.Data.Rat.Cast.Order
import Mathlib.Tactic.Linarith
import Mathlib.Tactic.Positivity
import Mathlib.Tactic.Ring
import Flowpress.Binary64.Shortest

/-!
# What rounds to a double

The reals that round to a double form an interval around it, and the intervals of
doubles with different magnitudes have no number in common. For counted from zero,
the interval of each magnitude begins where the interval of the magnitude before
it ends, and of two neighbours only one has an even significand, to which the
common end belongs. The shortest decimal of a double lies in its interval, so it
tells the magnitude of the double.
-/

namespace Flowpress

/-- The number that a decimal stands for. -/
def Decimal.amount (decimal : Decimal) : ℚ := decimal.digits * 10 ^ decimal.exponent

namespace Binary64

/-! ## Ends of intervals -/

/-- The significand of the doubles with a magnitude. -/
def significandAt (magnitude : Nat) : Nat :=
  if magnitude < hiddenBit then magnitude else magnitude % hiddenBit + hiddenBit

/-- By how many powers of two the last place of a magnitude is above the least one. -/
def placeAt (magnitude : Nat) : Nat := magnitude / hiddenBit - 1

/-- The gap below the doubles with a magnitude, in halves of the last place. -/
def gapAt (magnitude : Nat) : Nat :=
  if significandAt magnitude = hiddenBit ∧ 2 * hiddenBit ≤ magnitude then 1 else 2

/-- Where the numbers begin that round to a magnitude, in quarters of the least place. -/
def lowerEnd (magnitude : Nat) : Nat :=
  (4 * significandAt magnitude - gapAt magnitude) * 2 ^ placeAt magnitude

/-- Where the numbers end that round to a magnitude, in quarters of the least place. -/
def upperEnd (magnitude : Nat) : Nat := (4 * significandAt magnitude + 2) * 2 ^ placeAt magnitude

theorem gapAt_pos (magnitude : Nat) : 0 < gapAt magnitude := by
  unfold gapAt
  split_ifs <;> decide

/-- The interval of a magnitude is not empty. -/
theorem lowerEnd_lt_upperEnd (magnitude : Nat) : lowerEnd magnitude < upperEnd magnitude := by
  have positive : 0 < 2 ^ placeAt magnitude := Nat.two_pow_pos _
  exact Nat.mul_lt_mul_of_pos_right (by omega) positive

/-- Where the interval of a magnitude ends, the one of the next magnitude begins. -/
theorem upperEnd_eq_lowerEnd (magnitude : Nat) : upperEnd magnitude = lowerEnd (magnitude + 1) := by
  unfold upperEnd lowerEnd
  by_cases fits : (magnitude + 1) % hiddenBit ≠ 0
  · -- Inside a binade the significand grows by one.
    have significand : significandAt (magnitude + 1) = significandAt magnitude + 1 := by
      unfold significandAt hiddenBit at *
      split_ifs <;> omega
    have gap : gapAt (magnitude + 1) = 2 := by
      unfold gapAt significandAt hiddenBit at *
      split_ifs <;> omega
    have place : placeAt (magnitude + 1) = placeAt magnitude := by
      unfold placeAt hiddenBit at *
      omega
    rw [significand, gap, place]
    congr 1
  · have last : significandAt (magnitude + 1) = hiddenBit := by
      unfold significandAt hiddenBit at *
      split_ifs <;> omega
    by_cases least : magnitude + 1 = hiddenBit
    · -- The subnormal values have the same last place as the least normal ones.
      have significand : significandAt magnitude = hiddenBit - 1 := by
        unfold significandAt hiddenBit at *
        split_ifs <;> omega
      have gap : gapAt (magnitude + 1) = 2 := by
        unfold gapAt hiddenBit at *
        rw [if_neg (by omega)]
      have place : placeAt (magnitude + 1) = placeAt magnitude := by
        unfold placeAt hiddenBit at *
        omega
      rw [significand, last, gap, place]
      rfl
    · -- From one binade to the next the last place doubles, and the gap below it does not.
      have significand : significandAt magnitude = 2 * hiddenBit - 1 := by
        unfold significandAt hiddenBit at *
        split_ifs <;> omega
      have gap : gapAt (magnitude + 1) = 1 := by
        unfold gapAt
        rw [if_pos ⟨last, by unfold hiddenBit at *; omega⟩]
      have place : placeAt (magnitude + 1) = placeAt magnitude + 1 := by
        unfold placeAt hiddenBit at *
        omega
      rw [significand, last, gap, place, Nat.pow_succ', ← Nat.mul_assoc]
      rfl

theorem lowerEnd_strictMono : StrictMono lowerEnd :=
  strictMono_nat_of_lt_succ fun magnitude =>
    upperEnd_eq_lowerEnd magnitude ▸ lowerEnd_lt_upperEnd magnitude

/-- The significands of neighbours are not both even, nor both odd. -/
theorem significandAt_mod_two (magnitude : Nat) : significandAt magnitude % 2 = magnitude % 2 := by
  unfold significandAt hiddenBit
  split_ifs <;> omega

/-! ## Numbers that round to a double -/

/-- The power of two that a quarter of the least place is. -/
def leastPower : Int := -1076

/-- A quarter of the least place. -/
def leastQuarter : ℚ := 2 ^ leastPower

theorem leastQuarter_pos : 0 < leastQuarter := zpow_pos (by norm_num) _

/-- A number rounds to a double, the sign of the double left out. The ends of its interval round to
it if its significand is even. -/
structure Covers (x : Binary64) (amount : ℚ) : Prop where
  lower : lowerEnd x.magnitude * leastQuarter ≤ amount
  upper : amount ≤ upperEnd x.magnitude * leastQuarter
  inside : x.significand % 2 ≠ 0 →
    lowerEnd x.magnitude * leastQuarter ≠ amount ∧ amount ≠ upperEnd x.magnitude * leastQuarter

/-- What rounds to a double rounds to no double of a greater magnitude. -/
theorem Covers.not_lt {x y : Binary64} {amount : ℚ} (first : x.Covers amount)
    (second : y.Covers amount) : ¬x.magnitude < y.magnitude := by
  intro less
  have unit := leastQuarter_pos
  have ends : (upperEnd x.magnitude : ℚ) ≤ lowerEnd y.magnitude := by
    rw [upperEnd_eq_lowerEnd]
    exact_mod_cast lowerEnd_strictMono.monotone less
  have scaled := mul_le_mul_of_nonneg_right ends unit.le
  have upper : amount = upperEnd x.magnitude * leastQuarter :=
    le_antisymm first.upper (scaled.trans second.lower)
  have lower : lowerEnd y.magnitude * leastQuarter = amount :=
    le_antisymm second.lower (first.upper.trans scaled)
  -- The intervals touch, so the magnitudes are neighbours, and one significand is odd.
  have touch : lowerEnd (x.magnitude + 1) = lowerEnd y.magnitude := by
    rw [← upperEnd_eq_lowerEnd]
    exact_mod_cast mul_right_cancel₀ unit.ne' (upper.symm.trans lower.symm)
  have next : x.magnitude + 1 = y.magnitude := lowerEnd_strictMono.injective touch
  have parityX : x.significand % 2 = x.magnitude % 2 := significandAt_mod_two x.magnitude
  have parityY : y.significand % 2 = y.magnitude % 2 := significandAt_mod_two y.magnitude
  by_cases even : x.significand % 2 = 0
  · exact (second.inside (by omega)).1 lower
  · exact (first.inside even).2 upper

/-- A number rounds to doubles of one magnitude alone. -/
theorem Covers.magnitude_eq {x y : Binary64} {amount : ℚ} (first : x.Covers amount)
    (second : y.Covers amount) : x.magnitude = y.magnitude :=
  Nat.le_antisymm (Nat.le_of_not_lt (second.not_lt first)) (Nat.le_of_not_lt (first.not_lt second))

/-! ## Shortest decimals -/

/-- The last place of a double is the least one, some powers of two higher. -/
theorem exponent_eq_placeAt (x : Binary64) :
    x.exponent - 2 = placeAt x.magnitude + leastPower := by
  unfold exponent placeAt leastPower hiddenBit
  split_ifs <;> omega

/-- Quarters of the last place of a double. -/
theorem quarters_eq (x : Binary64) (count : Nat) :
    ((count * 2 ^ placeAt x.magnitude : Nat) : ℚ) * leastQuarter =
      count * 2 ^ (x.exponent - 2) := by
  rw [exponent_eq_placeAt, zpow_add₀ (by norm_num), leastQuarter]
  push_cast
  rw [zpow_natCast, mul_assoc]

/-- A power is the quotient of two natural numbers. -/
theorem pow_toNat {base : ℚ} (positive : base ≠ 0) (exponent : Int) :
    base ^ exponent.toNat = base ^ exponent * base ^ (-exponent).toNat := by
  rw [← zpow_natCast, ← zpow_natCast, ← zpow_add₀ positive]
  congr 1
  omega

/-- The test of a point on a decimal grid is one of the number that the point stands for. -/
theorem roundsTo_iff_covers (x : Binary64) (exponent : Int) (point : Nat) :
    x.roundsTo (Nat.pow 2 (x.exponent - 2).toNat * Nat.pow 10 (-exponent).toNat)
        (Nat.pow 10 exponent.toNat * Nat.pow 2 (-(x.exponent - 2)).toNat) point = true ↔
      x.Covers (point * 10 ^ exponent) := by
  -- Both sides are counted in the same unit, by which the comparisons are divided.
  have two : (2 : ℚ) ≠ 0 := by norm_num
  have ten : (10 : ℚ) ≠ 0 := by norm_num
  let unit : ℚ := 2 ^ (-(x.exponent - 2)).toNat * 10 ^ (-exponent).toNat
  have positive : 0 < unit := by positivity
  have quarters (count : Nat) :
      ((count * (2 ^ (x.exponent - 2).toNat * 10 ^ (-exponent).toNat) : Nat) : ℚ) =
        ((count * 2 ^ placeAt x.magnitude : Nat) : ℚ) * leastQuarter * unit := by
    rw [quarters_eq]
    push_cast
    rw [pow_toNat two]
    ring
  have value :
      ((point * (10 ^ exponent.toNat * 2 ^ (-(x.exponent - 2)).toNat) : Nat) : ℚ) =
        point * 10 ^ exponent * unit := by
    push_cast
    rw [pow_toNat ten]
    ring
  have low := quarters (4 * significandAt x.magnitude - gapAt x.magnitude)
  have high := quarters (4 * significandAt x.magnitude + 2)
  have significand : x.significand = significandAt x.magnitude := rfl
  have gap : x.gapBelow = gapAt x.magnitude := rfl
  unfold roundsTo
  simp only [Nat.pow_eq, significand, gap]
  generalize 2 ^ (x.exponent - 2).toNat * 10 ^ (-exponent).toNat = quarter at low high ⊢
  generalize 10 ^ exponent.toNat * 2 ^ (-(x.exponent - 2)).toNat = step at value ⊢
  change _ = (lowerEnd x.magnitude : ℚ) * leastQuarter * unit at low
  change _ = (upperEnd x.magnitude : ℚ) * leastQuarter * unit at high
  split_ifs with even
  · rw [decide_eq_true_eq, ← @Nat.cast_le ℚ, ← @Nat.cast_le ℚ, low, high, value,
      mul_le_mul_iff_of_pos_right positive, mul_le_mul_iff_of_pos_right positive]
    exact ⟨fun ⟨lower, upper⟩ => ⟨lower, upper, fun odd => absurd even odd⟩,
      fun covers => ⟨covers.lower, covers.upper⟩⟩
  · rw [decide_eq_true_eq, ← @Nat.cast_lt ℚ, ← @Nat.cast_lt ℚ, low, high, value,
      mul_lt_mul_iff_of_pos_right positive, mul_lt_mul_iff_of_pos_right positive]
    constructor
    · intro ⟨lower, upper⟩
      exact ⟨lower.le, upper.le, fun _ => ⟨lower.ne, upper.ne⟩⟩
    · intro covers
      obtain ⟨lower, upper⟩ := covers.inside even
      exact ⟨lt_of_le_of_ne covers.lower lower, lt_of_le_of_ne covers.upper upper⟩

theorem gridPoint?_covers {x : Binary64} {exponent : Int} {point : Nat}
    (found : x.gridPoint? exponent = some point) : x.Covers (point * 10 ^ exponent) := by
  apply (roundsTo_iff_covers x exponent point).mp
  unfold gridPoint? at found
  dsimp only at found
  split at found <;> rename_i below above
  · have belowFits := (Bool.and_eq_true_iff.mp below).2
    split_ifs at found <;> cases found
    · exact belowFits
    · exact above
  · cases found
    exact (Bool.and_eq_true_iff.mp below).2
  · cases found
    exact above
  · cases found

/-- The exact expansion of a double stands for the double. -/
theorem amount_exactDecimal (x : Binary64) :
    x.exactDecimal.amount = x.significand * 2 ^ x.exponent := by
  have two : (2 : ℚ) ≠ 0 := by norm_num
  have ten : (10 : ℚ) ^ (-x.exponent).toNat = 2 ^ (-x.exponent).toNat * 5 ^ (-x.exponent).toNat := by
    rw [← mul_pow]
    norm_num
  have positive : (10 : ℚ) ^ (-x.exponent).toNat ≠ 0 := by positivity
  unfold Decimal.amount exactDecimal
  simp only [Nat.pow_eq, zpow_neg, zpow_natCast]
  push_cast
  rw [pow_toNat two, ← div_eq_mul_inv, div_eq_iff positive, ten]
  ring

theorem exactDecimal_covers (x : Binary64) : x.Covers x.exactDecimal.amount := by
  have unit := leastQuarter_pos
  have place : 0 < 2 ^ placeAt x.magnitude := Nat.two_pow_pos _
  have gap := gapAt_pos x.magnitude
  have amount : x.exactDecimal.amount =
      ((4 * significandAt x.magnitude * 2 ^ placeAt x.magnitude : Nat) : ℚ) * leastQuarter := by
    rw [amount_exactDecimal, quarters_eq, zpow_sub₀ (by norm_num)]
    push_cast
    rw [show x.significand = significandAt x.magnitude from rfl]
    ring
  have lower : lowerEnd x.magnitude ≤ 4 * significandAt x.magnitude * 2 ^ placeAt x.magnitude :=
    Nat.mul_le_mul_right _ (Nat.sub_le _ _)
  have upper : 4 * significandAt x.magnitude * 2 ^ placeAt x.magnitude < upperEnd x.magnitude :=
    Nat.mul_lt_mul_of_pos_right (by omega) place
  rw [amount]
  refine ⟨?_, ?_, fun odd => ⟨?_, ?_⟩⟩
  · exact mul_le_mul_of_nonneg_right (by exact_mod_cast lower) unit.le
  · exact mul_le_mul_of_nonneg_right (by exact_mod_cast upper.le) unit.le
  · have some : significandAt x.magnitude ≠ 0 := fun none => odd (congrArg (· % 2) none)
    have less : lowerEnd x.magnitude < 4 * significandAt x.magnitude * 2 ^ placeAt x.magnitude :=
      Nat.mul_lt_mul_of_pos_right (by omega) place
    exact (mul_lt_mul_of_pos_right (by exact_mod_cast less) unit).ne
  · exact (mul_lt_mul_of_pos_right (by exact_mod_cast upper) unit).ne

/-- The shortest decimal of a double rounds to the double. -/
theorem shortest_covers (x : Binary64) : x.Covers x.shortest.amount := by
  have search (tries : Nat) (exponent : Int) :
      x.Covers (x.shortestFrom tries exponent).amount := by
    induction tries generalizing exponent with
    | zero => exact exactDecimal_covers x
    | succ tries inductionHypothesis =>
        rw [shortestFrom]
        split
        · next point found => exact gridPoint?_covers found
        · exact inductionHypothesis (exponent - 1)
  unfold shortest
  split_ifs with zero
  · have nothing : x.significand = 0 := by
      unfold significand
      rw [zero]
      rfl
    have amount : (⟨0, 0⟩ : Decimal).amount = x.exactDecimal.amount := by
      rw [amount_exactDecimal, nothing, Decimal.amount]
      norm_num
    exact amount ▸ exactDecimal_covers x
  · exact search _ _

/-- Doubles with the same shortest decimal have the same magnitude. -/
theorem magnitude_eq_of_shortest {x y : Binary64} (same : x.shortest.amount = y.shortest.amount) :
    x.magnitude = y.magnitude :=
  (shortest_covers x).magnitude_eq (same ▸ shortest_covers y)

end Binary64

end Flowpress
