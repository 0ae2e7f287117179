import Mathlib.Tactic.IntervalCases
import Flowpress.Proofs.Json.Reading

/-!
# Digits of integers

The decimal digits of a natural number do not begin with a zero unless they are a
zero, and they are taken into the number one after another without ever leaving
sixty-four bits. So the digits of an integer that fits a word have this integer as
their value.
-/

namespace Flowpress.Json

/-! ## Digits -/

theorem ne_of_isDigit {digit char : Char} (decimal : digit.isDigit) (other : char.isDigit = false) :
    digit ≠ char := by
  rintro rfl
  exact absurd decimal (by simp [other])

theorem isBlank_of_isDigit {digit : Char} (decimal : digit.isDigit) :
    Cursor.isBlank digit = false := by
  have noSpace : digit ≠ ' ' := ne_of_isDigit decimal rfl
  have noNewline : digit ≠ '\n' := ne_of_isDigit decimal rfl
  have noTab : digit ≠ '\t' := ne_of_isDigit decimal rfl
  have noReturn : digit ≠ '\r' := ne_of_isDigit decimal rfl
  simp [Cursor.isBlank, noSpace, noNewline, noTab, noReturn]

/-- Only zero has digits that begin with a zero. -/
theorem head?_toDigits_ne {count : Nat} (positive : count ≠ 0) :
    (Nat.toDigits 10 count).head? ≠ some '0' := by
  induction count using Nat.strongRecOn with
  | ind count inductionHypothesis =>
      by_cases small : count < 10
      · rw [Nat.toDigits_of_lt_base small]
        interval_cases count <;> simp_all
      · have base : 10 ≤ count := Nat.le_of_not_lt small
        rw [Nat.toDigits_of_base_le (by decide) base,
          List.head?_append_of_ne_nil _ Nat.toDigits_ne_nil]
        exact inductionHypothesis _ (Nat.div_lt_self (by omega) (by decide)) (by omega)

theorem isDigit_of_mem_toDigits {count : Nat} {digit : Char}
    (member : digit ∈ Nat.toDigits 10 count) : digit.isDigit :=
  Nat.isDigit_of_mem_toDigits (by decide) (by decide) member

/-! ## Texts of integers -/

/-- Digits are the text of an integer, behind a sign if it is negative. -/
theorem Number.write_ofNat (count : Nat) (fits : FitsWord (Int.ofNat count)) :
    write (.integer (Int.ofNat count) fits) = Nat.toDigits 10 count :=
  Nat.toList_repr

theorem Number.write_negSucc (count : Nat) (fits : FitsWord (Int.negSucc count)) :
    write (.integer (Int.negSucc count) fits) = '-' :: Nat.toDigits 10 (count + 1) := by
  have text : toString (Int.negSucc count) = "-" ++ Nat.repr (count + 1) := rfl
  rw [write, text, String.toList_append, Nat.toList_repr]
  rfl

/-! ## Values of digits -/

namespace Numeral

/-- Digits only ever make a number greater. -/
theorem le_ofDigitChars (digits : List Char) (number : Nat) :
    number ≤ Nat.ofDigitChars 10 digits number := by
  rw [Nat.ofDigitChars_eq_ofDigitChars_zero]
  exact (Nat.le_mul_of_pos_left number (Nat.pow_pos (by decide))).trans (Nat.le_add_right _ _)

/-- Digits are taken into a number to the last one if the whole number stays below the bound. -/
theorem absorb_eq {bound : Nat} (digits : List Char) {number : Nat}
    (small : Nat.ofDigitChars 10 digits number < bound) :
    absorb bound number digits = (Nat.ofDigitChars 10 digits number, []) := by
  induction digits generalizing number with
  | nil => rw [absorb, Nat.ofDigitChars_nil]
  | cons digit digits inductionHypothesis =>
      have step : 10 * number + (digit.toNat - '0'.toNat) = number * 10 + digitValue digit := by
        rw [Nat.mul_comm]
        rfl
      rw [Nat.ofDigitChars_cons, step] at small ⊢
      rw [absorb, if_pos ((le_ofDigitChars digits _).trans_lt small), inductionHypothesis small]

/-- The value of the digits of a natural number with a sign. A zero with a sign is no integer. -/
theorem value?_toDigits {negative : Bool} {count : Nat}
    (fits : FitsWord (if negative then -count else count)) (signed : negative → count ≠ 0) :
    value? ⟨negative, Nat.toDigits 10 count, [], false, [], true⟩ =
      some (.integer (if negative then -count else count) fits) := by
  have small : count < UInt64.size := by
    have bounds := fits
    unfold FitsWord at bounds
    have least : Int64.minValue.toInt = -9223372036854775808 := by decide
    have size : UInt64.size = 18446744073709551616 := rfl
    cases negative <;> simp only [Bool.false_eq_true, if_false, if_true] at bounds <;> omega
  have absorbed : absorb UInt64.size 0 (Nat.toDigits 10 count) = (count, []) := by
    rw [absorb_eq _ (by rw [Nat.ofDigitChars_ten_toDigits]; exact small),
      Nat.ofDigitChars_ten_toDigits]
  have proper : ¬(negative = true ∧ count = 0) := fun both => signed both.1 both.2
  unfold value?
  rw [absorbed]
  simp only [fits, proper, not_false_eq_true, and_self, if_true, dif_pos]

end Numeral

end Flowpress.Json
