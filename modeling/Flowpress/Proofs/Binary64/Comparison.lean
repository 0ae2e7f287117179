import Mathlib
import Flowpress.Proofs.Elements

/-!
# Doubles as numbers

A double that is no NaN keeps its bits where it is compared as a number. So finite
doubles are the same number if they have the same bits, and else only if both are
zeros.
-/

namespace Flowpress.Binary64

open Float.Model.UnpackedFloat (isNaNBits pack_unpack unpackExponent)

variable {x y : Binary64}

/-- Doubles with the same sign and the same magnitude have the same bits. -/
theorem eq_of_sign_magnitude (sign : x.isNegative = y.isNegative)
    (magnitude : x.magnitude = y.magnitude) : x = y := by
  apply totalKey_injective
  rw [totalKey, totalKey, sign, magnitude]

/-- The exponent field of a finite double is not the greatest one. -/
theorem isNaNBits_of_finite (finite : x.isFinite) :
    @isNaNBits .binary64 x.bits.toBitVec = false := by
  have bound : x.magnitude < 0x7ff0000000000000 := of_decide_eq_true finite
  have exponent : (@unpackExponent .binary64 x.bits.toBitVec).toNat =
      x.bits.toNat / 2 ^ 52 % 2 ^ 11 := by
    simp [unpackExponent, Nat.shiftRight_eq_div_pow]
  have other : @unpackExponent .binary64 x.bits.toBitVec ≠ -1#11 := by
    intro same
    have greatest : (-1#11).toNat = 2047 := rfl
    rw [same, greatest] at exponent
    unfold magnitude at bound
    omega
  exact decide_eq_false fun both => other both.1

/-- A finite double is the number that its bits say. -/
theorem toBits_toFloat (finite : x.isFinite) : x.toFloat.toBits = x.bits := by
  apply UInt64.toBitVec_inj.mp
  refine (@pack_unpack .binary64 x.bits.toBitVec (by decide)).trans ?_
  rw [isNaNBits_of_finite finite]
  rfl

theorem toFloat_eq_iff (finite : x.isFinite) {number : Float} :
    x.toFloat = number ↔ x.bits = number.toBits := by
  rw [← Float.toBits_inj, toBits_toFloat finite]

/-- A zero has no bits but its sign. -/
theorem magnitude_eq_zero_iff :
    x.magnitude = 0 ↔ x.bits = (0 : Float).toBits ∨ x.bits = (-0 : Float).toBits := by
  have positive : (0 : Float).toBits.toNat = 0 := rfl
  have negative : (-0 : Float).toBits.toNat = 0x8000000000000000 := rfl
  have bound := x.bits.toNat_lt
  rw [← UInt64.toNat_inj, ← UInt64.toNat_inj, positive, negative, magnitude]
  omega

/-- Finite doubles are the same number exactly if they have the same bits or both are zeros. -/
theorem same_iff (first : x.isFinite) (second : y.isFinite) :
    x.same y = true ↔ x = y ∨ x.magnitude = 0 ∧ y.magnitude = 0 := by
  have number {z : Binary64} (finite : z.isFinite) : z.toFloat ≠ .nan := by
    intro same
    obtain rfl : z = ⟨Float.nan.toBits⟩ := congrArg Binary64.mk ((toFloat_eq_iff finite).mp same)
    exact absurd finite (by decide)
  have bits : x = y ↔ x.bits = y.bits := ⟨congrArg Binary64.bits, congrArg Binary64.mk⟩
  rw [same, Float.beq_iff_ne_nan_and_eq, and_iff_right (number first),
    and_iff_right (number second), toFloat_eq_iff first, toFloat_eq_iff first, toFloat_eq_iff first,
    toFloat_eq_iff second, toFloat_eq_iff second, toBits_toFloat second, bits,
    magnitude_eq_zero_iff, magnitude_eq_zero_iff]
  constructor
  · rintro (equal | ⟨left, right⟩ | ⟨left, right⟩)
    · exact .inl equal
    · exact .inr ⟨.inl left, .inr right⟩
    · exact .inr ⟨.inr left, .inl right⟩
  · rintro (equal | ⟨left | left, right | right⟩)
    · exact .inl equal
    · exact .inl (left.trans right.symm)
    · exact .inr (.inl ⟨left, right⟩)
    · exact .inr (.inr ⟨left, right⟩)
    · exact .inl (left.trans right.symm)

end Flowpress.Binary64
