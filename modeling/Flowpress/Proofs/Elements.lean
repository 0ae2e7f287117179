import Flowpress.Element

/-!
# What makes elements equal

Two questions are asked about elements: which comes first in the natural order,
and whether one has been there before. The first is answered by comparing, the
second by a key, the bits of a double or the integer itself. The answers agree:
elements tie in the natural order exactly if they have the same key, and this is
when they are equal.

For doubles this rests on the key of the total order. It is what comes of
inverting all bits but the sign of every double whose sign is set, read as a
signed word.
-/

namespace Flowpress

namespace Binary64

theorem totalKey_eq (x : Binary64) :
    x.totalKey =
      if 0x8000000000000000 ≤ x.bits.toNat then
        -((x.bits.toNat % 0x8000000000000000 : Nat) : Int) - 1
      else (x.bits.toNat % 0x8000000000000000 : Nat) := by
  simp [totalKey, isNegative, magnitude, UInt64.le_iff_toNat_le]

/-- Doubles with the same key have the same bits. -/
theorem totalKey_injective {x y : Binary64} (same : x.totalKey = y.totalKey) : x = y := by
  have boundX := x.bits.toNat_lt
  have boundY := y.bits.toNat_lt
  have bits : x.bits.toNat = y.bits.toNat := by
    rw [totalKey_eq, totalKey_eq] at same
    split at same <;> split at same <;> omega
  exact congrArg Binary64.mk (UInt64.toNat_inj.mp bits)

/-! ## The key as a word -/

/-- The bits as a signed word, all but the sign inverted if the sign is set. -/
def folded (x : Binary64) : Int64 :=
  x.bits.toInt64 ^^^ ((x.bits.toInt64 >>> 63).toUInt64 >>> 1).toInt64

theorem toBitVec_folded (x : Binary64) :
    x.folded.toBitVec = x.bits.toBitVec ^^^ (x.bits.toBitVec.sshiftRight 63 >>> 1) := by
  simp [folded]

/-- The sign is spread over all bits but its own. -/
theorem toNat_spread (word : BitVec 64) :
    (word.sshiftRight 63 >>> 1).toNat =
      if 0x8000000000000000 ≤ word.toNat then 0x7fffffffffffffff else 0 := by
  have bound := word.isLt
  have sign : word.msb = decide (0x8000000000000000 ≤ word.toNat) := word.msb_eq_decide
  rw [BitVec.toNat_ushiftRight, BitVec.toNat_sshiftRight, sign]
  simp only [Nat.shiftRight_eq_div_pow, decide_eq_true_eq]
  split <;> omega

/-- Inverting all bits but the sign makes a word with a sign count downwards. -/
theorem xor_spread {word : Nat} (negative : 0x8000000000000000 ≤ word)
    (bound : word ≤ 0xffffffffffffffff) :
    word ^^^ 0x7fffffffffffffff = 0xffffffffffffffff - word % 0x8000000000000000 := by
  have low : word % 2 ^ 63 ^^^ (2 ^ 63 - 1) = 2 ^ 63 - 1 - word % 2 ^ 63 := by
    have inverted := BitVec.toNat_not (x := BitVec.ofNat 63 word)
    rwa [← BitVec.xor_allOnes, BitVec.toNat_xor, BitVec.toNat_allOnes, BitVec.toNat_ofNat]
      at inverted
  have parts : _ = word ^^^ 0x7fffffffffffffff := Nat.div_add_mod (word ^^^ (2 ^ 63 - 1)) (2 ^ 63)
  have below : 2 ^ 63 - 1 < 2 ^ 63 := by decide
  rw [Nat.xor_div_two_pow, Nat.xor_mod_two_pow, Nat.div_eq_of_lt below, Nat.mod_eq_of_lt below,
    Nat.xor_zero, low] at parts
  omega

/-- The key of the total order is the folded word. -/
theorem toInt_folded (x : Binary64) : x.folded.toInt = x.totalKey := by
  have bound := x.bits.toNat_lt
  have word : x.bits.toBitVec.toNat = x.bits.toNat := rfl
  rw [← Int64.toInt_toBitVec, toBitVec_folded, BitVec.toInt_eq_toNat_cond, BitVec.toNat_xor,
    toNat_spread, word, totalKey_eq]
  by_cases negative : 0x8000000000000000 ≤ x.bits.toNat
  · rw [if_pos negative, if_pos negative, xor_spread negative (Nat.le_of_lt_succ bound)]
    omega
  · rw [if_neg negative, if_neg negative, Nat.xor_zero]
    omega

/-- Doubles are in the total order as their folded words are among the signed words. -/
theorem totalOrder_eq_folded (x y : Binary64) :
    x.totalOrder y = compare x.folded.toInt y.folded.toInt := by
  rw [toInt_folded, toInt_folded, totalOrder]

end Binary64

/-! ## Keys -/

namespace ElementType

/-- What an element is remembered by: the integer itself, or the bits of a double. -/
abbrev Key : ElementType → Type
  | .int => Int32
  | .long => Int64
  | .double => UInt64

instance (type : ElementType) : DecidableEq type.Key :=
  match type with
  | .int => inferInstanceAs (DecidableEq Int32)
  | .long => inferInstanceAs (DecidableEq Int64)
  | .double => inferInstanceAs (DecidableEq UInt64)

/-- The key under which an element is looked up where copies are removed. -/
def distinctKey : (type : ElementType) → type.Carrier → type.Key
  | .int, value => value
  | .long, value => value
  | .double, value => value.bits

/-- Elements have the same key if they are equal, and only then. -/
theorem distinctKey_inj {type : ElementType} {one other : type.Carrier} :
    type.distinctKey one = type.distinctKey other ↔ one = other := by
  cases type with
  | int => exact Iff.rfl
  | long => exact Iff.rfl
  | double => exact ⟨fun same => congrArg Binary64.mk same, congrArg Binary64.bits⟩

end ElementType

/-- Comparing elements by an integer that tells them apart finds no other ties than equality. -/
theorem lawfulEqCmp_compare_key {α : Type} {key : α → Int}
    (injective : ∀ {one other}, key one = key other → one = other) :
    Std.LawfulEqCmp fun one other => compare (key one) (key other) where
  compare_self := Std.ReflCmp.compare_self
  eq_of_compare tie := injective (Std.LawfulEqCmp.eq_of_compare tie)

/-- Elements tie in their natural order only if they are equal. -/
instance lawfulEqCmp_order (type : ElementType) :
    Std.LawfulEqCmp (Element.order : type.Carrier → type.Carrier → Ordering) :=
  match type with
  | .int => lawfulEqCmp_compare_key Int32.toInt_inj.mp
  | .long => lawfulEqCmp_compare_key Int64.toInt_inj.mp
  | .double => lawfulEqCmp_compare_key Binary64.totalKey_injective

/-- Elements tie in their natural order exactly if they have the same key. -/
theorem order_eq_iff_distinctKey {type : ElementType} {one other : type.Carrier} :
    Element.order one other = .eq ↔ type.distinctKey one = type.distinctKey other :=
  Std.LawfulEqCmp.compare_eq_iff_eq.trans ElementType.distinctKey_inj.symm

/-- Looking up keys removes the copies that comparing the elements removes. -/
theorem eraseDupsBy_distinctKey {type : ElementType} (values : List type.Carrier) :
    (values.eraseDupsBy fun one other => type.distinctKey one == type.distinctKey other) =
      values.eraseDups := by
  have same : (fun one other => type.distinctKey one == type.distinctKey other) =
      fun one other : type.Carrier => one == other := by
    funext one other
    rw [Bool.eq_iff_iff, beq_iff_eq, beq_iff_eq, ElementType.distinctKey_inj]
  rw [same, List.eraseDups]

end Flowpress
