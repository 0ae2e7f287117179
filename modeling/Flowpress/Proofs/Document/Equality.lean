import Flowpress.Proofs.Binary64.Comparison
import Flowpress.Proofs.Document.Parts

/-!
# Equality of documents

Equality of the data model is no equality of bits: it compares doubles as numbers.
Values hold finite doubles alone, so of the numbers only the two zeros are the same
without being equal. Documents are the same exactly if they are equal without the
signs of their zeros, and every document equals itself.
-/

namespace Flowpress

namespace Json

/-! ## Numbers -/

/-- The number, but zero for the double that is a negative zero. -/
def Number.unsignedZero : Number → Number
  | .integer value fits => .integer value fits
  | .binary value finite =>
    if value.magnitude = 0 then .binary .zero (by decide) else .binary value finite

theorem Number.same_iff {first second : Number} :
    first.same second = true ↔ first.unsignedZero = second.unsignedZero := by
  cases first with
  | integer value fits =>
      cases second with
      | integer other otherFits => simp [same, unsignedZero]
      | binary other finite =>
          simp only [same, unsignedZero]
          split_ifs <;> simp
  | binary value finite =>
      cases second with
      | integer other fits =>
          simp only [same, unsignedZero]
          split_ifs <;> simp
      | binary other otherFinite =>
          have least : Binary64.zero.magnitude = 0 := rfl
          have apart {x y : Binary64} (none : x.magnitude = 0) (some : y.magnitude ≠ 0) : x ≠ y :=
            fun same => some (same ▸ none)
          simp only [same, Binary64.same_iff finite otherFinite, unsignedZero]
          split_ifs with zero otherZero otherZero
          · simp [zero, otherZero]
          · simp [otherZero, apart zero otherZero, apart least otherZero]
          · simp [zero, (apart otherZero zero).symm, (apart least zero).symm]
          · simp [zero]

/-- Only zeros are the same as other numbers. -/
theorem Number.eq_or_zero_of_same {first second : Number} (same : first.same second = true) :
    first = second ∨
      ∃ value finite, second = .binary value finite ∧ value.magnitude = 0 := by
  cases first with
  | integer value fits =>
      cases second with
      | integer other otherFits =>
          obtain rfl : value = other := beq_iff_eq.mp same
          exact .inl rfl
      | binary other finite => cases same
  | binary value finite =>
      cases second with
      | integer other fits => cases same
      | binary other otherFinite =>
          rcases (Binary64.same_iff finite otherFinite).mp same with rfl | ⟨-, zero⟩
          · exact .inl rfl
          · exact .inr ⟨other, otherFinite, rfl, zero⟩

/-! ## Values -/

namespace Value

mutual

/-- Values are the same exactly if they are equal without the signs of their zeros. -/
theorem same_iff (first second : Value) :
    first.same second = true ↔
      first.mapNumbers Number.unsignedZero = second.mapNumbers Number.unsignedZero := by
  cases first with
  | null => cases second <;> simp [same, mapNumbers]
  | bool value => cases second <;> simp [same, mapNumbers]
  | number value => cases second <;> simp [same, mapNumbers, Number.same_iff]
  | string text => cases second <;> simp [same, mapNumbers]
  | array elements => cases second <;> simp [same, mapNumbers, sameElements_iff elements]
  | object members => cases second <;> simp [same, mapNumbers, sameMembers_iff members]

theorem sameElements_iff (first second : List Value) :
    sameElements first second = true ↔
      mapNumbersElements Number.unsignedZero first =
        mapNumbersElements Number.unsignedZero second := by
  cases first with
  | nil => cases second <;> simp [sameElements, mapNumbersElements]
  | cons element elements =>
      cases second with
      | nil => simp [sameElements, mapNumbersElements]
      | cons other others =>
          rw [sameElements, Bool.and_eq_true, same_iff element other,
            sameElements_iff elements others, mapNumbersElements, mapNumbersElements,
            List.cons.injEq]

theorem sameMembers_iff (first second : List (String × Value)) :
    sameMembers first second = true ↔
      mapNumbersMembers Number.unsignedZero first =
        mapNumbersMembers Number.unsignedZero second := by
  cases first with
  | nil => cases second <;> simp [sameMembers, mapNumbersMembers]
  | cons member members =>
      cases second with
      | nil => simp [sameMembers, mapNumbersMembers]
      | cons other others =>
          rw [sameMembers, Bool.and_eq_true, Bool.and_eq_true, beq_iff_eq,
            same_iff member.2 other.2, sameMembers_iff members others, mapNumbersMembers,
            mapNumbersMembers, List.cons.injEq, Prod.mk.injEq]

end

end Value

end Json

/-! ## Documents -/

namespace Document

open Json (Number Value)

/-- The document without the signs of the zeros in its properties. -/
def unsignedZeros (document : Document) : Document := document.mapNumbers Number.unsignedZero

mutual

/-- Documents are the same exactly if they are equal without the signs of their zeros. -/
theorem same_iff (first second : Document) :
    first.same second = true ↔ first.unsignedZeros = second.unsignedZeros := by
  cases first with
  | node properties collections =>
      cases second with
      | node otherProperties otherCollections =>
          rw [same, Bool.and_eq_true, Value.sameMembers_iff, sameCollections_iff collections,
            unsignedZeros, unsignedZeros, mapNumbers, mapNumbers, node.injEq]

theorem sameCollections_iff (first second : List (String × List Document)) :
    sameCollections first second = true ↔
      mapNumbersCollections Number.unsignedZero first =
        mapNumbersCollections Number.unsignedZero second := by
  cases first with
  | nil => cases second <;> simp [sameCollections, mapNumbersCollections]
  | cons collection collections =>
      cases second with
      | nil => simp [sameCollections, mapNumbersCollections]
      | cons other others =>
          rw [sameCollections, Bool.and_eq_true, Bool.and_eq_true, beq_iff_eq,
            sameAll_iff collection.2 other.2, sameCollections_iff collections others,
            mapNumbersCollections, mapNumbersCollections, List.cons.injEq, Prod.mk.injEq]

theorem sameAll_iff (first second : List Document) :
    sameAll first second = true ↔
      mapNumbersAll Number.unsignedZero first = mapNumbersAll Number.unsignedZero second := by
  cases first with
  | nil => cases second <;> simp [sameAll, mapNumbersAll]
  | cons document documents =>
      cases second with
      | nil => simp [sameAll, mapNumbersAll]
      | cons other others =>
          rw [sameAll, Bool.and_eq_true, same_iff document other, sameAll_iff documents others,
            mapNumbersAll, mapNumbersAll, unsignedZeros, unsignedZeros, List.cons.injEq]

end

/-- Every document equals itself. -/
theorem same_self (document : Document) : document.same document = true :=
  (same_iff document document).mpr rfl

/-- A document with changed numbers is the same exactly if each number is. -/
theorem same_mapNumbers_iff {change : Number → Number} {document : Document} :
    (document.mapNumbers change).same document = true ↔
      ∀ number ∈ document.numbers, (change number).same number = true := by
  simp only [same_iff, unsignedZeros, mapNumbers_mapNumbers, mapNumbers_eq_iff, Number.same_iff]

end Document

end Flowpress
