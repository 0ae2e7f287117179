import Flowpress.Proofs.Document.Equality
import Flowpress.Proofs.Json.Unambiguous

/-!
# Texts tell documents apart

Different documents have different texts in each layout, whatever values they hold.
Equality of the data model is coarser than that in one place: a document with a
negative zero is the same as the document with a zero without a sign, and their
texts differ in the sign. Without the signs of zeros, documents are the same exactly
if their texts are.
-/

namespace Flowpress.Document

open Json (Layout Number Value)

/-- Different documents have different texts. -/
theorem write_injective (layout : Layout) : Function.Injective (write layout) := by
  intro document other same
  rw [← write_asValue, ← write_asValue] at same
  exact asValue_inj (Value.write_injective layout same)

/-- Documents have one text exactly if they are equal, so documents with one text are the same. They
are the same exactly if they have one text without the signs of their zeros. -/
theorem same_as_texts (layout : Layout) (first second : Document) :
    (first.write layout = second.write layout ↔ first = second) ∧
      (first.write layout = second.write layout → first.same second = true) ∧
      (first.same second = true ↔
        first.unsignedZeros.write layout = second.unsignedZeros.write layout) := by
  have texts := (write_injective layout).eq_iff (a := first) (b := second)
  refine ⟨texts, fun equal => ?_, ?_⟩
  · rw [texts.mp equal]
    exact second.same_self
  · rw [same_iff, (write_injective layout).eq_iff]

/-- A document whose only property is a zero. -/
def ofZero (zero : Binary64) (finite : zero.isFinite = true) : Document :=
  empty.withProperty "x" (.number (.binary zero finite))

/-- The two zeros are the same number and have different texts. -/
theorem zeros_same_texts_differ :
    ¬∀ layout (first second : Document),
      first.same second = true ↔ first.write layout = second.write layout := by
  intro agree
  let negative := ofZero ⟨0x8000000000000000⟩ (by decide)
  let positive := ofZero .zero (by decide)
  have same : negative.same positive = true := (same_iff negative positive).mpr rfl
  have differ : negative.write .compact ≠ positive.write .compact := by decide +kernel
  exact differ ((agree .compact negative positive).mp same)

end Flowpress.Document
