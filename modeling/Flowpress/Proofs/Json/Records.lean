import Flowpress.Json.Record
import Flowpress.Proofs.Json.Reading

/-!
# Lists, maps and records on written texts

A list, an object with any names and a record are taken if there is a level for
the container itself and the parts are taken with the levels behind it. How deep
the parts nest is given by a number; that it is the right one is what is asked of
the parts for every number of levels.
-/

namespace Flowpress.Json.Cursor

variable {α β σ : Type} {bound levels nesting : Nat}

/-- A written list is taken if its elements are. -/
theorem takes_list (layout : Layout) (depth : Nat) {element : Nat → Reader α}
    {text : β → List Char} {readable : β → Prop} {fits : Nat → β → Prop} {change : β → α}
    {values : List β} (starts : ∀ value ∈ values, StartsElement (text value))
    (takes : ∀ left, levels = left + 1 → ∀ value ∈ values,
      Takes (element left) (text value) (readable value) (fits left value) (change value))
    (deepest : ∀ left, nesting ≤ left ↔ ∀ value ∈ values, fits left value)
    (enough : (layout.enclose depth '[' ']' (values.map text)).length ≤ bound) :
    Takes (list bound levels element) (layout.enclose depth '[' ']' (values.map text))
      (∀ value ∈ values, readable value) (nesting + 1 ≤ levels) (values.map change) := by
  refine Takes.of_enter layout depth (by decide) (fun _ _ => rfl) fun left same rest position => ?_
  exact (yields_elements layout depth rest starts (takes left same) enough position).congr Iff.rfl
    (deepest left)

/-- A written object is taken as a map if the values of its members are taken. -/
theorem takes_map (layout : Layout) (depth : Nat) {value : Nat → Reader α}
    (text : β → List Char) (readable : β → Prop) (fits : Nat → β → Prop) (change : β → α)
    {entries : Members β} (ordered : Members.Ordered entries)
    (takes : ∀ left, levels = left + 1 → ∀ entry ∈ entries,
      Takes (value left) (text entry.2) (readable entry.2) (fits left entry.2) (change entry.2))
    (deepest : ∀ left, nesting ≤ left ↔ ∀ entry ∈ entries, fits left entry.2)
    (enough : (layout.enclose depth '{' '}'
      (memberTexts layout (entries.mapValues text))).length ≤ bound) :
    Takes (map bound levels value)
      (layout.enclose depth '{' '}' (memberTexts layout (entries.mapValues text)))
      (∀ entry ∈ entries, readable entry.2) (nesting + 1 ≤ levels) (entries.mapValues change) := by
  refine Takes.of_enter layout depth (by decide) (fun _ _ => rfl) fun left same rest position => ?_
  exact (yields_members text readable (fits left) change layout depth rest ordered
    (takes left same) enough position).congr Iff.rfl (deepest left)

/-- A written object is taken as a record if its fields are taken. -/
theorem takes_record (layout : Layout) (depth : Nat) (expected : String)
    {known : List (RecordField σ)} {initial final : σ} {entries : List (String × List Char)}
    {readable : Prop}
    (take : ∀ left, levels = left + 1 →
      FieldsTake (fieldNamed bound left known) initial entries readable (nesting ≤ left) final)
    (enough : (layout.enclose depth '{' '}' (memberTexts layout entries)).length ≤ bound) :
    Takes (record bound levels expected known initial)
      (layout.enclose depth '{' '}' (memberTexts layout entries)) readable (nesting + 1 ≤ levels)
      final := by
  refine Takes.of_enter layout depth (by decide) (fun _ _ => rfl) fun left same rest position => ?_
  exact yields_fields layout depth rest (take left same) enough position

end Flowpress.Json.Cursor
