import Flowpress.Proofs.Json.Legible
import Flowpress.Proofs.Json.Parts

/-!
# Values are read back

The reader takes the text of a value, wherever it stands, as the value with every
number changed to what its own text is read as, if there are as many levels as the
value nests; it refuses the text as too deep otherwise. A text with a number whose
own text is refused is refused. One statement for each kind of value says what the
reader does if it is so of the parts; the rest is induction.
-/

namespace Flowpress.Json

namespace Value

open Cursor

variable {layout : Layout} {depth bound levels : Nat} {part : Reader Value}

/-! ## First characters -/

/-- What the first character of the text of a value shows of the value. -/
inductive Kind where
  | null
  | bool (value : Bool)
  | number
  | string
  | array
  | object

/-- The kind of the values whose text begins with a character. -/
def Kind.ofChar? (char : Char) : Option Kind :=
  if char = 'n' then some .null
  else if char = 't' then some (.bool true)
  else if char = 'f' then some (.bool false)
  else if char = '"' then some .string
  else if char = '[' then some .array
  else if char = '\x7b' then some .object
  else if char = '-' ∨ char.isDigit then some .number
  else none

def kind : Value → Kind
  | .null => .null
  | .bool value => .bool value
  | .number _ => .number
  | .string _ => .string
  | .array _ => .array
  | .object _ => .object

/-- The first character of the text of a value shows its kind. -/
theorem exists_writeAt_eq (layout : Layout) (depth : Nat) (value : Value) :
    ∃ char rest, value.writeAt layout depth = char :: rest ∧
      Kind.ofChar? char = some value.kind := by
  cases value with
  | null => exact ⟨'n', _, rfl, rfl⟩
  | bool value => cases value <;> exact ⟨_, _, rfl, rfl⟩
  | number value =>
      obtain ⟨numeral, proper, text⟩ := value.exists_write_eq_spelling
      obtain ⟨char, rest, spelling, begins⟩ := proper.exists_spelling_eq
      refine ⟨char, rest, text.trans spelling, ?_⟩
      rcases begins with rfl | decimal
      · rfl
      · have other (letter : Char) (noDigit : letter.isDigit = false) : char ≠ letter :=
          ne_of_isDigit decimal noDigit
        simp [Kind.ofChar?, kind, other, decimal]
  | string text => exact ⟨'"', _, rfl, rfl⟩
  | array elements =>
      rw [writeAt, Layout.enclose_eq]
      exact ⟨_, _, rfl, rfl⟩
  | object members =>
      rw [writeAt, Layout.enclose_eq]
      exact ⟨_, _, rfl, rfl⟩

/-- No written value is mistaken for white space or for the end of an array. -/
theorem startsElement_writeAt (layout : Layout) (depth : Nat) (value : Value) :
    StartsElement (value.writeAt layout depth) := by
  obtain ⟨char, rest, text, kind⟩ := exists_writeAt_eq layout depth value
  refine ⟨char, rest, text, ?_, ?_⟩
  · rw [← Bool.not_eq_true]
    intro blank
    simp only [isBlank, Bool.or_eq_true, decide_eq_true_eq] at blank
    rcases blank with ((rfl | rfl) | rfl) | rfl <;> cases kind
  · rintro rfl
    cases kind

/-! ## Scalars -/

/-- A fixed word is taken as its value. -/
theorem takes_word {next : Reader Value} {char : Char} {letters : List Char} {value : Value}
    {readable fits : Prop} (able : readable) (holds : fits) (solid : isBlank char = false)
    (word : ∀ rest position, next ⟨char :: rest, position⟩ =
      expect ⟨char :: rest, position⟩ (char :: letters) >>= fun cursor => .ok (value, cursor)) :
    Takes (fun cursor => cursor.valueStart >>= next) (char :: letters) readable fits value := by
  refine Takes.of_valueStart solid fun rest position _ => ?_
  obtain ⟨place, taken⟩ := expect_append (char :: letters) rest position
  rw [List.cons_append] at taken
  rw [word, taken]
  exact .ok able holds ..

theorem takes_null :
    Takes (readWith bound levels part) "null".toList null.Readable (null.nesting ≤ levels)
      .null := by
  have word : "null".toList = ['n', 'u', 'l', 'l'] := rfl
  rw [word]
  exact takes_word (List.forall_mem_nil _) (Nat.zero_le levels) rfl fun _ _ => rfl

theorem takes_bool (value : Bool) :
    Takes (readWith bound levels part) ((bool value).writeAt layout depth) (bool value).Readable
      ((bool value).nesting ≤ levels) (.bool value) := by
  cases value with
  | true =>
      have word : (bool true).writeAt layout depth = ['t', 'r', 'u', 'e'] := rfl
      rw [word]
      exact takes_word (List.forall_mem_nil _) (Nat.zero_le levels) rfl fun _ _ => rfl
  | false =>
      have word : (bool false).writeAt layout depth = ['f', 'a', 'l', 's', 'e'] := rfl
      rw [word]
      exact takes_word (List.forall_mem_nil _) (Nat.zero_le levels) rfl fun _ _ => rfl

theorem takes_string (text : String) :
    Takes (readWith bound levels part) (writeString text) (string text).Readable
      ((string text).nesting ≤ levels) (.string text) := by
  refine Takes.of_valueStart rfl fun rest position _ => ?_
  obtain ⟨place, read⟩ := string_append text rest (position.after '"')
  simp only [List.append_assoc, List.singleton_append, advance, read, Outcome.ok_bind]
  exact .ok (List.forall_mem_nil _) (Nat.zero_le levels) ..

/-! ## Containers -/

/-- An array is taken if its elements are. -/
theorem takes_array {elements : List Value}
    (starts : ∀ element ∈ elements, StartsElement (element.writeAt layout (depth + 1)))
    (takes : ∀ left, levels = left + 1 → ∀ element ∈ elements,
      Takes part (element.writeAt layout (depth + 1)) element.Readable (element.nesting ≤ left)
        (element.mapNumbers Number.reread))
    (enough : ((array elements).writeAt layout depth).length ≤ bound) :
    Takes (readWith bound levels part) ((array elements).writeAt layout depth)
      (array elements).Readable ((array elements).nesting ≤ levels)
      ((array elements).mapNumbers Number.reread) := by
  rw [writeAt, writeElements_eq_map] at enough ⊢
  rw [mapNumbers, mapNumbersElements_eq_map]
  refine Takes.of_enter layout depth (by decide) (fun _ _ => rfl) fun left same rest position => ?_
  have read := yields_elements layout depth rest starts (takes left same) enough position
  exact (Yields.map read fun _ => by rfl).congr readable_array_iff nestingElements_le_iff

/-- The texts of members are those of their values, behind their names. -/
theorem writeMembers_eq_memberTexts (layout : Layout) (depth : Nat) (members : Members Value) :
    writeMembers layout depth members =
      memberTexts layout (members.mapValues (writeAt layout depth)) := by
  rw [writeMembers_eq_map, memberTexts, Members.mapValues, List.map_map]
  rfl

/-- An object is taken if the values of its members are taken. -/
theorem takes_object {entries : Members Value} (ordered : Members.Ordered entries)
    (takes : ∀ left, levels = left + 1 → ∀ entry ∈ entries,
      Takes part (entry.2.writeAt layout (depth + 1)) entry.2.Readable (entry.2.nesting ≤ left)
        (entry.2.mapNumbers Number.reread))
    (enough : ((object entries).writeAt layout depth).length ≤ bound) :
    Takes (readWith bound levels part) ((object entries).writeAt layout depth)
      (object entries).Readable ((object entries).nesting ≤ levels)
      ((object entries).mapNumbers Number.reread) := by
  rw [writeAt, writeMembers_eq_memberTexts] at enough ⊢
  rw [mapNumbers, mapNumbersMembers_eq_mapValues]
  refine Takes.of_enter layout depth (by decide) (fun _ _ => rfl) fun left same rest position => ?_
  have read := yields_members (writeAt layout (depth + 1)) Readable (nesting · ≤ left)
    (mapNumbers Number.reread) layout depth rest ordered (takes left same) enough position
  exact (Yields.map read fun _ => by rfl).congr readable_object_iff nestingMembers_le_iff

/-! ## All values -/

/-- A value is read in one way at every level, its parts with one level less. -/
theorem exists_reader_eq (bound levels : Nat) :
    ∃ part, reader bound levels = readWith bound levels part ∧
      ∀ left, levels = left + 1 → part = reader bound left := by
  cases levels with
  | zero => exact ⟨_, rfl, fun left never => absurd never (Nat.succ_ne_zero left).symm⟩
  | succ levels =>
      refine ⟨reader bound levels, rfl, ?_⟩
      rintro left ⟨⟩
      rfl

/-- The text of an element is no longer than the text of its array. -/
theorem length_writeAt_le_array {elements : List Value} {element : Value}
    (among : element ∈ elements) :
    (element.writeAt layout (depth + 1)).length ≤
      ((array elements).writeAt layout depth).length := by
  rw [writeAt, writeElements_eq_map]
  exact layout.length_le_enclose depth _ _ (List.mem_map_of_mem among)

/-- The text of the value of a member is no longer than the text of its object. -/
theorem length_writeAt_le_object {entries : Members Value} {entry : String × Value}
    (among : entry ∈ entries) :
    (entry.2.writeAt layout (depth + 1)).length ≤
      ((object entries).writeAt layout depth).length := by
  let text (entry : String × Value) := layout.member entry.1 (entry.2.writeAt layout (depth + 1))
  have inside : text entry ∈ entries.map text := List.mem_map_of_mem among
  rw [writeAt, writeMembers_eq_map]
  exact Nat.le_trans (layout.length_le_member entry.1 _) (layout.length_le_enclose depth _ _ inside)

/-- The text of a value is taken as the value with every number reread if there are as many levels
as it nests, and refused as too deep otherwise. -/
theorem takes_reader (layout : Layout) {value : Value} (canonical : value.Canonical) {bound : Nat}
    (levels depth : Nat) (enough : (value.writeAt layout depth).length ≤ bound) :
    Takes (reader bound levels) (value.writeAt layout depth) value.Readable
      (value.nesting ≤ levels) (value.mapNumbers Number.reread) := by
  induction value using induction generalizing levels depth with
  | null =>
      obtain ⟨part, same, -⟩ := exists_reader_eq bound levels
      exact same ▸ takes_null
  | bool value =>
      obtain ⟨part, same, -⟩ := exists_reader_eq bound levels
      exact same ▸ takes_bool value
  | number value =>
      obtain ⟨part, same, -⟩ := exists_reader_eq bound levels
      exact same ▸ takes_number value
  | string text =>
      obtain ⟨part, same, -⟩ := exists_reader_eq bound levels
      exact same ▸ takes_string text
  | array elements inductionHypothesis =>
      obtain ⟨part, same, parts⟩ := exists_reader_eq bound levels
      rw [Canonical, canonicalElements_iff] at canonical
      have starts : ∀ element ∈ elements, StartsElement (element.writeAt layout (depth + 1)) :=
        fun element _ => element.startsElement_writeAt layout (depth + 1)
      rw [same]
      refine takes_array starts ?_ enough
      intro left more element among
      rw [parts left more]
      exact inductionHypothesis element among (canonical element among) left (depth + 1)
        ((length_writeAt_le_array among).trans enough)
  | object members inductionHypothesis =>
      obtain ⟨part, same, parts⟩ := exists_reader_eq bound levels
      rw [Canonical, canonicalMembers_iff] at canonical
      obtain ⟨ordered, canonical⟩ := canonical
      rw [same]
      refine takes_object ordered ?_ enough
      intro left more entry among
      rw [parts left more]
      exact inductionHypothesis entry among (canonical entry among) left (depth + 1)
        ((length_writeAt_le_object among).trans enough)

end Value

end Flowpress.Json
