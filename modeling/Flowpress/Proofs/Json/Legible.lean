import Flowpress.Proofs.Json.Parts
import Flowpress.Proofs.Json.Spelling

/-!
# Numbers that are read back

What the text of a number is read as where it stands alone is what it is read as
wherever it stands. A number is legible if this is the number itself. Every integer
is legible; of the doubles some are not, because the reader finds the value of a
numeral by rounding more than once.
-/

namespace Flowpress.Json

namespace Value

open Cursor

variable {bound levels : Nat} {part : Reader Value}

/-- Behind white space, the text of a numeral is read as a number. -/
theorem readWith_spelling {numeral : Numeral} (proper : numeral.Proper) {blanks : List Char}
    (blank : Blank blanks) (rest : List Char) (position : Position) :
    ∃ place, readWith bound levels part ⟨blanks ++ (numeral.spelling ++ rest), position⟩ =
      Cursor.numeral numeral.negative ⟨numeral.body ++ rest, place⟩ >>= fun (value, cursor) =>
        .ok (.number value, cursor) := by
  unfold Numeral.spelling
  split_ifs with negative
  · obtain ⟨place, started⟩ := valueStart_append blank (by rfl : isBlank '-' = false)
      (numeral.body ++ rest) position
    refine ⟨place.after '-', ?_⟩
    rw [List.cons_append, readWith, started, Outcome.ok_bind, negative]
    rfl
  · obtain ⟨digit, others, body, decimal⟩ := proper.exists_body_eq
    obtain ⟨place, started⟩ := valueStart_append blank (isBlank_of_isDigit decimal)
      (others ++ rest) position
    refine ⟨place, ?_⟩
    have unsigned : numeral.negative = false := Bool.eq_false_iff.mpr negative
    -- None of the characters that begin other values is a digit.
    have noNull : digit ≠ 'n' := ne_of_isDigit decimal rfl
    have noTrue : digit ≠ 't' := ne_of_isDigit decimal rfl
    have noFalse : digit ≠ 'f' := ne_of_isDigit decimal rfl
    have noString : digit ≠ '"' := ne_of_isDigit decimal rfl
    have noArray : digit ≠ '[' := ne_of_isDigit decimal rfl
    have noObject : digit ≠ '\x7b' := ne_of_isDigit decimal rfl
    have noSign : digit ≠ '-' := ne_of_isDigit decimal rfl
    simp only [body, List.cons_append, readWith, started, Outcome.ok_bind, decimal, if_true,
      unsigned]

/-- The text of a numeral is taken as its value if it has one. -/
theorem takes_spelling {numeral : Numeral} (proper : numeral.Proper) (other : Number) :
    Takes (readWith bound levels part) numeral.spelling numeral.value?.isSome
      ((number other).nesting ≤ levels) (.number (numeral.value?.getD other)) := by
  intro blanks rest position blank ends
  obtain ⟨start, read⟩ := readWith_spelling proper blank rest position
  cases found : numeral.value? with
  | some value =>
      obtain ⟨place, taken⟩ := numeral_body proper found ends start
      rw [read, taken]
      exact .ok rfl (Nat.zero_le levels) ..
  | none =>
      obtain ⟨refusal, refused⟩ := numeral_body_refused proper found ends start
      rw [read, refused]
      exact ⟨nofun, nofun, fun _ => ⟨refusal, rfl⟩⟩

end Value

/-! ## Numbers and their texts -/

namespace Number

open Value

/-- What the text of the number is read as. -/
def reread? (number : Number) : Option Number :=
  match Value.read (String.ofList number.write) with
  | .ok (.number value) => some value
  | _ => none

/-- The text of the number is read as a number. -/
def Readable (number : Number) : Prop := number.reread?.isSome

/-- What the text of the number is read as, and the number itself if its text is refused. -/
def reread (number : Number) : Number := number.reread?.getD number

/-- The text of the number is read as the number. -/
def Legible (number : Number) : Prop :=
  Value.read (String.ofList number.write) = .ok (.number number)

theorem Readable.reread?_eq {number : Number} (readable : number.Readable) :
    number.reread? = some number.reread := by
  obtain ⟨value, found⟩ := Option.isSome_iff_exists.mp readable
  rw [reread, found, Option.getD_some]

theorem legible_iff {number : Number} : number.Legible ↔ number.reread? = some number := by
  unfold Legible reread?
  cases Value.read (String.ofList number.write) with
  | error refusal => simp
  | ok value => cases value <;> simp

instance (number : Number) : Decidable number.Legible := decidable_of_iff _ legible_iff.symm

theorem Legible.readable {number : Number} (legible : number.Legible) : number.Readable :=
  Option.isSome_of_eq_some (legible_iff.mp legible)

theorem Legible.reread_eq {number : Number} (legible : number.Legible) :
    number.reread = number := by
  rw [reread, legible_iff.mp legible, Option.getD_some]

/-- What a number is read as is the value of its numeral. -/
theorem reread?_eq {number : Number} {numeral : Numeral} (proper : numeral.Proper)
    (text : number.write = numeral.spelling) : number.reread? = numeral.value? := by
  have takes : Cursor.Takes (reader numeral.spelling.length nestingLimit) numeral.spelling
      numeral.value?.isSome ((Value.number number).nesting ≤ nestingLimit)
      (.number (numeral.value?.getD number)) := takes_spelling proper number
  unfold reread?
  rw [text]
  cases found : numeral.value? with
  | some value =>
      rw [found] at takes
      have read : Value.read (String.ofList numeral.spelling) = .ok (.number value) :=
        takes.readWhole rfl (Nat.zero_le nestingLimit)
      rw [read]
  | none =>
      rw [found] at takes
      have refused : ∃ refusal, Value.read (String.ofList numeral.spelling) = .error refusal :=
        takes.readWhole_refused Bool.false_ne_true
      obtain ⟨refusal, refused⟩ := refused
      rw [refused]

/-- Every integer is legible. -/
theorem IsInteger.legible {number : Number} (integer : number.IsInteger) : number.Legible := by
  cases number with
  | binary => exact integer.elim
  | integer value fits =>
      obtain ⟨negative, count, rfl, signed, text⟩ := exists_write_integer_eq value fits
      rw [legible_iff, reread?_eq (Numeral.proper_ofNat negative count) text]
      exact Numeral.value?_toDigits fits signed

end Number

namespace Value

/-- The text of every number in the value is read as a number. -/
def Readable (value : Value) : Prop := ∀ number ∈ value.numbers, number.Readable

theorem readable_number_iff {value : Number} : (number value).Readable ↔ value.Readable :=
  List.forall_mem_singleton

theorem readable_array_iff {elements : List Value} :
    (array elements).Readable ↔ ∀ element ∈ elements, element.Readable :=
  forall_numbers_array_iff

theorem readable_object_iff {members : Members Value} :
    (object members).Readable ↔ ∀ member ∈ members, member.2.Readable :=
  forall_numbers_object_iff

/-- Wherever a number stands, it is taken as what its text is read as alone. -/
theorem takes_number {bound levels : Nat} {part : Reader Value} (value : Number) :
    Cursor.Takes (readWith bound levels part) value.write (number value).Readable
      ((number value).nesting ≤ levels) (.number value.reread) := by
  obtain ⟨numeral, proper, text⟩ := value.exists_write_eq_spelling
  have takes : Cursor.Takes (readWith bound levels part) numeral.spelling numeral.value?.isSome
      ((number value).nesting ≤ levels) (.number (numeral.value?.getD value)) :=
    takes_spelling proper value
  rw [← Number.reread?_eq proper text, ← text] at takes
  rwa [readable_number_iff]

end Value

end Flowpress.Json
