import Flowpress.Proofs.Binary64.Comparison
import Flowpress.Proofs.Json.RoundTrip

/-!
# Texts tell values apart

The text of a value is that of no other value, also where it stands in front of
something else, as long as a number cannot go on with it. This holds of every
value, even of one whose numbers are not read back: a double is told by its sign
and by the decimal that is written, which rounds to the double.
-/

namespace Flowpress.Json

open Cursor (EndsNumber)

/-- The text of a value is that of no other value, whatever follows the two. -/
def Tells {α : Type} (text : α → List Char) (value : α) : Prop :=
  ∀ other rest left, EndsNumber rest → EndsNumber left →
    text value ++ rest = text other ++ left → value = other ∧ rest = left

/-! ## Numbers -/

namespace Numeral

variable {numeral other : Numeral} {rest left : List Char}

/-- Behind their signs, numerals are told by their text. -/
theorem Proper.body_cancel (proper : numeral.Proper) (second : other.Proper)
    (ends : EndsNumber rest) (stops : EndsNumber left) (signs : numeral.negative = other.negative)
    (same : numeral.body ++ rest = other.body ++ left) : numeral = other ∧ rest = left := by
  obtain ⟨mark, place, parts⟩ := Cursor.numeralParts_body proper ends .start
  obtain ⟨otherMark, otherPlace, otherParts⟩ := Cursor.numeralParts_body second stops .start
  rw [same, signs, otherParts] at parts
  cases parts
  exact ⟨rfl, rfl⟩

/-- Numerals are told by their text. -/
theorem Proper.spelling_cancel (proper : numeral.Proper) (second : other.Proper)
    (ends : EndsNumber rest) (stops : EndsNumber left)
    (same : numeral.spelling ++ rest = other.spelling ++ left) : numeral = other ∧ rest = left := by
  obtain ⟨digit, digits, body, decimal⟩ := proper.exists_body_eq
  obtain ⟨otherDigit, otherDigits, otherBody, otherDecimal⟩ := second.exists_body_eq
  have noSign : digit ≠ '-' := ne_of_isDigit decimal rfl
  have otherNoSign : otherDigit ≠ '-' := ne_of_isDigit otherDecimal rfl
  unfold spelling at same
  split_ifs at same with negative otherNegative otherNegative
  · exact proper.body_cancel second ends stops (negative.trans otherNegative.symm)
      (List.cons.inj same).2
  · rw [otherBody] at same
    exact absurd (List.cons.inj same).1.symm otherNoSign
  · rw [body] at same
    exact absurd (List.cons.inj same).1 noSign
  · rw [Bool.not_eq_true] at negative otherNegative
    exact proper.body_cancel second ends stops (negative.trans otherNegative.symm) same

end Numeral

namespace Number

/-- An integer has a numeral without a point and without a power of ten, which no double has. -/
theorem Shown.integral_iff {number : Number} {numeral : Numeral} (shown : number.Shown numeral) :
    numeral.integral = true ↔ number.IsInteger := by
  cases number with
  | integer value fits =>
      obtain ⟨negative, count, -, rfl⟩ := shown
      exact iff_of_true rfl trivial
  | binary value finite =>
      obtain ⟨text, spells⟩ := shown
      exact iff_of_false (Bool.eq_false_iff.mp spells.broken) id

/-- What the text of a number shows is enough to tell the number. -/
theorem Shown.unique {first second : Number} {numeral : Numeral} (shown : first.Shown numeral)
    (also : second.Shown numeral) : first = second := by
  have kind : first.IsInteger ↔ second.IsInteger :=
    shown.integral_iff.symm.trans also.integral_iff
  cases first with
  | integer value fits =>
      cases second with
      | binary => exact (kind.mp trivial).elim
      | integer other otherFits =>
          obtain ⟨negative, count, rfl, rfl⟩ := shown
          obtain ⟨otherNegative, otherCount, rfl, same⟩ := also
          obtain ⟨rfl, digits⟩ : negative = otherNegative ∧
              Nat.toDigits 10 count = Nat.toDigits 10 otherCount :=
            ⟨congrArg Numeral.negative same, congrArg Numeral.whole same⟩
          have counts : count = otherCount := by
            rw [← Nat.ofDigitChars_ten_toDigits (n := count), digits,
              Nat.ofDigitChars_ten_toDigits]
          subst counts
          rfl
  | binary value finite =>
      cases second with
      | integer => exact (kind.mpr trivial).elim
      | binary other otherFinite =>
          obtain ⟨text, spells⟩ := shown
          obtain ⟨otherText, otherSpells⟩ := also
          have magnitude : value.magnitude = other.magnitude :=
            Binary64.magnitude_eq_of_shortest (spells.amount_eq.symm.trans otherSpells.amount_eq)
          have sign : value.isNegative = other.isNegative := spells.sign.symm.trans otherSpells.sign
          have same : value = other := Binary64.eq_of_sign_magnitude sign magnitude
          subst same
          rfl

/-- A number is told by its text: integers and doubles from each other, and the two zeros too. -/
theorem tells_write (number : Number) : Tells write number := by
  intro other rest left ends stops same
  obtain ⟨numeral, shown, proper, text⟩ := number.exists_shown
  obtain ⟨otherNumeral, otherShown, otherProper, otherText⟩ := other.exists_shown
  rw [text, otherText] at same
  obtain ⟨rfl, rest⟩ := proper.spelling_cancel otherProper ends stops same
  exact ⟨shown.unique otherShown, rest⟩

end Number

/-! ## Strings -/

theorem writeString_cancel {text other : String} {rest left : List Char}
    (same : writeString text ++ rest = writeString other ++ left) : text = other ∧ rest = left := by
  obtain ⟨place, read⟩ := Cursor.string_append text rest .start
  obtain ⟨otherPlace, otherRead⟩ := Cursor.string_append other left .start
  simp only [writeString, List.cons_append, List.append_assoc, List.nil_append, List.cons.injEq,
    true_and] at same
  rw [same, otherRead] at read
  cases read
  exact ⟨rfl, rfl⟩

/-- A member is told by its name and the text of its value. -/
theorem Layout.tells_member {α : Type} (layout : Layout) {text : α → List Char} {name : String}
    {value : α} (tells : Tells text value) :
    Tells (fun entry => layout.member entry.1 (text entry.2)) (name, value) := by
  rintro ⟨otherName, other⟩ rest left ends stops same
  simp only [Layout.member, List.append_assoc] at same
  obtain ⟨rfl, behind⟩ := writeString_cancel same
  obtain ⟨rfl, rest⟩ := tells other rest left ends stops (List.append_cancel_left behind)
  exact ⟨rfl, rest⟩

/-! ## Containers -/

namespace Layout

variable {α : Type} {layout : Layout} {depth : Nat} {text : α → List Char} {rest left : List Char}

/-- A number ends before the next part of a container. -/
theorem endsNumber_following (parts : List (List Char)) (ends : EndsNumber rest) :
    EndsNumber (layout.following depth parts ++ rest) := by
  cases parts with
  | nil => exact ends
  | cons part parts =>
      rintro char ⟨⟩
      decide

/-- The parts of a container behind the first one are told one after another, up to where no comma
follows. -/
theorem following_cancel {parts others : List α} (tells : ∀ part ∈ parts, Tells text part)
    (ends : EndsNumber rest) (stops : EndsNumber left) (last : ',' ∉ rest.head?)
    (otherLast : ',' ∉ left.head?)
    (same : layout.following depth (parts.map text) ++ rest =
      layout.following depth (others.map text) ++ left) :
    parts = others ∧ rest = left := by
  induction parts generalizing others with
  | nil =>
      cases others with
      | nil => exact ⟨rfl, same⟩
      | cons other others =>
          rw [List.map_nil, following, List.nil_append] at same
          exact absurd (same ▸ rfl) last
  | cons part parts inductionHypothesis =>
      obtain ⟨here, later⟩ := List.forall_mem_cons.mp tells
      cases others with
      | nil =>
          rw [List.map_nil, following.eq_1, List.nil_append] at same
          exact absurd (same ▸ rfl) otherLast
      | cons other others =>
          rw [List.map_cons, List.map_cons, following, following, separate_cons,
            separate_cons] at same
          simp only [List.cons_append, List.append_assoc, List.cons.injEq, true_and,
            List.append_cancel_left_eq] at same
          obtain ⟨rfl, behind⟩ := here other _ _ (endsNumber_following _ ends)
            (endsNumber_following _ stops) same
          obtain ⟨rfl, rest⟩ := inductionHypothesis later behind
          exact ⟨rfl, rest⟩

/-- What ends a container is neither a comma nor the rest of a number. -/
theorem ends_closing (layout : Layout) (depth : Nat) (rest : List Char) {closing : Char}
    (closes : closing = ']' ∨ closing = '\x7d') :
    EndsNumber (layout.lineBreak depth ++ closing :: rest) ∧
      ',' ∉ (layout.lineBreak depth ++ closing :: rest).head? := by
  cases layout with
  | indented =>
      refine ⟨?_, by simp [lineBreak]⟩
      rintro char ⟨⟩
      decide
  | compact =>
      refine ⟨?_, by rcases closes with rfl | rfl <;> simp [lineBreak]⟩
      rintro char ⟨⟩
      rcases closes with rfl | rfl <;> decide

/-- A container with parts does not go on like an empty one. -/
theorem closing_ne_separate {closing : Char} (closes : closing = ']' ∨ closing = '\x7d')
    {part : List Char} (starts : ∃ char more, part = char :: more ∧ char ≠ closing)
    (parts : List (List Char)) :
    closing :: rest ≠ layout.separate depth (part :: parts) ++ left := by
  obtain ⟨char, more, rfl, other⟩ := starts
  rw [separate_cons]
  intro same
  cases layout with
  | indented =>
      have first : closing = '\n' := (List.cons.inj same).1
      rcases closes with rfl | rfl <;> exact absurd first (by decide)
  | compact => exact other (List.cons.inj same).1.symm

/-- A container is told by its parts, if none of them begins with the bracket at its end. -/
theorem enclose_cancel {opening closing : Char} (closes : closing = ']' ∨ closing = '\x7d')
    (starts : ∀ part, ∃ char more, text part = char :: more ∧ char ≠ closing)
    {parts others : List α} (tells : ∀ part ∈ parts, Tells text part)
    (same : layout.enclose depth opening closing (parts.map text) ++ rest =
      layout.enclose depth opening closing (others.map text) ++ left) :
    parts = others ∧ rest = left := by
  simp only [enclose_eq, List.cons_append, List.append_assoc, List.nil_append, List.cons.injEq,
    true_and] at same
  cases parts with
  | nil =>
      cases others with
      | nil => exact ⟨rfl, (List.cons.inj same).2⟩
      | cons other others => exact absurd same (closing_ne_separate closes (starts other) _)
  | cons part parts =>
      obtain ⟨here, later⟩ := List.forall_mem_cons.mp tells
      cases others with
      | nil => exact absurd same.symm (closing_ne_separate closes (starts part) _)
      | cons other others =>
          obtain ⟨ends, last⟩ := layout.ends_closing depth rest closes
          obtain ⟨stops, otherLast⟩ := layout.ends_closing depth left closes
          rw [List.map_cons, List.map_cons, separate_cons, separate_cons] at same
          simp only [List.append_assoc, List.append_cancel_left_eq] at same
          obtain ⟨rfl, behind⟩ := here other _ _ (endsNumber_following _ ends)
            (endsNumber_following _ stops) same
          obtain ⟨rfl, closed⟩ := following_cancel later ends stops last otherLast behind
          exact ⟨rfl, (List.cons.inj (List.append_cancel_left closed)).2⟩

end Layout

/-! ## Values -/

namespace Value

theorem kind_eq_of_append {layout : Layout} {depth : Nat} {value other : Value}
    {rest left : List Char}
    (same : value.writeAt layout depth ++ rest = other.writeAt layout depth ++ left) :
    value.kind = other.kind := by
  obtain ⟨char, more, text, kind⟩ := exists_writeAt_eq layout depth value
  obtain ⟨otherChar, otherMore, otherText, otherKind⟩ := exists_writeAt_eq layout depth other
  rw [text, otherText] at same
  rw [(List.cons.inj same).1, otherKind] at kind
  exact Option.some.inj kind.symm

/-- A value is told by its text. -/
theorem tells_writeAt (layout : Layout) (depth : Nat) (value : Value) :
    Tells (writeAt layout depth) value := by
  induction value using induction generalizing depth with
  | null =>
      intro other rest left _ _ same
      cases other <;> cases kind_eq_of_append same
      exact ⟨rfl, List.append_cancel_left same⟩
  | bool value =>
      intro other rest left _ _ same
      cases other <;> cases kind_eq_of_append same
      exact ⟨rfl, List.append_cancel_left same⟩
  | number value =>
      intro other rest left ends stops same
      cases other <;> cases kind_eq_of_append same
      obtain ⟨rfl, behind⟩ := value.tells_write _ rest left ends stops same
      exact ⟨rfl, behind⟩
  | string text =>
      intro other rest left _ _ same
      cases other <;> cases kind_eq_of_append same
      obtain ⟨rfl, behind⟩ := writeString_cancel same
      exact ⟨rfl, behind⟩
  | array elements inductionHypothesis =>
      intro other rest left _ _ same
      cases other <;> cases kind_eq_of_append same
      rw [writeAt, writeAt, writeElements_eq_map, writeElements_eq_map] at same
      have starts (element : Value) : ∃ char more,
          element.writeAt layout (depth + 1) = char :: more ∧ char ≠ ']' := by
        obtain ⟨char, more, text, -, other⟩ := startsElement_writeAt layout (depth + 1) element
        exact ⟨char, more, text, other⟩
      obtain ⟨rfl, behind⟩ := Layout.enclose_cancel (.inl rfl) starts
        (fun element among => inductionHypothesis element among (depth + 1)) same
      exact ⟨rfl, behind⟩
  | object members inductionHypothesis =>
      intro other rest left _ _ same
      cases other <;> cases kind_eq_of_append same
      rw [writeAt, writeAt, writeMembers_eq_map, writeMembers_eq_map] at same
      obtain ⟨rfl, behind⟩ := Layout.enclose_cancel (.inr rfl)
        (fun entry => ⟨'"', _, rfl, by decide⟩)
        (fun entry among => layout.tells_member (inductionHypothesis entry among (depth + 1))) same
      exact ⟨rfl, behind⟩

/-- Different values have different texts. -/
theorem write_injective (layout : Layout) : Function.Injective (write layout) := by
  intro value other same
  have texts : value.writeAt layout 0 = other.writeAt layout 0 := String.ofList_injective same
  have ends : EndsNumber [] := fun char never => by cases never
  exact (tells_writeAt layout 0 value other [] [] ends ends (congrArg (· ++ []) texts)).1

end Value

end Flowpress.Json
