import Flowpress.Proofs.Emission.Literals
import Flowpress.Proofs.Json.Parts
import Flowpress.Proofs.Json.Spelling

/-!
# The characters of written texts

On its own account a printer writes printable characters of ASCII, and line feeds
if the layout has them. Any other character comes from a string or a name. Those
below U+0020 never come through, because strings escape them, and those from
U+007F on always do. So a written value can be emitted exactly if U+007F is in
none of its texts.
-/

namespace Flowpress.Json

open Literal (Encodable)

/-- The space and the characters of ASCII that can be seen. -/
def Printable (char : Char) : Prop := 0x20 ≤ char.toNat ∧ char.toNat < 0x7f

instance (char : Char) : Decidable (Printable char) := inferInstanceAs (Decidable (_ ∧ _))

/-- The characters that a printer writes on its own account. -/
def Layout.Prints (layout : Layout) (char : Char) : Prop :=
  Printable char ∨ layout = .indented ∧ char = '\n'

instance (layout : Layout) (char : Char) : Decidable (layout.Prints char) :=
  inferInstanceAs (Decidable (_ ∨ _))

theorem printable_of_isDigit {digit : Char} (decimal : digit.isDigit) : Printable digit := by
  obtain ⟨least, greatest⟩ : 48 ≤ digit.toNat ∧ digit.toNat ≤ 57 :=
    Char.isDigit_iff_toNat.mp decimal
  exact ⟨by omega, by omega⟩

theorem printable_hexDigit : ∀ value < 16, Printable (hexDigit value) := by
  decide

/-! ## Strings -/

/-- A character below U+0020 is written as an escape, which is printable. -/
theorem exists_escapeChar_eq {char : Char} (control : char.toNat < 0x20) :
    ∃ rest, escapeChar char = '\\' :: rest ∧ ∀ written ∈ rest, Printable written := by
  unfold escapeChar
  split_ifs with quote backslash
  · rw [quote] at control
    exact absurd control (by decide)
  · rw [backslash] at control
    exact absurd control (by decide)
  · exact ⟨_, rfl, by decide⟩
  · exact ⟨_, rfl, by decide⟩
  · exact ⟨_, rfl, by decide⟩
  · exact ⟨_, rfl, by decide⟩
  · exact ⟨_, rfl, by decide⟩
  · have letters : ∀ written ∈ ['u', '0', '0'], Printable written := by decide
    have high := printable_hexDigit (char.toNat / 16) (by omega)
    have low := printable_hexDigit (char.toNat % 16) (Nat.mod_lt _ (by decide))
    exact ⟨_, rfl, List.forall_mem_append.mpr ⟨letters, List.forall_mem_cons.mpr
      ⟨high, List.forall_mem_singleton.mpr low⟩⟩⟩

/-- Strings escape the quote and the backslash, and keep every other character from U+0020 on. -/
theorem escapeChar_of_le {char : Char} (least : 0x20 ≤ char.toNat) :
    escapeChar char = if char = '"' ∨ char = '\\' then ['\\', char] else [char] := by
  let escaped : List Char := ['\x08', '\x0c', '\n', '\r', '\t']
  have other : char ∉ escaped := fun among => by
    have control : ∀ other ∈ escaped, other.toNat < 0x20 := by decide
    exact absurd (control char among) (Nat.not_lt.mpr least)
  simp only [escaped, List.mem_cons, List.not_mem_nil, or_false, not_or] at other
  simp only [escapeChar, other, Nat.not_lt.mpr least, if_false]
  split_ifs with quote backslash <;> simp_all

/-- A character that is not printable comes through a string exactly if it is not below U+0020. -/
theorem mem_escapeChar_iff {char source : Char} (foreign : ¬Printable char) :
    char ∈ escapeChar source ↔ 0x20 ≤ char.toNat ∧ char = source := by
  have backslash : char ≠ '\\' := by
    rintro rfl
    exact foreign (by decide)
  by_cases control : source.toNat < 0x20
  · obtain ⟨rest, text, printable⟩ := exists_escapeChar_eq control
    rw [text, List.mem_cons, or_iff_right backslash]
    constructor
    · exact fun among => absurd (printable char among) foreign
    · rintro ⟨least, rfl⟩
      omega
  · have least : 0x20 ≤ source.toNat := Nat.le_of_not_lt control
    have among : char ∈ escapeChar source ↔ char = source := by
      rw [escapeChar_of_le least]
      split_ifs
      · simp [backslash]
      · simp
    rw [among]
    exact ⟨fun same => ⟨same ▸ least, same⟩, And.right⟩

theorem mem_writeString_iff {char : Char} (foreign : ¬Printable char) {text : String} :
    char ∈ writeString text ↔ 0x20 ≤ char.toNat ∧ char ∈ text.toList := by
  have quote : char ≠ '"' := by
    rintro rfl
    exact foreign (by decide)
  simp [writeString, quote, mem_escapeChar_iff foreign, and_comm]

/-- Nothing in a written string is below U+0020. -/
theorem le_of_mem_writeString {text : String} {char : Char} (among : char ∈ writeString text) :
    0x20 ≤ char.toNat := by
  by_cases printable : Printable char
  · exact printable.1
  · exact ((mem_writeString_iff printable).mp among).1

/-! ## Containers -/

namespace Layout

variable {layout : Layout} {char : Char}

theorem prints_of_mem_lineBreak {depth : Nat} (among : char ∈ layout.lineBreak depth) :
    layout.Prints char := by
  cases layout with
  | compact => cases among
  | indented =>
      rcases List.mem_cons.mp among with rfl | space
      · exact .inr ⟨rfl, rfl⟩
      · rw [List.eq_of_mem_replicate space]
        exact .inl (by decide)

/-- What a printer does not write comes from the parts of a container. -/
theorem mem_separate_iff (foreign : ¬layout.Prints char) {depth : Nat}
    {parts : List (List Char)} :
    char ∈ layout.separate depth parts ↔ ∃ part ∈ parts, char ∈ part := by
  have lineBreak : char ∉ layout.lineBreak (depth + 1) := mt prints_of_mem_lineBreak foreign
  have comma : char ≠ ',' := by
    rintro rfl
    exact foreign (.inl (by decide))
  induction parts with
  | nil => simp [separate]
  | cons part parts inductionHypothesis =>
      have later : char ∈ layout.following depth parts ↔ ∃ part ∈ parts, char ∈ part := by
        cases parts with
        | nil => simp [following]
        | cons next parts =>
            rw [following, List.mem_cons, or_iff_right comma]
            exact inductionHypothesis
      rw [separate_cons]
      simp only [List.mem_append, lineBreak, later, List.exists_mem_cons_iff, false_or]

theorem mem_enclose_iff (foreign : ¬layout.Prints char) {depth : Nat} {opening closing : Char}
    (opens : Printable opening) (closes : Printable closing) {parts : List (List Char)} :
    char ∈ layout.enclose depth opening closing parts ↔ ∃ part ∈ parts, char ∈ part := by
  have ending : char ∉ layout.ending depth parts := by
    unfold Layout.ending
    split_ifs
    · exact List.not_mem_nil
    · exact mt prints_of_mem_lineBreak foreign
  have brackets : char ≠ opening ∧ char ≠ closing := by
    constructor
    · rintro rfl
      exact foreign (.inl opens)
    · rintro rfl
      exact foreign (.inl closes)
  simp [enclose_eq, mem_separate_iff foreign, ending, brackets]

theorem mem_member_iff (foreign : ¬layout.Prints char) {name : String} {text : List Char} :
    char ∈ layout.member name text ↔ (0x20 ≤ char.toNat ∧ char ∈ name.toList) ∨ char ∈ text := by
  have colon : char ∉ layout.colon := by
    have printed : ∀ other ∈ layout.colon, Printable other := by cases layout <;> decide
    exact fun among => foreign (.inl (printed char among))
  rw [member, List.mem_append, List.mem_append, mem_writeString_iff (mt .inl foreign),
    or_iff_left colon]

end Layout

/-! ## Values -/

theorem Numeral.Proper.printable_spelling {numeral : Numeral} (proper : numeral.Proper) :
    ∀ char ∈ numeral.spelling, Printable char := by
  have whole : ∀ char ∈ numeral.whole, Printable char := fun digit among =>
    printable_of_isDigit (proper.wholeDigits digit among)
  have fraction : ∀ char ∈ '.' :: numeral.fraction, Printable char :=
    List.forall_mem_cons.mpr ⟨by decide, fun digit among =>
      printable_of_isDigit (proper.fractionDigits digit among)⟩
  have power : ∀ char ∈ numeral.powerText, Printable char := by
    unfold Numeral.powerText
    split_ifs with none
    · exact List.forall_mem_nil _
    all_goals
      exact List.forall_mem_cons.mpr ⟨by decide, List.forall_mem_cons.mpr ⟨by decide,
        fun digit among => printable_of_isDigit (proper.exponentDigits digit among)⟩⟩
  have tail : ∀ char ∈ numeral.tail, Printable char := by
    unfold Numeral.tail
    split_ifs with none
    · exact power
    · exact List.forall_mem_append.mpr ⟨fraction, power⟩
  have body : ∀ char ∈ numeral.body, Printable char := List.forall_mem_append.mpr ⟨whole, tail⟩
  unfold Numeral.spelling
  split_ifs with negative
  · exact List.forall_mem_cons.mpr ⟨by decide, body⟩
  · exact body

theorem Number.printable_write (number : Number) : ∀ char ∈ number.write, Printable char := by
  obtain ⟨numeral, proper, text⟩ := number.exists_write_eq_spelling
  rw [text]
  exact proper.printable_spelling

/-- What a printer does not write on its own account is in a written value exactly if it is in one
of its texts and not below U+0020. -/
theorem Value.mem_writeAt_iff {layout : Layout} {char : Char} (foreign : ¬layout.Prints char)
    {value : Value} (depth : Nat) :
    char ∈ value.writeAt layout depth ↔
      0x20 ≤ char.toNat ∧ ∃ text ∈ value.texts, char ∈ text.toList := by
  have unprinted : ¬Printable char := mt .inl foreign
  have scalar {value : Value} {depth : Nat} (none : value.texts = [])
      (printable : ∀ other ∈ value.writeAt layout depth, Printable other) :
      char ∈ value.writeAt layout depth ↔
        0x20 ≤ char.toNat ∧ ∃ text ∈ value.texts, char ∈ text.toList := by
    refine iff_of_false (fun among => unprinted (printable char among)) ?_
    simp [none]
  induction value using induction generalizing depth with
  | null =>
      have word : ∀ other ∈ "null".toList, Printable other := by decide
      exact scalar rfl word
  | bool value =>
      have words : (∀ other ∈ "true".toList, Printable other) ∧
          ∀ other ∈ "false".toList, Printable other := by decide
      cases value with
      | true => exact scalar rfl words.1
      | false => exact scalar rfl words.2
  | number value => exact scalar rfl value.printable_write
  | string text =>
      rw [writeAt, mem_writeString_iff unprinted]
      simp [texts, within, ownTexts]
  | array elements inductionHypothesis =>
      rw [writeAt, writeElements_eq_map, Layout.mem_enclose_iff foreign (by decide) (by decide),
        texts_array]
      simp only [List.mem_map, exists_exists_and_eq_and, List.mem_flatMap]
      constructor
      · rintro ⟨element, among, written⟩
        obtain ⟨least, text, inside, holds⟩ :=
          (inductionHypothesis element among (depth + 1)).mp written
        exact ⟨least, text, ⟨element, among, inside⟩, holds⟩
      · rintro ⟨least, text, ⟨element, among, inside⟩, holds⟩
        exact ⟨element, among,
          (inductionHypothesis element among (depth + 1)).mpr ⟨least, text, inside, holds⟩⟩
  | object members inductionHypothesis =>
      rw [writeAt, writeMembers_eq_map, Layout.mem_enclose_iff foreign (by decide) (by decide),
        texts_object]
      simp only [List.mem_map, exists_exists_and_eq_and, Layout.mem_member_iff foreign,
        List.mem_append, List.mem_flatMap]
      constructor
      · rintro ⟨member, among, ⟨least, named⟩ | written⟩
        · exact ⟨least, member.1, .inl ⟨member, among, rfl⟩, named⟩
        · obtain ⟨least, text, inside, holds⟩ :=
            (inductionHypothesis member among (depth + 1)).mp written
          exact ⟨least, text, .inr ⟨member, among, inside⟩, holds⟩
      · rintro ⟨least, text, ⟨member, among, rfl⟩ | ⟨member, among, inside⟩, holds⟩
        · exact ⟨member, among, .inl ⟨least, holds⟩⟩
        · exact ⟨member, among, .inr
            ((inductionHypothesis member among (depth + 1)).mpr ⟨least, text, inside, holds⟩)⟩

/-! ## What can be emitted -/

/-- All characters of a text can be emitted. -/
def AllEncodable (text : List Char) : Prop := ∀ char ∈ text, Encodable char

instance (text : List Char) : Decidable (AllEncodable text) :=
  inferInstanceAs (Decidable (∀ char ∈ text, Encodable char))

/-- What a printer writes on its own account can be emitted, and so can everything else from U+0020
on but U+007F. -/
theorem Layout.encodable_of {layout : Layout} {char : Char}
    (foreign : ¬layout.Prints char → 0x20 ≤ char.toNat ∧ char ≠ '\x7f') : Encodable char := by
  by_cases prints : layout.Prints char
  · rcases prints with ⟨least, below⟩ | ⟨-, rfl⟩
    · refine ⟨?_, fun control => absurd control (Nat.not_lt.mpr least)⟩
      rintro rfl
      exact absurd below (by decide)
    · decide
  · obtain ⟨least, other⟩ := foreign prints
    exact ⟨other, fun control => absurd control (Nat.not_lt.mpr least)⟩

end Flowpress.Json
