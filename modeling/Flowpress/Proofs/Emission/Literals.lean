import Mathlib.Data.List.Basic
import Flowpress.Proofs.Emission.Tokens
import Flowpress.Proofs.Outcome

/-!
# Literals hold texts

A literal can be written for a text exactly if every character of the text is
encodable. It is spelled with one token for each character, so reading it gives
the text back.
-/

namespace Flowpress

section Decisions

-- Statements about the characters of a text are decided along the text; to run through all
-- characters there are, and ask for each whether it is among them, takes too long.

variable (property : Char → Prop) [DecidablePred property]

instance (priority := high) decidableForallMem (text : List Char) :
    Decidable (∀ char ∈ text, property char) :=
  List.decidableBAll property text

instance (priority := high) decidableExistsMem (first : Option Char) :
    Decidable (∃ char ∈ first, property char) :=
  Option.decidableExistsMem first

end Decisions

namespace Literal

/-- The characters that a literal holds: all but U+007F and those below U+0020 that are no tab, no
line feed and no carriage return. -/
def Encodable (char : Char) : Prop :=
  char ≠ '\x7f' ∧ (char.toNat < 0x20 → char = '\t' ∨ char = '\n' ∨ char = '\r')

instance (char : Char) : Decidable (Encodable char) := inferInstanceAs (Decidable (_ ∧ _))

theorem isUnencodable_eq_false_iff (char : Char) : isUnencodable char = false ↔ Encodable char := by
  unfold isUnencodable Encodable
  simp only [Bool.and_eq_false_iff, Bool.or_eq_false_iff, decide_eq_false_iff_not,
    bne_eq_false_iff_eq, beq_eq_false_iff_ne, ne_eq]
  constructor
  · rintro (((⟨high, other⟩ | rfl) | rfl) | rfl)
    · exact ⟨other, fun low => absurd low high⟩
    all_goals exact ⟨by decide, by simp⟩
  · rintro ⟨other, low⟩
    by_cases high : char.toNat < 0x20
    · rcases low high with rfl | rfl | rfl <;> simp
    · exact .inl (.inl (.inl ⟨high, other⟩))

/-- A text has a literal exactly if all its characters are encodable. -/
theorem escapeLine_eq_ok_iff (line : Nat) (text literal : List Char) :
    escapeLine line text = .ok literal ↔
      (∀ char ∈ text, Encodable char) ∧ literal = text.flatMap escapeChar := by
  unfold escapeLine
  cases found : text.find? isUnencodable with
  | some char =>
      have member := List.mem_of_find?_eq_some found
      have refused := List.find?_some found
      simp only [reduceCtorEq, false_iff, not_and]
      intro encodable
      have kept := (isUnencodable_eq_false_iff char).mpr (encodable char member)
      exact absurd kept (by simp [refused])
  | none =>
      have encodable : ∀ char ∈ text, Encodable char := fun char member =>
        (isUnencodable_eq_false_iff char).mp
          (Bool.eq_false_iff.mpr (List.find?_eq_none.mp found char member))
      simp only [Except.ok.injEq]
      exact ⟨fun same => ⟨encodable, same.symm⟩, fun both => both.2.symm⟩

/-- A literal stays on one line. -/
theorem newline_not_mem_escape (text : List Char) : '\n' ∉ text.flatMap escapeChar := by
  intro member
  obtain ⟨char, _, inside⟩ := List.mem_flatMap.mp member
  unfold escapeChar at inside
  split_ifs at inside with backslash quote newline carriage
  all_goals simp only [List.mem_cons, List.not_mem_nil, or_false, Char.reduceEq] at inside
  exact newline inside.symm

/-! ## Reading what is written -/

/-- The token that is written for a character. -/
def Token.ofChar (char : Char) : Token :=
  if backslash : char = '\\' then .escaped .backslash
  else if char = '"' then .escaped .quote
  else if char = '\n' then .escaped .lineFeed
  else if char = '\r' then .escaped .carriageReturn
  else .plain char backslash

@[simp] theorem Token.spelling_ofChar (char : Char) : (ofChar char).spelling = escapeChar char := by
  unfold ofChar escapeChar
  split_ifs <;> rfl

@[simp] theorem Token.meaning_ofChar (char : Char) : (ofChar char).meaning = char := by
  unfold ofChar
  split_ifs with backslash quote newline carriage
  · exact backslash.symm
  · exact quote.symm
  · exact newline.symm
  · exact carriage.symm
  · rfl

/-- What is written for a text is spelled with the tokens that are written for its characters. -/
theorem spell_map_ofChar (text : List Char) :
    spell (text.map Token.ofChar) = text.flatMap escapeChar := by
  simp [spell, List.flatMap_map]

/-- The tokens that are written for a text stand for it. -/
theorem map_meaning_ofChar (text : List Char) : (text.map Token.ofChar).map Token.meaning = text := by
  simp [Function.comp_def]

/-- The literal that is written for a text. -/
def written (text : List Char) : String := String.ofList (text.flatMap escapeChar)

theorem toList_written (text : List Char) :
    (written text).toList = spell (text.map Token.ofChar) := by
  rw [written, String.toList_ofList, spell_map_ofChar]

/-- Reading the literal of a text gives the text back. -/
theorem unescape_written (text : List Char) :
    unescape (written text) = .ok (String.ofList text) := by
  rw [unescape_of_spell (toList_written text), map_meaning_ofChar]

/-- Reading the literals of some texts gives the texts together. -/
theorem join_unescape_written (texts : List (List Char)) :
    (do
      let pieces ← (texts.map written).mapM unescape
      .ok (String.join pieces) : Except EmitError String) = .ok (String.ofList texts.flatten) := by
  have read : (texts.map written).mapM unescape = .ok (texts.map String.ofList) := by
    rw [List.mapM_map]
    exact Outcome.mapM_eq_ok_map fun text _ => unescape_written text
  rw [read, Outcome.ok_bind]
  refine congrArg Except.ok (String.toList_injective ?_)
  simp [String.toList_join, List.flatMap_map, List.flatMap_id']

end Literal

end Flowpress
