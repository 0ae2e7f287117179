import Flowpress.Proofs.Emission.Literals

/-!
# Canonical literals

The reader takes more than the writer writes: a quote, a line feed or a control
character may stand for itself. The tokens that the writer uses are `Canonical`: a
character with an escape is written as this escape, and what no literal holds is
not written at all. Reading undoes writing, and writing undoes reading exactly for
the literals that are spelled with canonical tokens.
-/

namespace Flowpress.Literal

/-- Whether the writer uses a token: a character that has an escape, or that no literal holds, does
not stand for itself. -/
def Token.Canonical : Token → Prop
  | .plain char _ => char ≠ '"' ∧ char ≠ '\n' ∧ char ≠ '\r' ∧ Encodable char
  | .escaped _ => True

/-- Whether a literal is spelled with tokens that the writer uses. -/
def Canonical (literal : String) : Prop :=
  ∃ tokens : List Token, literal.toList = spell tokens ∧ ∀ token ∈ tokens, token.Canonical

/-- The canonical tokens are those that are written for the characters that a literal holds. -/
theorem Token.canonical_iff (token : Token) :
    token.Canonical ↔ Encodable token.meaning ∧ ofChar token.meaning = token := by
  cases token with
  | plain char proper =>
      unfold Canonical meaning ofChar
      rw [dif_neg proper]
      split_ifs <;> simp_all
  | escaped escape => cases escape <;> exact ⟨fun _ => ⟨by decide, rfl⟩, fun _ => trivial⟩

theorem Token.canonical_ofChar {char : Char} (encodable : Encodable char) :
    (ofChar char).Canonical := by
  rw [canonical_iff, meaning_ofChar]
  exact ⟨encodable, rfl⟩

/-- Canonical tokens are the ones that are written for their meaning. -/
theorem map_ofChar_meaning {tokens : List Token}
    (canonical : ∀ token ∈ tokens, token.Canonical) :
    (tokens.map Token.meaning).map Token.ofChar = tokens := by
  rw [List.map_map]
  calc tokens.map (Token.ofChar ∘ Token.meaning)
      = tokens.map id := List.map_congr_left fun token member =>
        (token.canonical_iff.mp (canonical token member)).2
    _ = tokens := List.map_id tokens

theorem escape_eq_ok_iff (text literal : String) :
    escape text = .ok literal ↔
      (∀ char ∈ text.toList, Encodable char) ∧
        literal.toList = spell (text.toList.map Token.ofChar) := by
  rw [spell_map_ofChar, ← escapeLine_eq_ok_iff 1, escape]
  cases escapeLine 1 text.toList with
  | error error => simp [Except.map]
  | ok chars =>
      have same : String.ofList chars = literal ↔ chars = literal.toList :=
        ⟨fun same => by rw [← same, String.toList_ofList],
          fun same => by rw [same, String.ofList_toList]⟩
      simpa [Except.map] using same

/-- The writer spells a text with the canonical tokens that stand for it. -/
theorem escape_eq_ok_iff_tokens (text literal : String) :
    escape text = .ok literal ↔
      ∃ tokens : List Token, (∀ token ∈ tokens, token.Canonical) ∧
        literal.toList = spell tokens ∧ text.toList = tokens.map Token.meaning := by
  rw [escape_eq_ok_iff]
  constructor
  · rintro ⟨encodable, spelled⟩
    refine ⟨text.toList.map Token.ofChar, ?_, spelled, (map_meaning_ofChar _).symm⟩
    exact List.forall_mem_map.mpr fun char member => Token.canonical_ofChar (encodable char member)
  · rintro ⟨tokens, canonical, spelled, means⟩
    rw [means, map_ofChar_meaning canonical]
    refine ⟨List.forall_mem_map.mpr fun token member => ?_, spelled⟩
    exact (token.canonical_iff.mp (canonical token member)).1

/-- Reading undoes writing. -/
theorem unescape_of_escape {text literal : String} (wrote : escape text = .ok literal) :
    unescape literal = .ok text := by
  obtain ⟨tokens, -, spelled, means⟩ := (escape_eq_ok_iff_tokens ..).mp wrote
  exact (unescape_eq_ok_iff ..).mpr ⟨tokens, spelled, means⟩

/-- A text can be written exactly if all its characters are encodable. -/
theorem exists_escape_iff (text : String) :
    (∃ literal, escape text = .ok literal) ↔ ∀ char ∈ text.toList, Encodable char := by
  constructor
  · rintro ⟨literal, wrote⟩
    exact ((escape_eq_ok_iff ..).mp wrote).1
  · intro encodable
    exact ⟨written text.toList, (escape_eq_ok_iff ..).mpr ⟨encodable, toList_written _⟩⟩

/-- The canonical literals are the ones that are ever written. -/
theorem exists_escape_eq_iff (literal : String) :
    (∃ text, escape text = .ok literal) ↔ Canonical literal := by
  constructor
  · rintro ⟨text, wrote⟩
    obtain ⟨tokens, canonical, spelled, -⟩ := (escape_eq_ok_iff_tokens ..).mp wrote
    exact ⟨tokens, spelled, canonical⟩
  · rintro ⟨tokens, spelled, canonical⟩
    exact ⟨String.ofList (tokens.map Token.meaning),
      (escape_eq_ok_iff_tokens ..).mpr ⟨tokens, canonical, spelled, String.toList_ofList⟩⟩

/-- Writing undoes reading for canonical literals only. -/
theorem escape_iff_canonical_of_unescape {literal text : String}
    (read : unescape literal = .ok text) : escape text = .ok literal ↔ Canonical literal := by
  constructor
  · intro wrote
    exact (exists_escape_eq_iff literal).mp ⟨text, wrote⟩
  · rintro ⟨tokens, spelled, canonical⟩
    obtain ⟨others, otherwise, means⟩ := (unescape_eq_ok_iff ..).mp read
    obtain rfl : tokens = others := spell_injective (spelled.symm.trans otherwise)
    exact (escape_eq_ok_iff_tokens ..).mpr ⟨tokens, canonical, spelled, means⟩

/-- Texts are written one behind the other. -/
theorem escape_append {first second left right : String} (wroteFirst : escape first = .ok left)
    (wroteSecond : escape second = .ok right) : escape (first ++ second) = .ok (left ++ right) := by
  obtain ⟨firstEncodable, leftSpelled⟩ := (escape_eq_ok_iff ..).mp wroteFirst
  obtain ⟨secondEncodable, rightSpelled⟩ := (escape_eq_ok_iff ..).mp wroteSecond
  rw [escape_eq_ok_iff, String.toList_append, String.toList_append, leftSpelled, rightSpelled,
    List.map_append, spell_append]
  exact ⟨List.forall_mem_append.mpr ⟨firstEncodable, secondEncodable⟩, rfl⟩

/-- Reading undoes writing, and writing undoes reading exactly for canonical literals, which are the
ones that are ever written. A text can be written exactly if all its characters are encodable. Both
ways, what is put together is treated part by part, and no literal has two spellings. -/
theorem escape_unescape_canonical :
    (∀ text literal, escape text = .ok literal → unescape literal = .ok text) ∧
    (∀ text, (∃ literal, escape text = .ok literal) ↔ ∀ char ∈ text.toList, Encodable char) ∧
    (∀ literal, (∃ text, escape text = .ok literal) ↔ Canonical literal) ∧
    (∀ literal text, unescape literal = .ok text →
      (escape text = .ok literal ↔ Canonical literal)) ∧
    (∀ first second left right, escape first = .ok left → escape second = .ok right →
      escape (first ++ second) = .ok (left ++ right)) ∧
    (∀ left right first second, unescape left = .ok first → unescape right = .ok second →
      unescape (left ++ right) = .ok (first ++ second)) ∧
    Function.Injective spell := by
  refine ⟨?_, exists_escape_iff, exists_escape_eq_iff, ?_, ?_, ?_, spell_injective⟩
  · intro text literal wrote
    exact unescape_of_escape wrote
  · intro literal text read
    exact escape_iff_canonical_of_unescape read
  · intro first second left right wroteFirst wroteSecond
    exact escape_append wroteFirst wroteSecond
  · intro left right first second readLeft readRight
    exact unescape_append readLeft readRight

/-- Two texts that hold all that is escaped, and a literal with a quote that stands for itself. -/
theorem quoted_canonical :
    escape "\\n\n" = .ok "\\\\n\\n" ∧ escape "\"é\t\r" = .ok "\\\"é\t\\r" ∧
      escape ("\\n\n" ++ "\"é\t\r") = .ok ("\\\\n\\n" ++ "\\\"é\t\\r") ∧
      unescape "\\\\n\\n" = .ok "\\n\n" ∧ Canonical "\\\\n\\n" ∧
      unescape "a\"b" = .ok "a\"b" ∧ ¬Canonical "a\"b" ∧
      unescape ("\\\\n\\n" ++ "a\"b") = .ok ("\\n\n" ++ "a\"b") := by
  obtain ⟨undone, -, image, inverse, wroteBoth, readBoth, -⟩ := escape_unescape_canonical
  have first : escape "\\n\n" = .ok "\\\\n\\n" := by decide
  have second : escape "\"é\t\r" = .ok "\\\"é\t\\r" := by decide
  have raw : unescape "a\"b" = .ok "a\"b" := by decide
  have read := undone _ _ first
  exact ⟨first, second, wroteBoth _ _ _ _ first second, read, (image _).mp ⟨_, first⟩, raw,
    mt (inverse _ _ raw).mpr (by decide), readBoth _ _ _ _ read raw⟩

end Flowpress.Literal
