import Mathlib.Logic.Function.Defs
import Flowpress.Emission.Literal

/-!
# Tokens of literals

A literal is spelled with tokens: characters other than the backslash, which stand
for themselves, and four escapes. A literal is read exactly if it is spelled with
tokens, in the only way there is, and it means what they mean one after another.
Anything else has tokens up to a backslash that begins no escape, and the length of
these tokens in bytes is the position that the reader reports.
-/

namespace Flowpress.Literal

/-- The escapes of a literal. -/
inductive Escape where
  | backslash
  | quote
  | lineFeed
  | carriageReturn
deriving DecidableEq, Repr

/-- What stands behind the backslash of an escape. -/
def Escape.letter : Escape → Char
  | .backslash => '\\'
  | .quote => '"'
  | .lineFeed => 'n'
  | .carriageReturn => 'r'

/-- The character that an escape stands for. -/
def Escape.meaning : Escape → Char
  | .backslash => '\\'
  | .quote => '"'
  | .lineFeed => '\n'
  | .carriageReturn => '\r'

theorem Escape.letter_injective : Function.Injective Escape.letter := by
  intro first second same
  cases first <;> cases second <;> first | rfl | exact absurd same (by decide)

/-- A letter has the meaning of the escape that it belongs to. -/
theorem unescapeChar?_letter (escape : Escape) :
    unescapeChar? escape.letter = some escape.meaning := by
  cases escape <;> rfl

/-- A character has a meaning behind a backslash only as the letter of an escape. -/
theorem exists_letter_of_unescapeChar? {letter meaning : Char}
    (known : unescapeChar? letter = some meaning) : ∃ escape : Escape, escape.letter = letter := by
  unfold unescapeChar? at known
  split at known
  · exact ⟨.backslash, rfl⟩
  · exact ⟨.quote, rfl⟩
  · exact ⟨.lineFeed, rfl⟩
  · exact ⟨.carriageReturn, rfl⟩
  · cases known

theorem unescapeChar?_eq_none_iff {letter : Char} :
    unescapeChar? letter = none ↔ ∀ escape : Escape, escape.letter ≠ letter := by
  constructor
  · rintro strange escape rfl
    rw [unescapeChar?_letter] at strange
    cases strange
  · intro strange
    cases known : unescapeChar? letter with
    | none => rfl
    | some meaning =>
        obtain ⟨escape, same⟩ := exists_letter_of_unescapeChar? known
        exact absurd same (strange escape)

/-! ## Spelling -/

/-- What a literal is spelled with. -/
inductive Token where
  | plain (char : Char) (proper : char ≠ '\\')
  | escaped (escape : Escape)

/-- The characters of a token. -/
def Token.spelling : Token → List Char
  | .plain char _ => [char]
  | .escaped escape => ['\\', escape.letter]

/-- The character that a token stands for. -/
def Token.meaning : Token → Char
  | .plain char _ => char
  | .escaped escape => escape.meaning

/-- The characters of some tokens. -/
def spell (tokens : List Token) : List Char := tokens.flatMap Token.spelling

@[simp] theorem spell_nil : spell [] = [] := rfl

@[simp] theorem spell_cons (token : Token) (tokens : List Token) :
    spell (token :: tokens) = token.spelling ++ spell tokens := rfl

@[simp] theorem spell_append (first second : List Token) :
    spell (first ++ second) = spell first ++ spell second :=
  List.flatMap_append

theorem Token.spelling_ne_nil (token : Token) : token.spelling ≠ [] := by
  cases token <;> exact List.cons_ne_nil _ _

/-- What begins with a token begins with no other one. -/
theorem Token.eq_of_spelling_append {first second : Token} {left right : List Char}
    (same : first.spelling ++ left = second.spelling ++ right) : first = second ∧ left = right := by
  cases first with
  | plain char proper =>
      cases second with
      | plain other otherProper =>
          obtain ⟨rfl, rest⟩ := List.cons.inj same
          exact ⟨rfl, rest⟩
      | escaped escape => exact absurd (List.cons.inj same).1 proper
  | escaped escape =>
      cases second with
      | plain other otherProper => exact absurd (List.cons.inj same).1.symm otherProper
      | escaped other =>
          obtain ⟨letters, rest⟩ := List.cons.inj (List.cons.inj same).2
          exact ⟨congrArg _ (Escape.letter_injective letters), rest⟩

/-- Nothing is spelled in two ways. -/
theorem spell_injective : Function.Injective spell := by
  intro first second same
  induction first generalizing second with
  | nil =>
      cases second with
      | nil => rfl
      | cons token second =>
          rw [spell_cons] at same
          exact absurd (List.append_eq_nil_iff.mp same.symm).1 token.spelling_ne_nil
  | cons token first inductionHypothesis =>
      cases second with
      | nil =>
          rw [spell_cons] at same
          exact absurd (List.append_eq_nil_iff.mp same).1 token.spelling_ne_nil
      | cons other second =>
          obtain ⟨rfl, rest⟩ := Token.eq_of_spelling_append same
          rw [inductionHypothesis rest]

/-- The number of bytes of some characters. -/
def byteLength (chars : List Char) : Nat := (String.ofList chars).utf8ByteSize

theorem byteLength_cons (char : Char) (chars : List Char) :
    byteLength (char :: chars) = char.utf8Size + byteLength chars := by
  rw [byteLength, String.ofList_cons, String.utf8ByteSize_append, String.utf8ByteSize_singleton]
  rfl

theorem byteLength_append (first second : List Char) :
    byteLength (first ++ second) = byteLength first + byteLength second := by
  rw [byteLength, String.ofList_append, String.utf8ByteSize_append]
  rfl

theorem byteLength_toList (text : String) : byteLength text.toList = text.utf8ByteSize := by
  rw [byteLength, String.ofList_toList]

/-! ## Reading tokens -/

/-- A character that is no backslash stands for itself, whatever follows. -/
theorem unescapeAfter_cons {char : Char} (plain : char ≠ '\\') (position : Nat)
    (text rest : List Char) :
    unescapeAfter position text (char :: rest) =
      unescapeAfter (position + char.utf8Size) (char :: text) rest := by
  cases rest with
  | nil => simp [unescapeAfter, plain]
  | cons next rest => simp [unescapeAfter, plain]

/-- An escape stands for its meaning, whatever follows. -/
theorem unescapeAfter_backslash {letter meaning : Char}
    (known : unescapeChar? letter = some meaning) (position : Nat) (text rest : List Char) :
    unescapeAfter position text ('\\' :: letter :: rest) =
      unescapeAfter (position + 1 + letter.utf8Size) (meaning :: text) rest := by
  simp [unescapeAfter, known]

/-- Behind a token the reader goes on as behind the character that the token stands for. -/
theorem unescapeAfter_spelling (token : Token) (position : Nat) (text rest : List Char) :
    unescapeAfter position text (token.spelling ++ rest) =
      unescapeAfter (position + byteLength token.spelling) (token.meaning :: text) rest := by
  cases token with
  | plain char proper =>
      rw [Token.spelling, byteLength_cons]
      exact unescapeAfter_cons proper ..
  | escaped escape =>
      rw [Token.spelling, byteLength_cons, byteLength_cons, ← Nat.add_assoc]
      exact unescapeAfter_backslash (unescapeChar?_letter escape) ..

/-- Behind some tokens the reader goes on as behind the text that they stand for. -/
theorem unescapeAfter_spell (tokens : List Token) (position : Nat) (text rest : List Char) :
    unescapeAfter position text (spell tokens ++ rest) =
      unescapeAfter (position + byteLength (spell tokens))
        ((tokens.map Token.meaning).reverse ++ text) rest := by
  induction tokens generalizing position text with
  | nil => rfl
  | cons token tokens inductionHypothesis =>
      rw [spell_cons, List.append_assoc, unescapeAfter_spelling, inductionHypothesis,
        byteLength_append, Nat.add_assoc, List.map_cons, List.reverse_cons, List.append_assoc]
      rfl

/-- What is wrong with a backslash, by what stands behind it. -/
inductive FaultBefore : List Char → LiteralFault → Prop where
  | dangling : FaultBefore [] .danglingBackslash
  | unknown {next : Char} {more : List Char} (strange : ∀ escape : Escape, escape.letter ≠ next) :
      FaultBefore (next :: more) (.unknownEscape next)

/-- The reader stops at a backslash that begins no escape. -/
theorem unescapeAfter_of_faultBefore {behind : List Char} {fault : LiteralFault}
    (faulty : FaultBefore behind fault) (position : Nat) (text : List Char) :
    unescapeAfter position text ('\\' :: behind) = .error (.malformedLiteral position fault) := by
  cases faulty with
  | dangling => simp [unescapeAfter]
  | unknown strange => simp [unescapeAfter, unescapeChar?_eq_none_iff.mpr strange]

/-- Characters are spelled with tokens as far as a backslash that begins no escape, or altogether. -/
theorem exists_spell_append (chars : List Char) :
    ∃ tokens rest, chars = spell tokens ++ rest ∧
      (rest = [] ∨ ∃ behind fault, rest = '\\' :: behind ∧ FaultBefore behind fault) := by
  -- Along the tokens, as the reader goes: a backslash takes the next character with it, so that one
  -- which is escaped never begins an escape itself.
  match chars with
  | [] => exact ⟨[], [], rfl, .inl rfl⟩
  | char :: more =>
      by_cases backslash : char = '\\'
      · subst backslash
        match more with
        | [] => exact ⟨[], _, rfl, .inr ⟨_, _, rfl, .dangling⟩⟩
        | next :: more =>
            by_cases known : ∃ escape : Escape, escape.letter = next
            · obtain ⟨escape, rfl⟩ := known
              obtain ⟨tokens, rest, rfl, ends⟩ := exists_spell_append more
              exact ⟨.escaped escape :: tokens, rest, rfl, ends⟩
            · exact ⟨[], _, rfl, .inr ⟨_, _, rfl, .unknown (not_exists.mp known)⟩⟩
      · obtain ⟨tokens, rest, rfl, ends⟩ := exists_spell_append more
        exact ⟨.plain char backslash :: tokens, rest, rfl, ends⟩

/-- What is spelled with tokens is read as the text that they stand for. -/
theorem unescape_of_spell {literal : String} {tokens : List Token}
    (spelled : literal.toList = spell tokens) :
    unescape literal = .ok (String.ofList (tokens.map Token.meaning)) := by
  rw [unescape, spelled, ← List.append_nil (spell tokens), unescapeAfter_spell, unescapeAfter,
    List.append_nil, List.reverse_reverse]
  rfl

/-- What has tokens up to a backslash that begins no escape is refused at this backslash. -/
theorem unescape_of_faultBefore {literal : String} {tokens : List Token} {behind : List Char}
    {fault : LiteralFault} (spelled : literal.toList = spell tokens ++ '\\' :: behind)
    (faulty : FaultBefore behind fault) :
    unescape literal = .error (.malformedLiteral (byteLength (spell tokens)) fault) := by
  rw [unescape, spelled, unescapeAfter_spell, unescapeAfter_of_faultBefore faulty, Nat.zero_add]
  rfl

/-- A literal is read exactly if it is spelled with tokens. -/
theorem unescape_eq_ok_iff (literal text : String) :
    unescape literal = .ok text ↔
      ∃ tokens, literal.toList = spell tokens ∧ text.toList = tokens.map Token.meaning := by
  constructor
  · intro read
    obtain ⟨tokens, rest, spelled, rfl | ⟨behind, fault, rfl, faulty⟩⟩ :=
      exists_spell_append literal.toList
    · rw [List.append_nil] at spelled
      rw [unescape_of_spell spelled] at read
      exact ⟨tokens, spelled, by rw [← Except.ok.inj read, String.toList_ofList]⟩
    · rw [unescape_of_faultBefore spelled faulty] at read
      cases read
  · rintro ⟨tokens, spelled, means⟩
    rw [unescape_of_spell spelled, ← means, String.ofList_toList]

/-- A literal is refused exactly if it has tokens up to a backslash that begins no escape. -/
theorem unescape_eq_error_iff (literal : String) (error : EmitError) :
    unescape literal = .error error ↔
      ∃ tokens behind fault, literal.toList = spell tokens ++ '\\' :: behind ∧
        FaultBefore behind fault ∧
        error = .malformedLiteral (byteLength (spell tokens)) fault := by
  constructor
  · intro failed
    obtain ⟨tokens, rest, spelled, rfl | ⟨behind, fault, rfl, faulty⟩⟩ :=
      exists_spell_append literal.toList
    · rw [List.append_nil] at spelled
      rw [unescape_of_spell spelled] at failed
      cases failed
    · rw [unescape_of_faultBefore spelled faulty] at failed
      exact ⟨tokens, behind, fault, spelled, faulty, (Except.error.inj failed).symm⟩
  · rintro ⟨tokens, behind, fault, spelled, faulty, rfl⟩
    exact unescape_of_faultBefore spelled faulty

/-- Literals that are read are read one behind the other. -/
theorem unescape_append {left right first second : String} (readLeft : unescape left = .ok first)
    (readRight : unescape right = .ok second) :
    unescape (left ++ right) = .ok (first ++ second) := by
  obtain ⟨front, leftSpelled, leftMeans⟩ := (unescape_eq_ok_iff ..).mp readLeft
  obtain ⟨back, rightSpelled, rightMeans⟩ := (unescape_eq_ok_iff ..).mp readRight
  refine (unescape_eq_ok_iff ..).mpr ⟨front ++ back, ?_, ?_⟩
  · rw [String.toList_append, spell_append, leftSpelled, rightSpelled]
  · rw [String.toList_append, List.map_append, leftMeans, rightMeans]

/-! ## Where reading breaks off -/

/-- Where reading a literal breaks off: behind what is read stands a backslash that begins no escape
with what stands behind it. -/
structure BreaksAt (literal before behind : String) (fault : LiteralFault) : Prop where
  split : literal = before ++ "\\" ++ behind
  legible : ∃ text, unescape before = .ok text
  faulty : FaultBefore behind.toList fault

/-- The reason of a refusal says that nothing stands behind the backslash, or names what does. -/
theorem FaultBefore.message_eq {behind : List Char} {fault : LiteralFault}
    (faulty : FaultBefore behind fault) :
    fault.message = match behind.head? with
      | none => "dangling backslash"
      | some next => "unknown escape '\\" ++ String.ofList [next] ++ "'" := by
  cases faulty <;> rfl

theorem exists_error_iff (literal : String) :
    (∃ error, unescape literal = .error error) ↔ ¬∃ tokens, literal.toList = spell tokens := by
  constructor
  · rintro ⟨error, failed⟩ ⟨tokens, spelled⟩
    rw [unescape_of_spell spelled] at failed
    cases failed
  · intro unspelled
    cases read : unescape literal with
    | error error => exact ⟨error, rfl⟩
    | ok text =>
        obtain ⟨tokens, spelled, -⟩ := (unescape_eq_ok_iff ..).mp read
        exact absurd ⟨tokens, spelled⟩ unspelled

theorem unescape_of_breaksAt {literal before behind : String} {fault : LiteralFault}
    (breaks : BreaksAt literal before behind fault) :
    unescape literal = .error (.malformedLiteral before.utf8ByteSize fault) := by
  obtain ⟨rfl, ⟨text, read⟩, faulty⟩ := breaks
  obtain ⟨tokens, spelled, -⟩ := (unescape_eq_ok_iff ..).mp read
  rw [← byteLength_toList, spelled]
  refine unescape_of_faultBefore ?_ faulty
  rw [String.toList_append, String.toList_append, spelled, List.append_assoc]
  rfl

/-- A literal is refused exactly if reading it breaks off somewhere, with the bytes in front of that
place. -/
theorem unescape_eq_error_iff_breaksAt (literal : String) (error : EmitError) :
    unescape literal = .error error ↔ ∃ before behind fault,
      BreaksAt literal before behind fault ∧
        error = .malformedLiteral before.utf8ByteSize fault := by
  constructor
  · intro failed
    obtain ⟨tokens, behind, fault, spelled, faulty, rfl⟩ := (unescape_eq_error_iff ..).mp failed
    refine ⟨String.ofList (spell tokens), String.ofList behind, fault, ⟨?_, ?_, ?_⟩, rfl⟩
    · apply String.toList_injective
      simp [spelled]
    · exact ⟨_, unescape_of_spell String.toList_ofList⟩
    · rwa [String.toList_ofList]
  · rintro ⟨before, behind, fault, breaks, rfl⟩
    exact unescape_of_breaksAt breaks

/-- Behind a literal that is read, reading breaks off as it does alone. -/
theorem BreaksAt.append {literal before behind : String} {fault : LiteralFault}
    (breaks : BreaksAt literal before behind fault) {accepted text : String}
    (read : unescape accepted = .ok text) :
    BreaksAt (accepted ++ literal) (accepted ++ before) behind fault := by
  obtain ⟨rfl, ⟨more, legible⟩, faulty⟩ := breaks
  refine ⟨?_, ⟨text ++ more, unescape_append read legible⟩, faulty⟩
  rw [String.append_assoc, String.append_assoc, String.append_assoc]

/-- Malformed literals are located exactly. A literal is refused if and only if it is not spelled
with tokens; what is reported is the place in bytes of a backslash that begins no escape behind a
part that is read, and why it begins none. Literals that are read can be put in front, which moves
the place by their bytes and changes nothing else. -/
theorem unescape_breaks_off (literal : String) :
    ((∃ error, unescape literal = .error error) ↔ ¬∃ tokens, literal.toList = spell tokens) ∧
    (∀ error, unescape literal = .error error ↔ ∃ before behind fault,
      BreaksAt literal before behind fault ∧
        error = .malformedLiteral before.utf8ByteSize fault) ∧
    (∀ before behind fault, BreaksAt literal before behind fault →
      fault.message = match behind.toList.head? with
        | none => "dangling backslash"
        | some next => "unknown escape '\\" ++ String.ofList [next] ++ "'") ∧
    ∀ accepted text, unescape accepted = .ok text → ∀ position fault,
      unescape literal = .error (.malformedLiteral position fault) →
        unescape (accepted ++ literal) =
          .error (.malformedLiteral (position + accepted.utf8ByteSize) fault) := by
  refine ⟨exists_error_iff literal, unescape_eq_error_iff_breaksAt literal, ?_, ?_⟩
  · intro before behind fault breaks
    exact breaks.faulty.message_eq
  · intro accepted text read position fault failed
    obtain ⟨before, behind, cause, breaks, same⟩ :=
      (unescape_eq_error_iff_breaksAt ..).mp failed
    obtain ⟨rfl, rfl⟩ := EmitError.malformedLiteral.inj same
    rw [unescape_of_breaksAt (breaks.append read), String.utf8ByteSize_append, Nat.add_comm]

/-- An escaped backslash in front of a letter, characters of several bytes, and then a letter that
belongs to no escape. -/
theorem tabLetter_breaks_off :
    unescape "é\\n𝄞" = .ok "é\n𝄞" ∧
      unescape "\\\\tü\\t" = .error (.malformedLiteral 5 (.unknownEscape 't')) ∧
      (LiteralFault.unknownEscape 't').message = "unknown escape '\\t'" ∧
      unescape ("é\\n𝄞" ++ "\\\\tü\\t") = .error (.malformedLiteral 13 (.unknownEscape 't')) := by
  obtain ⟨-, places, reasons, moved⟩ := unescape_breaks_off "\\\\tü\\t"
  have read : unescape "é\\n𝄞" = .ok "é\n𝄞" := by rfl
  have strange : FaultBefore ['t'] (.unknownEscape 't') :=
    .unknown fun escape => by cases escape <;> decide
  have breaks : BreaksAt "\\\\tü\\t" "\\\\tü" "t" (.unknownEscape 't') :=
    ⟨by decide, ⟨"\\tü", by rfl⟩, strange⟩
  have failed := (places _).mpr ⟨_, _, _, breaks, rfl⟩
  exact ⟨read, failed, reasons _ _ _ breaks, moved _ _ read _ _ failed⟩

end Flowpress.Literal
