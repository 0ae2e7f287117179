import Mathlib.Data.List.TakeWhile
import Flowpress.Proofs.Emission.Units

/-!
# Where an emission stops

An emission that fails stops at the first character of the text that no literal
holds, and says on which line and in which column of the whole text it stands.
Neither depends on how the text is cut into segments: lines are counted through
all segments, and the characters in front of one on its line are those behind the
last line feed before it.
-/

namespace Flowpress

open Literal (Encodable)

namespace Literal

theorem not_encodable_iff (char : Char) :
    ¬Encodable char ↔
      char = '\x7f' ∨ char.toNat < 0x20 ∧ char ≠ '\t' ∧ char ≠ '\n' ∧ char ≠ '\r' := by
  unfold Encodable
  tauto

/-- The first character of a text that no literal holds, with what stands before and behind it. -/
structure StopsAt (text before : List Char) (char : Char) (after : List Char) : Prop where
  split : text = before ++ char :: after
  encodable : ∀ earlier ∈ before, Encodable earlier
  refused : ¬Encodable char

theorem exists_stopsAt {text : List Char} (offends : ∃ char ∈ text, ¬Encodable char) :
    ∃ before char after, StopsAt text before char after := by
  induction text with
  | nil => simp at offends
  | cons first text inductionHypothesis =>
      by_cases encodable : Encodable first
      · obtain ⟨char, member, refused⟩ := offends
        have later : char ∈ text :=
          (List.mem_cons.mp member).resolve_left fun same => refused (same ▸ encodable)
        obtain ⟨before, char, after, split, clean, refused⟩ :=
          inductionHypothesis ⟨char, later, refused⟩
        exact ⟨first :: before, char, after, congrArg _ split,
          List.forall_mem_cons.mpr ⟨encodable, clean⟩, refused⟩
      · exact ⟨[], first, text, rfl, List.forall_mem_nil _, encodable⟩

/-- The literal of a line stops at the first character that no literal holds. -/
theorem escapeLine_of_stopsAt {text before after : List Char} {char : Char}
    (stops : StopsAt text before char after) (line : Nat) :
    escapeLine line text = .error (.unencodable line (before.length + 1) char) := by
  obtain ⟨rfl, clean, refused⟩ := stops
  have kept : ∀ earlier ∈ before, isUnencodable earlier = false := fun earlier member =>
    (isUnencodable_eq_false_iff earlier).mpr (clean earlier member)
  have stop : isUnencodable char = true := by
    rw [← Bool.not_eq_false, isUnencodable_eq_false_iff]
    exact refused
  have found : (before ++ char :: after).find? isUnencodable = some char := by
    rw [List.find?_append, List.find?_eq_none.mpr (by simpa using kept), Option.none_or,
      List.find?_cons_of_pos stop]
  have place : (before ++ char :: after).findIdx isUnencodable = before.length := by
    rw [List.findIdx_append, List.findIdx_cons]
    simp_all
  rw [escapeLine, found, place]

end Literal

namespace Emitter

open Literal (StopsAt)

/-- How lines fail, of which the first one has the number `linesBefore + 1`: the first of them that
has a character that no literal holds fails at this character. -/
inductive LinesStop : Nat → List String → EmitError → Prop where
  | here {linesBefore : Nat} {line : String} {rest : List String} {before after : List Char}
      {char : Char} (stops : StopsAt line.toList before char after) :
      LinesStop linesBefore (line :: rest)
        (.unencodable (linesBefore + 1) (before.length + 1) char)
  | later {linesBefore : Nat} {line : String} {rest : List String} {error : EmitError}
      (encodable : ∀ char ∈ line.toList, Encodable char)
      (behind : LinesStop (linesBefore + 1) rest error) :
      LinesStop linesBefore (line :: rest) error

variable {linesBefore : Nat} {error : EmitError}

/-- Lines fail in their first part, or the first part is encodable and the second one fails. -/
theorem LinesStop.split {first second : List String}
    (stop : LinesStop linesBefore (first ++ second) error) :
    LinesStop linesBefore first error ∨
      LinesEncodable first ∧ LinesStop (linesBefore + first.length) second error := by
  induction first generalizing linesBefore with
  | nil => exact .inr ⟨List.forall_mem_nil _, stop⟩
  | cons line first inductionHypothesis =>
      cases stop with
      | here stops => exact .inl (.here stops)
      | later encodable behind =>
          rcases inductionHypothesis behind with inside | ⟨others, beyond⟩
          · exact .inl (.later encodable inside)
          · refine .inr ⟨List.forall_mem_cons.mpr ⟨encodable, others⟩, ?_⟩
            rwa [List.length_cons, Nat.add_comm first.length, ← Nat.add_assoc]

theorem literalOf_of_stopsAt {line : String} {before after : List Char} {char : Char}
    (stops : StopsAt line.toList before char after) (lineNumber : Nat) (last : Bool) :
    literalOf lineNumber line last =
      .error (.unencodable lineNumber (before.length + 1) char) := by
  rw [literalOf, Literal.escapeLine_of_stopsAt stops, Outcome.error_bind]

/-- The literals of lines fail as the lines do. -/
theorem mapM_literalOf_of_stop {lines : List String} (last : Nat → Bool) (offset : Nat)
    (stop : LinesStop (linesBefore + offset) lines error) :
    (lines.zipIdx offset).mapM (fun (line, offset) =>
      literalOf (linesBefore + offset + 1) line (last offset)) = .error error := by
  induction lines generalizing offset with
  | nil => cases stop
  | cons line lines inductionHypothesis =>
      rw [List.zipIdx_cons, List.mapM_cons]
      dsimp only
      cases stop with
      | here stops =>
          rw [literalOf_of_stopsAt stops, Outcome.error_bind]
      | later encodable behind =>
          rw [(literalOf_eq_ok_iff ..).mpr ⟨encodable, rfl⟩, Outcome.ok_bind,
            inductionHypothesis (offset + 1) behind, Outcome.error_bind]

theorem literalsOf_of_stop {segment : Segment}
    (stop : LinesStop linesBefore segment.lines error) :
    literalsOf linesBefore segment = .error error :=
  mapM_literalOf_of_stop (fun offset =>
    segment.isFinal && offset + 1 == segment.length && !segment.trailingTerminator) 0 stop

/-- The procedures of segments fail as the lines of all segments do. -/
theorem proceduresOf_of_stop (config : EmitterConfig) {segments : List Segment}
    (stop : LinesStop linesBefore (segments.flatMap Segment.lines) error) :
    proceduresOf config linesBefore segments = .error error := by
  induction segments generalizing linesBefore with
  | nil => cases stop
  | cons segment segments inductionHypothesis =>
      rw [proceduresOf]
      rw [List.flatMap_cons] at stop
      rcases stop.split with inside | ⟨encodable, beyond⟩
      · rw [literalsOf_of_stop inside, Outcome.error_bind]
      · rw [(literalsOf_eq_ok_iff ..).mpr ⟨encodable, rfl⟩, Outcome.ok_bind, Segment.length,
          inductionHypothesis beyond, Outcome.error_bind]

/-! ## Places in a text -/

/-- The line of what stands behind a text. -/
def lineBehind (before : List Char) : Nat := 1 + before.count '\n'

/-- The column of what stands behind a text: the characters behind the last line feed count. -/
def columnBehind (before : List Char) : Nat := 1 + (before.reverse.takeWhile (· != '\n')).length

theorem columnBehind_of_clean {line : List Char} (clean : '\n' ∉ line) :
    columnBehind line = line.length + 1 := by
  have all : line.reverse.takeWhile (· != '\n') = line.reverse := by
    refine List.takeWhile_eq_self_iff.mpr fun char member => ?_
    rw [bne_iff_ne]
    rintro rfl
    exact clean (List.mem_reverse.mp member)
  rw [columnBehind, all, List.length_reverse, Nat.add_comm]

/-- Nothing in front of a line feed matters for the column of what stands behind it. -/
theorem columnBehind_append_feed (front before : List Char) :
    columnBehind (front ++ '\n' :: before) = columnBehind before := by
  have same : (front ++ '\n' :: before).reverse.takeWhile (· != '\n') =
      before.reverse.takeWhile (· != '\n') := by
    rw [List.reverse_append, List.reverse_cons, List.append_assoc, List.takeWhile_append]
    split_ifs with whole
    · rw [List.singleton_append, List.takeWhile_cons_of_neg (by simp), List.append_nil]
      exact ((List.takeWhile_prefix _).eq_of_length whole).symm
    · rfl
  rw [columnBehind, columnBehind, same]

/-- The lines of a text fail at the first character of the text that no literal holds. `line` is the
beginning of the first line, last character first. -/
theorem linesStop_linesAfter {line rest before after : List Char} {char : Char}
    (clean : '\n' ∉ line) (encodable : ∀ earlier ∈ line, Encodable earlier)
    (stops : StopsAt rest before char after) :
    LinesStop linesBefore ((Segment.linesAfter line rest).map String.ofList)
      (.unencodable (linesBefore + lineBehind before) (columnBehind (line.reverse ++ before))
        char) := by
  obtain ⟨rfl, kept, refused⟩ := stops
  -- Along what stands in front of the character: a line feed there ends the line that was begun and
  -- sets the column back, and anything else joins the beginning of the line.
  induction before generalizing line linesBefore with
  | nil =>
      have plain : char ≠ '\n' := by
        rintro rfl
        exact refused (by decide)
      have whole : '\n' ∉ line.reverse := by rwa [List.mem_reverse]
      obtain ⟨more, others, split⟩ :=
        @Segment.exists_linesAfter_eq (char :: line) after (.inl (List.cons_ne_nil _ _))
      rw [List.nil_append, Segment.linesAfter, if_neg plain, split, List.append_nil,
        columnBehind_of_clean whole]
      have own : StopsAt (String.ofList ((char :: line).reverse ++ more)).toList line.reverse char
          more :=
        ⟨by simp, fun earlier member => encodable earlier (List.mem_reverse.mp member), refused⟩
      exact .here own
  | cons first before inductionHypothesis =>
      obtain ⟨own, others⟩ := List.forall_mem_cons.mp kept
      rw [List.cons_append, Segment.linesAfter]
      by_cases feed : first = '\n'
      · subst feed
        have behind : LinesStop (linesBefore + 1)
            ((Segment.linesAfter [] (before ++ char :: after)).map String.ofList)
            (.unencodable (linesBefore + 1 + lineBehind before) (columnBehind before) char) :=
          inductionHypothesis List.not_mem_nil (List.forall_mem_nil _) others
        have place : linesBefore + lineBehind ('\n' :: before) =
            linesBefore + 1 + lineBehind before := by
          rw [lineBehind, lineBehind, List.count_cons_self]
          omega
        rw [if_pos rfl, List.map_cons, columnBehind_append_feed, place]
        exact .later (by simpa using encodable) behind
      · have behind : LinesStop linesBefore
            ((Segment.linesAfter (first :: line) (before ++ char :: after)).map String.ofList)
            (.unencodable (linesBefore + lineBehind before)
              (columnBehind ((first :: line).reverse ++ before)) char) :=
          inductionHypothesis (List.not_mem_cons_of_ne_of_not_mem (Ne.symm feed) clean)
            (List.forall_mem_cons.mpr ⟨own, encodable⟩) others
        have place : lineBehind (first :: before) = lineBehind before := by
          rw [lineBehind, lineBehind, List.count_cons_of_ne feed]
        rw [if_neg feed, place]
        simpa using behind

/-- A text is emitted as far as its first character that no literal holds. -/
theorem emit_of_stopsAt (emitter : Emitter) {text : String} {before after : List Char}
    {char : Char} (stops : StopsAt text.toList before char after) :
    emitter.emit text = .error (.unencodable (lineBehind before) (columnBehind before) char) := by
  have stop : LinesStop 0 ((Segment.linesAfter [] text.toList).map String.ofList)
      (.unencodable (0 + lineBehind before) (columnBehind before) char) :=
    linesStop_linesAfter List.not_mem_nil (List.forall_mem_nil _) stops
  rw [Nat.zero_add, ← Segment.linesOf, ← flatMap_lines_segmentsOf emitter.config] at stop
  rw [emit, ofText_eq, Outcome.ok_bind, proceduresOf_of_stop _ stop, Outcome.error_bind]

/-- Emission fails exactly where the text has a first character that no literal holds. -/
theorem emit_eq_error_iff (emitter : Emitter) (text : String) (error : EmitError) :
    emitter.emit text = .error error ↔
      ∃ before char after, StopsAt text.toList before char after ∧
        error = .unencodable (lineBehind before) (columnBehind before) char := by
  constructor
  · intro failed
    have offends : ∃ char ∈ text.toList, ¬Encodable char := by
      by_contra none
      push Not at none
      rw [(emit_eq_ok_iff ..).mpr ⟨none, rfl⟩] at failed
      cases failed
    obtain ⟨before, char, after, stops⟩ := Literal.exists_stopsAt offends
    rw [emit_of_stopsAt emitter stops] at failed
    exact ⟨before, char, after, stops, (Except.error.inj failed).symm⟩
  · rintro ⟨before, char, after, stops, rfl⟩
    exact emit_of_stopsAt emitter stops

end Emitter

namespace EmitterConfig

open Literal (StopsAt)
open Emitter (lineBehind columnBehind)

/-- Emission fails exactly for texts with a character that no literal holds, and names the first one
with its place in the whole text. So all configurations that can be used fail in the same way. -/
theorem emit_stops_at_first (config : EmitterConfig) (valid : config.Valid) (text : String) :
    ((∃ error, config.emit text = .error error) ↔
      ∃ char ∈ text.toList,
        char = '\x7f' ∨ char.toNat < 0x20 ∧ char ≠ '\t' ∧ char ≠ '\n' ∧ char ≠ '\r') ∧
    (∀ error, config.emit text = .error error ↔
      ∃ before char after, StopsAt text.toList before char after ∧
        error = .unencodable (lineBehind before) (columnBehind before) char) ∧
    ∀ other : EmitterConfig, other.Valid →
      ∀ error, other.emit text = .error error ↔ config.emit text = .error error := by
  have outcome := Emitter.emit_eq_error_iff ⟨config, valid⟩ text
  rw [emit_of_valid valid]
  refine ⟨⟨?_, ?_⟩, outcome, ?_⟩
  · rintro ⟨error, failed⟩
    obtain ⟨before, char, after, stops, -⟩ := (outcome error).mp failed
    exact ⟨char, by simp [stops.split], (Literal.not_encodable_iff char).mp stops.refused⟩
  · rintro ⟨char, member, offends⟩
    obtain ⟨before, first, after, stops⟩ :=
      Literal.exists_stopsAt ⟨char, member, (Literal.not_encodable_iff char).mpr offends⟩
    exact ⟨_, (outcome _).mpr ⟨before, first, after, stops, rfl⟩⟩
  · intro other usable error
    rw [emit_of_valid usable, outcome, Emitter.emit_eq_error_iff]

/-- One line to a segment, in the second target. -/
def singleLines : EmitterConfig := { ofTarget .typeScript with maxLines := 1 }

/-- A carriage return, characters of several bytes and a tab stand in front of the first of two
characters that no literal holds. -/
theorem bell_stops :
    singleLines.Valid ∧ standard.Valid ∧
      singleLines.emit "one\r\né𝄞\t\x07\n\x7f" = .error (.unencodable 2 4 '\x07') ∧
      standard.emit "one\r\né𝄞\t\x07\n\x7f" = .error (.unencodable 2 4 '\x07') := by
  have valid : singleLines.Valid := by decide
  have usual : standard.Valid := by decide
  have stops : StopsAt "one\r\né𝄞\t\x07\n\x7f".toList "one\r\né𝄞\t".toList '\x07'
      "\n\x7f".toList := ⟨by decide, by decide, by decide⟩
  obtain ⟨-, outcome, same⟩ := emit_stops_at_first singleLines valid "one\r\né𝄞\t\x07\n\x7f"
  have failed := (outcome _).mpr ⟨_, _, _, stops, rfl⟩
  exact ⟨valid, usual, failed, (same standard usual _).mpr failed⟩

end EmitterConfig

end Flowpress
