import Flowpress.Proofs.Document.RoundTrip
import Flowpress.Proofs.Emission.Refusals
import Flowpress.Proofs.Emission.Segments

/-!
# Which documents can be emitted

A document can be emitted exactly if U+007F is in no text that it mentions: no
other character that literals refuse gets into its text, and the line feeds of a
layout stand between its lines. The text begins and ends with a brace, so no line
feed ends it, and in the compact layout it is one line.
-/

namespace Flowpress

open Json (Layout Printable)

namespace Document

variable {layout : Layout} {document : Document}

/-! ## Lines of a written document -/

/-- No line of a written document has a character below U+0020. -/
theorem le_of_mem_linesOf {line : String} (lines : line ∈ Segment.linesOf (document.write layout))
    {char : Char} (inside : char ∈ line.toList) : 0x20 ≤ char.toNat := by
  have found : line.toList ∈ Segment.linesAfter [] (document.write layout).toList := by
    rw [← Segment.map_toList_linesOf]
    exact List.mem_map_of_mem lines
  have plain : char ≠ '\n' := by
    rintro rfl
    exact Segment.newline_not_mem_linesAfter List.not_mem_nil found inside
  have among := (Segment.mem_linesAfter plain).mp ⟨_, found, inside⟩
  refine Nat.le_of_not_lt fun control => plain ?_
  exact (layout_feed_of_control (by simpa using among) control).2

theorem exists_write_eq (layout : Layout) (document : Document) :
    ∃ inner, (document.write layout).toList = '{' :: (inner ++ ['}']) := by
  cases document with
  | node properties collections =>
      rw [write, String.toList_ofList, writeAt, Layout.enclose_eq]
      exact ⟨_, by rw [← List.append_assoc]⟩

/-- No line feed ends a written document. -/
theorem endsLine_write : Segment.endsLine (document.write layout) = false := by
  obtain ⟨inner, text⟩ := exists_write_eq layout document
  simp [Segment.endsLine, text, List.getLast?_cons]

/-- In the compact layout, a written document is one line. -/
theorem linesOf_write_compact :
    Segment.linesOf (document.write .compact) = [document.write .compact] := by
  have clean : '\n' ∉ (document.write .compact).toList := fun among =>
    nomatch (layout_feed_of_control among (by decide)).1
  obtain ⟨inner, text⟩ := exists_write_eq .compact document
  have filled : (document.write .compact).toList ≠ [] := by simp [text]
  rw [Segment.linesOf, Segment.linesAfter_of_clean [] clean, List.reverse_nil, List.nil_append,
    if_neg filled, List.map_singleton, String.ofList_toList]

end Document

namespace Emitter

/-- A text of one line without a line feed behind it is one segment. -/
theorem segmentsOf_of_line (config : EmitterConfig) {text : String}
    (line : Segment.linesOf text = [text]) (continues : Segment.endsLine text = false) :
    segmentsOf config text = [⟨0, [text], true, false⟩] := by
  have filled : Segment.linesOf text ≠ [] := by simp [line]
  rw [segmentsOf, continues, Segment.chunksOf_of_linesOf_ne_nil filled, line, Segment.groups,
    List.take_nil, List.drop_nil, Segment.groups, Segment.numbered]

/-- The last segment of a text says whether a line feed ends the text. -/
theorem exists_getLast?_segmentsOf (config : EmitterConfig) (text : String) :
    ∃ last, (segmentsOf config text).getLast? = some last ∧ last.isFinal = true ∧
      last.trailingTerminator = Segment.endsLine text := by
  have regular := Segment.regular_numbered text (config.maxLines - 1)
  refine ⟨_, List.getLast?_eq_some_getLast regular.nonempty, regular.final, ?_⟩
  rw [← regular.terminates_eq]
  exact Segment.terminates_numbered _ _ (Segment.chunksOf_ne_nil text _)

end Emitter

namespace Codec

/-- A document has a unit exactly if the characters of its text can be emitted. -/
theorem emit_json_eq_ok_iff (layout : Layout) (emitter : Emitter) (document : Document)
    (unit : GeneratedUnit) :
    (json layout).emit emitter document = .ok unit ↔
      Json.AllEncodable (document.write layout).toList ∧
        Emitter.unitOf emitter.config (document.write layout) = unit := by
  refine Iff.trans ?_ (Emitter.emit_eq_ok_iff emitter (document.write layout) unit)
  simp only [emit, json, Except.mapError, Outcome.ok_bind]
  cases emitter.emit (document.write layout) <;> simp

/-- A document that has no unit is refused for the first character of its text that no literal
holds. -/
theorem emit_json_eq_error_iff (layout : Layout) (emitter : Emitter) (document : Document)
    (error : DocumentError Json.Refusal) :
    (json layout).emit emitter document = .error error ↔
      ∃ refused, emitter.emit (document.write layout) = .error refused ∧
        error = .emission refused := by
  simp only [emit, json, Except.mapError, Outcome.ok_bind]
  cases emitter.emit (document.write layout) <;> simp [eq_comm]

/-- Under a configuration that can be used, a document is emitted, in either layout, exactly if
U+007F is in no text that it mentions, and otherwise refused for that character. The characters
below U+0020 are no obstacle: strings write them as printable escapes, no written document has one
but the line feeds of the indented layout, and the lines that literals are written for have none at
all. The unit of a document in the compact layout has one segment, with the text as its only line;
in neither layout does a line feed end the last segment. -/
theorem emit_iff_unmentioned (config : EmitterConfig) (valid : config.Valid) (document : Document) :
    ∃ emitter, Emitter.ofConfig config = .ok emitter ∧
      (∀ control : Char, control.toNat < 0x20 →
        ∃ rest, Json.escapeChar control = '\\' :: rest ∧ ∀ char ∈ rest, Printable char) ∧
      (∀ text : String, ∀ char ∈ Json.writeString text, 0x20 ≤ char.toNat) ∧
      ∀ layout : Layout,
        ((∃ unit, (json layout).emit emitter document = .ok unit) ↔
          ∀ text, document.Mentions text → '\x7f' ∉ text.toList) ∧
        (∀ error, (json layout).emit emitter document = .error error →
          ∃ line column, error = .emission (.unencodable line column '\x7f')) ∧
        (∀ char ∈ (document.write layout).toList, char.toNat < 0x20 →
          layout = .indented ∧ char = '\n') ∧
        (∀ segments, Segment.ofText (document.write layout) config.maxLines = .ok segments →
          ∀ segment ∈ segments, ∀ line ∈ segment.lines, ∀ char ∈ line.toList,
            0x20 ≤ char.toNat) ∧
        ∀ unit, (json layout).emit emitter document = .ok unit →
          (layout = .compact →
            unit.segments = [⟨0, [document.write .compact], true, false⟩]) ∧
          ∃ last, unit.segments.getLast? = some last ∧ last.isFinal = true ∧
            last.trailingTerminator = false := by
  let emitter : Emitter := ⟨config, valid⟩
  refine ⟨emitter, Emitter.ofConfig_eq_ok valid, fun _ => Json.exists_escapeChar_eq,
    fun _ _ => Json.le_of_mem_writeString, fun layout => ⟨?_, ?_, ?_, ?_, ?_⟩⟩
  · rw [← document.allEncodable_write_iff layout]
    simp only [emit_json_eq_ok_iff, exists_and_left, exists_eq', and_true]
  · intro error failed
    obtain ⟨refused, stopped, rfl⟩ := (emit_json_eq_error_iff ..).mp failed
    obtain ⟨before, char, after, stops, rfl⟩ := (Emitter.emit_eq_error_iff ..).mp stopped
    have among : char ∈ (document.write layout).toList := by simp [stops.split]
    rcases (Literal.not_encodable_iff char).mp stops.refused with rfl | ⟨control, -, plain, -⟩
    · exact ⟨_, _, rfl⟩
    · exact absurd (Document.layout_feed_of_control among control).2 plain
  · exact fun char => Document.layout_feed_of_control
  · intro segments cut segment member line inside char
    obtain rfl := Except.ok.inj ((Emitter.ofText_eq emitter _).symm.trans cut)
    have own : line ∈ Segment.linesOf (document.write layout) := by
      rw [← Emitter.flatMap_lines_segmentsOf config]
      exact List.mem_flatMap.mpr ⟨segment, member, inside⟩
    exact Document.le_of_mem_linesOf own
  · intro unit emitted
    obtain ⟨-, rfl⟩ := (emit_json_eq_ok_iff ..).mp emitted
    refine ⟨?_, ?_⟩
    · rintro rfl
      exact Emitter.segmentsOf_of_line config Document.linesOf_write_compact Document.endsLine_write
    · obtain ⟨last, found, final, trailing⟩ :=
        Emitter.exists_getLast?_segmentsOf config (document.write layout)
      exact ⟨last, found, final, trailing.trans Document.endsLine_write⟩

/-- A document with the character U+007F in a name two documents down. -/
def erased : Document :=
  .node [("kind", .string "\x01\x1f")]
    [("tables", [.node [("columns", .array [.object [("a\x7fb", .null)]])] []])]

theorem shop_emitted_erased_refused :
    EmitterConfig.twoLines.Valid ∧
    ∃ emitter, Emitter.ofConfig EmitterConfig.twoLines = .ok emitter ∧
      (∃ unit, (json .compact).emit emitter shop = .ok unit ∧
        unit.segments = [⟨0, [shop.write .compact], true, false⟩]) ∧
      ∃ line column, (json .indented).emit emitter erased =
        .error (.emission (.unencodable line column '\x7f')) := by
  have valid : EmitterConfig.twoLines.Valid := by decide
  obtain ⟨emitter, found, -, -, shops⟩ := emit_iff_unmentioned _ valid shop
  obtain ⟨other, same, -, -, erasures⟩ := emit_iff_unmentioned _ valid erased
  obtain rfl : emitter = other := Except.ok.inj (found.symm.trans same)
  obtain ⟨emitted, -, -, -, segments⟩ := shops .compact
  obtain ⟨refused, place, -⟩ := erasures .indented
  obtain ⟨unit, made⟩ := emitted.mpr (shop.unmentioned_iff.mp (by decide))
  have mentioned : erased.Mentions "a\x7fb" :=
    .child List.mem_cons_self List.mem_cons_self (.value List.mem_cons_self (by decide))
  refine ⟨valid, emitter, found, ⟨unit, made, (segments unit made).1 rfl⟩, ?_⟩
  cases outcome : (json .indented).emit emitter erased with
  | ok unit => exact absurd (by decide) (refused.mp ⟨unit, outcome⟩ _ mentioned)
  | error error =>
      obtain ⟨line, column, rfl⟩ := place error outcome
      exact ⟨line, column, rfl⟩

end Codec

end Flowpress
