import Flowpress.Proofs.Emission.Canonical
import Flowpress.Proofs.Emission.Segments
import Flowpress.Proofs.Emission.Units

/-!
# How units present texts

A unit has one procedure for each segment of its text, with the number of the segment
and a name made of it, and one literal for each line of the segment. All literals end
with the escape of a line feed, but the last one of a text that does not end with a
line feed.

What a configuration says changes how this is presented, and not what it is: the
literals of all procedures together are the same for every configuration that can be
used, and they are cut in the same way where the same number of lines is allowed.
-/

namespace Flowpress

namespace Literal

/-- What is written for a line that is left open is its escaping, and otherwise the escape of a line
feed follows. -/
theorem exists_escape_of_written {line : String} (encodable : ∀ char ∈ line.toList, Encodable char)
    (leftOpen : Bool) :
    ∃ escaped, escape line = .ok escaped ∧
      written (line.toList ++ if leftOpen then [] else ['\n']) =
        escaped ++ if leftOpen then "" else "\\n" := by
  refine ⟨written line.toList, (escape_eq_ok_iff ..).mpr ⟨encodable, toList_written _⟩, ?_⟩
  rw [written, List.flatMap_append, String.ofList_append]
  cases leftOpen <;> rfl

end Literal

/-- What the procedure of a segment owes to it under a configuration. `number` is the place of both,
and `leftOpen` says that no line feed follows the last line of the segment. -/
structure Presents (config : EmitterConfig) (number : Nat) (leftOpen : Bool) (segment : Segment)
    (procedure : Procedure) : Prop where
  index : procedure.index = number
  name : procedure.name = config.partPrefix ++ toString number
  count : procedure.literals.length = segment.lines.length
  bounded : procedure.literals.length ≤ config.maxLines
  literals : ∀ place line literal, segment.lines[place]? = some line →
    procedure.literals[place]? = some literal →
      ∃ escaped, Literal.escape line = .ok escaped ∧
        literal = escaped ++
          if leftOpen && place + 1 == segment.lines.length then "" else "\\n"

namespace Emitter

open Literal (Encodable)

variable {config : EmitterConfig} {text : String}

theorem ofText_of_valid (valid : config.Valid) :
    Segment.ofText text config.maxLines = .ok (segmentsOf config text) :=
  ofText_eq ⟨config, valid⟩ text

/-- No segment of a text has more lines than are allowed. -/
theorem length_lines_le (valid : config.Valid) {segment : Segment}
    (among : segment ∈ segmentsOf config text) : segment.lines.length ≤ config.maxLines := by
  have positive := ((EmitterConfig.valid_iff _).mp valid).positive
  have regular := Segment.regular_numbered text (config.maxLines - 1)
  rw [Nat.sub_add_cancel positive] at regular
  exact regular.length_le segment among

/-- The literals of a segment by the places of its lines. -/
theorem getElem?_literals (segment : Segment) (place : Nat) :
    (procedureOf config segment).literals[place]? = segment.lines[place]?.map fun line =>
      Literal.written (line.toList ++
        if !(!segment.isFinal || segment.trailingTerminator) && place + 1 == segment.lines.length
        then [] else ['\n']) := by
  rw [procedureOf, Segment.contents, List.getElem?_map, Segment.getElem?_pieces, List.getElem?_map,
    Option.map_map, Option.map_map, List.length_map]
  rfl

/-- The procedure of a segment of a text presents it. -/
theorem presents_procedureOf (valid : config.Valid)
    (encodable : ∀ char ∈ text.toList, Encodable char) {number : Nat} {segment : Segment}
    (found : (segmentsOf config text)[number]? = some segment) :
    Presents config number
      (decide (number + 1 = (segmentsOf config text).length) && !Segment.endsLine text) segment
      (procedureOf config segment) := by
  have among : segment ∈ segmentsOf config text := List.mem_of_getElem? found
  obtain ⟨index, final, terminator⟩ := Segment.getElem?_numbered found
  have leftOpen : (!(!segment.isFinal || segment.trailingTerminator)) =
      (decide (number + 1 = (segmentsOf config text).length) && !Segment.endsLine text) := by
    rw [segmentsOf, Segment.length_numbered, ← final, terminator]
    cases segment.isFinal <;> rfl
  have count : (procedureOf config segment).literals.length = segment.lines.length := by
    simp [procedureOf, Segment.contents]
  refine ⟨index, ?_, count, count ▸ length_lines_le valid among, ?_⟩
  · rw [procedureOf, index]
    rfl
  · intro place line literal standsThere isThere
    have own : ∀ char ∈ line.toList, Encodable char :=
      (linesEncodable_segmentsOf_iff config text).mpr encodable segment among line
        (List.mem_of_getElem? standsThere)
    rw [getElem?_literals, standsThere, leftOpen] at isThere
    rw [← Option.some.inj isThere]
    exact Literal.exists_escape_of_written own _

/-- The number of lines of a unit is the number of lines of its text. -/
theorem lineCount_unitOf (config : EmitterConfig) (text : String) :
    (unitOf config text).lineCount = (Segment.linesOf text).length := by
  rw [← flatMap_lines_segmentsOf config, List.length_flatMap, GeneratedUnit.lineCount,
    ← List.sum_eq_foldl]
  rfl

/-- Where the same number of lines is allowed, texts are cut in the same way. -/
theorem segmentsOf_of_maxLines_eq {other : EmitterConfig} (same : other.maxLines = config.maxLines)
    (text : String) : segmentsOf other text = segmentsOf config text := by
  rw [segmentsOf, segmentsOf, same]

end Emitter

namespace EmitterConfig

open Emitter (unitOf segmentsOf)

/-- Units are complete, bounded and independent of presentation. The unit of a text has one procedure
for each segment of the text, which presents the segment, and counts the lines of the text. Every
other configuration that can be used gives the same literals one after another, and if it allows
the same number of lines, the same segments with the same literals each. -/
theorem emit_complete (config : EmitterConfig) (valid : config.Valid) (text : String)
    (unit : GeneratedUnit) (emitted : config.emit text = .ok unit) :
    Segment.ofText text config.maxLines = .ok unit.segments ∧
    unit.procedures.length = unit.segments.length ∧
    (∀ number segment procedure, unit.segments[number]? = some segment →
      unit.procedures[number]? = some procedure →
        Presents config number
          (decide (number + 1 = unit.segments.length) && !Segment.endsLine text) segment
          procedure) ∧
    unit.segments.flatMap Segment.lines = Segment.linesOf text ∧
    unit.lineCount =
      text.toList.count '\n' + (if text = "" ∨ Segment.endsLine text then 0 else 1) ∧
    ∀ other : EmitterConfig, other.Valid → ∃ otherUnit, other.emit text = .ok otherUnit ∧
      otherUnit.procedures.flatMap Procedure.literals =
        unit.procedures.flatMap Procedure.literals ∧
      (other.maxLines = config.maxLines → otherUnit.segments = unit.segments ∧
        otherUnit.procedures.map Procedure.literals =
          unit.procedures.map Procedure.literals) := by
  obtain ⟨-, encodable, rfl⟩ := (emit_eq_ok_iff config text unit).mp emitted
  refine ⟨Emitter.ofText_of_valid valid, List.length_map _, ?_, ?_, ?_, ?_⟩
  · intro number segment procedure standsThere isThere
    have same : Emitter.procedureOf config segment = procedure := by
      have presented := congrArg (Option.map (Emitter.procedureOf config)) standsThere
      rw [← List.getElem?_map] at presented
      exact Option.some.inj (presented.symm.trans isThere)
    exact same ▸ Emitter.presents_procedureOf valid encodable standsThere
  · exact Emitter.flatMap_lines_segmentsOf config text
  · rw [Emitter.lineCount_unitOf, Segment.length_linesOf]
  · intro other usable
    refine ⟨unitOf other text, (emit_eq_ok_iff ..).mpr ⟨usable, encodable, rfl⟩, ?_, ?_⟩
    · rw [Emitter.flatMap_literals_procedures, Emitter.flatMap_literals_procedures]
    · intro same
      have segments := Emitter.segmentsOf_of_maxLines_eq same text
      refine ⟨segments, ?_⟩
      simp only [unitOf, segments, List.map_map]
      rfl

/-- A text that ends without a line feed, cut into pairs of lines and, in the other target, not at
all. -/
theorem openLine_complete :
    twoLines.Valid ∧ standard.Valid ∧
      ∃ unit, twoLines.emit "é\"\n\nlast" = .ok unit ∧ unit.lineCount = 3 ∧
        (∃ segment procedure, unit.segments[1]? = some segment ∧
          unit.procedures[1]? = some procedure ∧ segment.lines = ["last"] ∧
          Presents twoLines 1 true segment procedure) ∧
        ∃ other, standard.emit "é\"\n\nlast" = .ok other ∧
          other.procedures.flatMap Procedure.literals =
            unit.procedures.flatMap Procedure.literals := by
  have valid : twoLines.Valid := by decide
  have usual : standard.Valid := by decide
  have emitted : twoLines.emit "é\"\n\nlast" = .ok (unitOf twoLines "é\"\n\nlast") :=
    (emit_eq_ok_iff ..).mpr ⟨valid, by decide, rfl⟩
  obtain ⟨-, -, presents, -, lines, independent⟩ := emit_complete twoLines valid _ _ emitted
  obtain ⟨other, alsoEmitted, same, -⟩ := independent standard usual
  have segment : (unitOf twoLines "é\"\n\nlast").segments[1]? =
      some ⟨1, ["last"], true, false⟩ := by decide +kernel
  have procedure : (unitOf twoLines "é\"\n\nlast").procedures[1]? =
      some ⟨1, "piece_1", ["last"]⟩ := by decide +kernel
  have count : (unitOf twoLines "é\"\n\nlast").segments.length = 2 := by decide +kernel
  have presented := presents _ _ _ segment procedure
  rw [count] at presented
  exact ⟨valid, usual, _, emitted, lines, ⟨_, _, segment, procedure, rfl, presented⟩, other,
    alsoEmitted, same⟩

end EmitterConfig

end Flowpress
