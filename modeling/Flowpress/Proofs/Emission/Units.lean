import Flowpress.Emission.Emitter
import Flowpress.Proofs.Outcome
import Flowpress.Proofs.Emission.Lines
import Flowpress.Proofs.Emission.Literals
import Flowpress.Proofs.Emission.Names

/-!
# Units and the texts they hold

A unit exists for a text exactly if every character of the text is encodable, and
then there is one procedure for each segment, whose literals are written for the
lines of the segment with what follows them. What the driver appends is therefore
what the segments hold, one after another: the text.
-/

namespace Flowpress

open Literal (Encodable written)

namespace Emitter

/-- All characters of some lines are encodable. -/
def LinesEncodable (lines : List String) : Prop :=
  ∀ line ∈ lines, ∀ char ∈ line.toList, Encodable char

theorem literalOf_eq_ok_iff (lineNumber : Nat) (line : String) (last : Bool) (literal : String) :
    literalOf lineNumber line last = .ok literal ↔
      (∀ char ∈ line.toList, Encodable char) ∧
        written (line.toList ++ if last then [] else ['\n']) = literal := by
  unfold literalOf
  simp only [Outcome.bind_eq_ok_iff, Literal.escapeLine_eq_ok_iff, and_assoc, exists_and_left,
    exists_eq_left, Except.ok.injEq]
  cases last <;> simp [written, Literal.escapeChar]

/-- Of the lines of a segment, only the last one can be left open. -/
theorem map_zipIdx_eq_pieces (isFinal trailingTerminator : Bool) (lines : List String) :
    lines.zipIdx.map (fun (line, offset) =>
        line.toList ++
          if isFinal && offset + 1 == lines.length && !trailingTerminator then [] else ['\n']) =
      Segment.pieces (!isFinal || trailingTerminator) (lines.map String.toList) := by
  refine List.ext_getElem? fun place => ?_
  rw [List.getElem?_map, List.getElem?_zipIdx, Option.map_map, Segment.getElem?_pieces,
    List.getElem?_map, Option.map_map, List.length_map]
  refine congrArg (Option.map · _) (funext fun line => ?_)
  cases isFinal <;> cases trailingTerminator <;> simp

/-- The literals of a segment exist exactly if its lines are encodable, and are written for what it
holds. -/
theorem literalsOf_eq_ok_iff (linesBefore : Nat) (segment : Segment) (literals : List String) :
    literalsOf linesBefore segment = .ok literals ↔
      LinesEncodable segment.lines ∧ segment.contents.map written = literals := by
  have numbered : segment.lines.zipIdx.map Prod.fst = segment.lines := List.zipIdx_map_fst 0 _
  unfold literalsOf
  rw [Outcome.mapM_eq_ok_iff_of_guarded fun _ _ => literalOf_eq_ok_iff .., Segment.contents,
    ← map_zipIdx_eq_pieces, List.map_map]
  refine and_congr_left fun _ => ?_
  rw [LinesEncodable, ← numbered, List.forall_mem_map, numbered]

/-- The procedure of a segment. -/
def procedureOf (config : EmitterConfig) (segment : Segment) : Procedure where
  index := segment.index
  name := config.partName segment.index
  literals := segment.contents.map written

theorem proceduresOf_eq_ok_iff (config : EmitterConfig) (linesBefore : Nat)
    (segments : List Segment) (procedures : List Procedure) :
    proceduresOf config linesBefore segments = .ok procedures ↔
      (∀ segment ∈ segments, LinesEncodable segment.lines) ∧
        segments.map (procedureOf config) = procedures := by
  induction segments generalizing linesBefore procedures with
  | nil => simp [proceduresOf]
  | cons segment segments inductionHypothesis =>
      rw [proceduresOf]
      simp only [Outcome.bind_eq_ok_iff, literalsOf_eq_ok_iff, inductionHypothesis, and_assoc,
        exists_and_left, exists_eq_left', List.forall_mem_cons, List.map_cons, Except.ok.injEq]
      rfl

/-- The segments of a text under a configuration. -/
def segmentsOf (config : EmitterConfig) (text : String) : List Segment :=
  Segment.numbered (Segment.endsLine text) 0 (Segment.chunksOf text (config.maxLines - 1))

theorem ofText_eq (emitter : Emitter) (text : String) :
    Segment.ofText text emitter.config.maxLines = .ok (segmentsOf emitter.config text) := by
  have positive := ((EmitterConfig.valid_iff _).mp emitter.valid).positive
  obtain ⟨size, same⟩ := Nat.exists_eq_add_one_of_ne_zero (Nat.ne_of_gt positive)
  rw [segmentsOf, same, Segment.ofText_succ, Nat.add_sub_cancel]

/-- The unit of a text under a configuration. -/
def unitOf (config : EmitterConfig) (text : String) : GeneratedUnit :=
  let procedures := (segmentsOf config text).map (procedureOf config)
  { target := config.target
    driverName := config.driverName
    segments := segmentsOf config text
    procedures
    source := Source.file config procedures }

/-- The segments of a text hold its lines. -/
theorem flatMap_lines_segmentsOf (config : EmitterConfig) (text : String) :
    (segmentsOf config text).flatMap Segment.lines = Segment.linesOf text := by
  rw [segmentsOf, Segment.flatMap_lines_numbered, Segment.flatten_chunksOf]

/-- The lines of all segments are encodable exactly if the characters of the text are. -/
theorem linesEncodable_segmentsOf_iff (config : EmitterConfig) (text : String) :
    (∀ segment ∈ segmentsOf config text, LinesEncodable segment.lines) ↔
      ∀ char ∈ text.toList, Encodable char := by
  have found (char : Char) (plain : char ≠ '\n') :
      (∃ line ∈ Segment.linesOf text, char ∈ line.toList) ↔ char ∈ text.toList := by
    have members := @Segment.mem_linesAfter [] text.toList char plain
    rw [← Segment.map_toList_linesOf] at members
    simpa using members
  have together : (∀ segment ∈ segmentsOf config text, LinesEncodable segment.lines) ↔
      LinesEncodable (Segment.linesOf text) := by
    simp only [LinesEncodable, ← flatMap_lines_segmentsOf config, List.mem_flatMap]
    exact ⟨fun each line ⟨segment, among, holds⟩ => each segment among line holds,
      fun each segment among line holds => each line ⟨segment, among, holds⟩⟩
  rw [together]
  constructor
  · intro encodable char member
    by_cases feed : char = '\n'
    · subst feed
      exact ⟨by decide, by simp⟩
    · obtain ⟨line, holds, inside⟩ := (found char feed).mpr member
      exact encodable line holds char inside
  · intro encodable line holds char inside
    by_cases feed : char = '\n'
    · subst feed
      exact ⟨by decide, by simp⟩
    · exact encodable char ((found char feed).mp ⟨line, holds, inside⟩)

/-- A text has a unit exactly if all its characters are encodable. -/
theorem emit_eq_ok_iff (emitter : Emitter) (text : String) (unit : GeneratedUnit) :
    emitter.emit text = .ok unit ↔
      (∀ char ∈ text.toList, Encodable char) ∧ unitOf emitter.config text = unit := by
  unfold emit
  dsimp only
  rw [ofText_eq, Outcome.ok_bind, Outcome.bind_eq_ok_iff, ← linesEncodable_segmentsOf_iff]
  simp only [proceduresOf_eq_ok_iff, and_assoc, exists_and_left, exists_eq_left', Except.ok.injEq]
  rfl

/-! ## Running -/

/-- The procedures of a text are numbered from zero. -/
theorem map_index_procedures (config : EmitterConfig) (text : String) :
    (unitOf config text).procedures.map Procedure.index =
      List.range (unitOf config text).procedures.length := by
  have numbers : (unitOf config text).procedures.map Procedure.index =
      (segmentsOf config text).map Segment.index := by
    simp [unitOf, procedureOf]
  have lengths : (unitOf config text).procedures.length = (segmentsOf config text).length :=
    List.length_map ..
  rw [numbers, lengths, segmentsOf, Segment.map_index_numbered, Segment.length_numbered,
    List.range_eq_range']

/-- The procedures of a text stand in the order in which they run. -/
theorem inOrder_procedures (config : EmitterConfig) (text : String) :
    GeneratedUnit.inOrder (unitOf config text).procedures = (unitOf config text).procedures := by
  have ascending : ((unitOf config text).procedures.map Procedure.index).Pairwise (· ≤ ·) := by
    rw [map_index_procedures]
    exact List.pairwise_le_range
  refine List.mergeSort_of_pairwise ?_
  simpa [List.pairwise_map] using ascending

/-- The literals of a text are written for its lines with what follows them. -/
theorem flatMap_literals_procedures (config : EmitterConfig) (text : String) :
    (unitOf config text).procedures.flatMap Procedure.literals =
      (Segment.pieces (Segment.endsLine text)
        ((Segment.linesOf text).map String.toList)).map written := by
  rw [← Segment.flatMap_contents_ofText text (config.maxLines - 1)]
  simp [unitOf, segmentsOf, procedureOf, List.flatMap_map, List.map_flatMap]

/-- The driver of the unit of a text builds the text. -/
theorem runDriver_unitOf (config : EmitterConfig) (text : String) :
    (unitOf config text).runDriver = .ok text := by
  unfold GeneratedUnit.runDriver GeneratedUnit.runProcedures
  rw [inOrder_procedures, flatMap_literals_procedures, Literal.join_unescape_written,
    Segment.flatten_pieces_linesOf, String.ofList_toList]

theorem ofConfig_eq_ok {config : EmitterConfig} (valid : config.Valid) :
    ofConfig config = .ok ⟨config, valid⟩ := by
  unfold ofConfig
  split
  · rfl
  · next error refused => exact absurd (valid.symm.trans refused) (by simp)

end Emitter

namespace EmitterConfig

theorem emit_of_valid {config : EmitterConfig} (valid : config.Valid) (text : String) :
    config.emit text = (⟨config, valid⟩ : Emitter).emit text := by
  rw [emit, Emitter.ofConfig_eq_ok valid, Outcome.ok_bind]

/-- A text has a unit under a configuration exactly if the configuration can be used and all
characters are encodable. -/
theorem emit_eq_ok_iff (config : EmitterConfig) (text : String) (unit : GeneratedUnit) :
    config.emit text = .ok unit ↔
      config.Valid ∧ (∀ char ∈ text.toList, Encodable char) ∧ Emitter.unitOf config text = unit := by
  by_cases valid : config.Valid
  · rw [emit_of_valid valid, Emitter.emit_eq_ok_iff]
    exact (and_iff_right valid).symm
  · refine iff_of_false (fun emitted => ?_) fun usable => valid usable.1
    obtain ⟨emitter, built, _⟩ := Outcome.bind_eq_ok_iff.mp emitted
    unfold Emitter.ofConfig at built
    split at built
    · next passes => exact valid passes
    · cases built

/-- Emission loses nothing: under a configuration that can be used, every text of encodable
characters has a unit, and the driver of the unit builds the text. -/
theorem runDriver_emit (config : EmitterConfig) (valid : config.Valid) (text : String)
    (encodable : ∀ char ∈ text.toList, Encodable char) :
    ∃ unit, config.emit text = .ok unit ∧ unit.runDriver = .ok text := by
  refine ⟨Emitter.unitOf config text, ?_, Emitter.runDriver_unitOf config text⟩
  rw [emit_of_valid valid, Emitter.emit_eq_ok_iff]
  exact ⟨encodable, rfl⟩

/-- Two lines to a segment, in the second target, with names of its own. -/
def twoLines : EmitterConfig :=
  { ofTarget .typeScript with
    maxLines := 2, partPrefix? := some "piece_", driverName? := some "assemble" }

theorem twoLines_runs :
    twoLines.Valid ∧
      ∃ unit, twoLines.emit "say \"hi\\\"\r\n\n\tdone\r\n\nlast" = .ok unit ∧
        unit.runDriver = .ok "say \"hi\\\"\r\n\n\tdone\r\n\nlast" :=
  have valid : twoLines.Valid := by decide
  ⟨valid, runDriver_emit twoLines valid _ (by decide)⟩

end EmitterConfig

end Flowpress
