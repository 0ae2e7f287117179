import Flowpress.Proofs.Emission.Layout.Rust
import Flowpress.Proofs.Emission.Layout.TypeScript

/-!
# Generated files carry their texts

The source of a unit is laid out for the procedures of the unit, so that a reader
who follows the calls of the driver and unescapes the strings of the called parts
gets the text of the unit, which is also what running the procedures gives.
-/

namespace Flowpress

/-- Whatever the target, the file of procedures is laid out for them. -/
theorem Listing.exists_layout {config : EmitterConfig} (usable : config.Usable)
    {procedures : List Procedure} (emitted : ∀ procedure ∈ procedures, Emitted procedure) :
    ∃ part driver others, Layout config procedures part driver others
      (items config.target (Source.file config procedures)) := by
  unfold Source.file
  cases target : config.target with
  | rust =>
      rw [Rust.items_file usable emitted]
      exact ⟨_, _, _, Rust.layout target usable emitted⟩
  | typeScript =>
      rw [TypeScript.items_file usable emitted]
      exact ⟨_, _, _, TypeScript.layout target usable emitted⟩

namespace Emitter

theorem map_name_procedures (config : EmitterConfig) (text : String) :
    (unitOf config text).procedures.map Procedure.name =
      (List.range (unitOf config text).procedures.length).map config.partName := by
  have names : (unitOf config text).procedures.map Procedure.name =
      ((unitOf config text).procedures.map Procedure.index).map config.partName := by
    simp [unitOf, procedureOf]
  rw [names, map_index_procedures]

theorem emitted_procedures {config : EmitterConfig} (usable : config.Usable) (text : String) :
    ∀ procedure ∈ (unitOf config text).procedures, Listing.Emitted procedure := by
  intro procedure member
  obtain ⟨segment, _, rfl⟩ := List.mem_map.mp member
  refine ⟨EmitterConfig.isIdentifier_partName usable segment.index, fun literal among => ?_⟩
  obtain ⟨piece, _, rfl⟩ := List.mem_map.mp among
  exact ⟨piece, rfl⟩

/-- The source of a unit carries the text of the unit. -/
theorem carries_unitOf {config : EmitterConfig} (usable : config.Usable) (text : String) :
    Listing.Carries config (unitOf config text).procedures.length (unitOf config text).source
      text := by
  obtain ⟨part, driver, others, layout⟩ :=
    Listing.exists_layout usable (emitted_procedures usable text)
  have run := runDriver_unitOf config text
  unfold GeneratedUnit.runDriver GeneratedUnit.runProcedures at run
  rw [inOrder_procedures] at run
  exact layout.carries usable (map_name_procedures config text) run

end Emitter

namespace EmitterConfig

/-- The source of every unit carries the text of the unit: the driver calls each part once by
ascending index, each part is defined once and its quoted lines are complete strings, nothing else
is quoted, and the strings in the order of the calls are the text, as the driver builds it. -/
theorem carries_emit (config : EmitterConfig) (valid : config.Valid) (text : String)
    (unit : GeneratedUnit) (emitted : config.emit text = .ok unit) :
    Listing.Carries config unit.procedures.length unit.source text ∧
      unit.runDriver = .ok text := by
  rw [emit_of_valid valid, Emitter.emit_eq_ok_iff] at emitted
  obtain ⟨_, rfl⟩ := emitted
  exact ⟨Emitter.carries_unitOf ((valid_iff config).mp valid) text,
    Emitter.runDriver_unitOf config text⟩

/-- A name of a unit that tries to leave its line, and names that resemble each other. -/
def unruly : EmitterConfig :=
  { ofTarget .rust with
    maxLines := 1, partPrefix? := some "part", driverName? := some "par",
    unitName? := some "a\n\"b\",\nfn part0()" }

theorem unruly_carried :
    unruly.Valid ∧ ∃ unit, unruly.emit "\"\\\",\n\n\tfn part0(sb);\r\n\x7d" = .ok unit ∧
      Listing.Carries unruly unit.procedures.length unit.source
        "\"\\\",\n\n\tfn part0(sb);\r\n\x7d" ∧
      unit.runDriver = .ok "\"\\\",\n\n\tfn part0(sb);\r\n\x7d" := by
  have valid : unruly.Valid := by decide
  have emitted : unruly.emit "\"\\\",\n\n\tfn part0(sb);\r\n\x7d" =
      .ok (Emitter.unitOf unruly "\"\\\",\n\n\tfn part0(sb);\r\n\x7d") := by
    rw [emit_of_valid valid, Emitter.emit_eq_ok_iff]
    exact ⟨by decide, rfl⟩
  exact ⟨valid, _, emitted, carries_emit unruly valid _ _ emitted⟩

end EmitterConfig

end Flowpress
