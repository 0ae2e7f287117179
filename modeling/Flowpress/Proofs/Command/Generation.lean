import Flowpress.Proofs.Command.Verification
import Flowpress.Proofs.Emission.Sources

/-!
# Generation and verification

The commands that look at a document emit its text under the same configuration,
so they fail together when the emission fails. Verification emits in memory what
generation writes: where it passes, the file that is written carries a text that is
read as the document.
-/

namespace Flowpress.Command

open Files (Path Tree)
open Literal (Encodable)

/-! ## Emission inside the commands -/

/-- What the commands emit of a document. -/
def emission (settings? : Option Settings) (overrides : Overrides) (document : Document) :
    Except EmitError GeneratedUnit :=
  (Settings.resolve settings? overrides document.name?).emit (document.write .indented)

/-- To emit a text with an emitter made first is to emit it under the configuration. -/
theorem emit_bind {α : Type} (config : EmitterConfig) (text : String)
    (next : GeneratedUnit → Except Failure α) :
    ((Emitter.ofConfig config).mapError Failure.emission >>= fun emitter =>
        (emitter.emit text).mapError Failure.emission >>= next) =
      ((config.emit text).mapError Failure.emission >>= next) := by
  unfold EmitterConfig.emit
  cases Emitter.ofConfig config <;> rfl

/-- Writing a document never fails, so emitting it fails as emitting its text does. -/
theorem codec_emit (emitter : Emitter) (document : Document) :
    (codec.emit emitter document).mapError Failure.ofDocumentError =
      (emitter.emit (document.write .indented)).mapError Failure.emission := by
  have text : codec.emit emitter document =
      (emitter.emit (document.write .indented)).mapError DocumentError.emission := rfl
  rw [text]
  cases emitter.emit (document.write .indented) <;> rfl

section Computing

variable (settings? : Option Settings) (overrides : Overrides) (document : Document)

theorem Generation.of_eq (input : Path) (output? : Option Path) :
    Generation.of settings? input output? overrides document =
      ((emission settings? overrides document).mapError Failure.emission).map fun unit =>
        ⟨output?.getD (Settings.outputPath settings? input
          (Settings.resolve settings? overrides document.name?).target), unit⟩ := by
  unfold Generation.of
  simp only [codec_emit, emit_bind]
  rfl

variable {settings? overrides document} {error : EmitError}

theorem Inspection.of_eq_error (failed : emission settings? overrides document = .error error) :
    Inspection.of settings? overrides document = .error (.emission error) := by
  unfold emission at failed
  unfold Inspection.of
  simp only [codec_emit, emit_bind, failed]
  rfl

theorem Verification.of_eq_error (failed : emission settings? overrides document = .error error) :
    Verification.of settings? overrides document = .error (.emission error) := by
  unfold emission at failed
  unfold Verification.of
  simp only [emit_bind, failed]
  rfl

/-- Verification reaches a verdict only if the text of the document has a unit and is read, and the
verdict is on this unit and what was read. -/
theorem Verification.of_eq_ok {verification : Verification}
    (reached : Verification.of settings? overrides document = .ok verification) :
    ∃ loaded, emission settings? overrides document =
        .ok (Emitter.unitOf (Settings.resolve settings? overrides document.name?)
          (document.write .indented)) ∧
      Document.read (document.write .indented) = .ok loaded ∧
      verification = verdict (Settings.resolve settings? overrides document.name?) document
        loaded := by
  cases emitted : emission settings? overrides document with
  | error error =>
      rw [Verification.of_eq_error emitted] at reached
      cases reached
  | ok unit =>
      obtain ⟨valid, encodable, rfl⟩ := (EmitterConfig.emit_eq_ok_iff ..).mp emitted
      rw [of_eq_of_encodable settings? overrides encodable valid] at reached
      cases read : Document.read (document.write .indented) with
      | error refusal =>
          rw [read] at reached
          cases reached
      | ok loaded =>
          rw [read] at reached
          exact ⟨loaded, rfl, rfl, (Except.ok.inj reached).symm⟩

/-- The commands cannot emit a document exactly if the configuration cannot be used or no literal
holds some character of the text. -/
theorem emission_fails_iff :
    (∃ error, emission settings? overrides document = .error error) ↔
      ¬(Settings.resolve settings? overrides document.name?).Valid ∨
        ∃ char ∈ (document.write .indented).toList, ¬Encodable char := by
  have emits := EmitterConfig.emit_eq_ok_iff
    (Settings.resolve settings? overrides document.name?) (document.write .indented)
  unfold emission
  generalize (Settings.resolve settings? overrides document.name?).emit _ = outcome at emits ⊢
  cases outcome with
  | error error =>
      refine iff_of_true ⟨error, rfl⟩ ?_
      by_contra none
      push Not at none
      cases (emits _).mpr ⟨none.1, none.2, rfl⟩
  | ok unit =>
      obtain ⟨valid, encodable, _⟩ := (emits unit).mp rfl
      refine iff_of_false (fun ⟨_, failed⟩ => nomatch failed) ?_
      rintro (invalid | ⟨char, member, refused⟩)
      · exact invalid valid
      · exact refused (encodable char member)

end Computing

/-! ## What the commands do -/

/-- How a command reports. -/
structure Manner where
  json : Bool
  verbose : Bool
  colored : Bool

/-- The command for a job, with the settings at a path. -/
def Job.command (job : Job) (settingsPath : Path) (manner : Manner) : Task Unit :=
  (Invocation.mk settingsPath manner.json manner.verbose job).run manner.colored

section Running

variable {tree : Tree} {settingsPath input : Path} {settings? : Option Settings}
  {document : Document}

/-- Generation does nothing to files but write its file, and that only if the document is
emitted. -/
theorem deeds_generate (found : ((findSettings settingsPath).trail tree).result = .ok settings?)
    (read : ((readDocument input).trail tree).result = .ok document) (output? : Option Path)
    (overrides : Overrides) (manner : Manner) :
    ((Job.generate input output? overrides).command settingsPath manner).deeds tree =
      match Generation.of settings? input output? overrides document with
      | .error failure => ⟨tree, "", [], .error failure⟩
      | .ok generation => (writeFile generation.output generation.unit.source).deeds tree := by
  unfold Job.command Invocation.run
  dsimp only
  rw [(looks_findSettings settingsPath).deeds_bind found]
  have announced {task : Task Unit} (text : String) :
      ((if manner.json = true then pure () else Task.print text) >>= fun _ => task).deeds tree =
        task.deeds tree := by
    cases manner.json with
    | true => rfl
    | false => exact Task.deeds_print_bind text _ tree
  rw [announced, (looks_readDocument input).deeds_bind read]
  cases computed : Generation.of settings? input output? overrides document with
  | error failure => rfl
  | ok generation =>
      rw [(Task.Looks.ofExcept _).deeds_bind (Task.result_ofExcept _ tree)]
      exact Task.deeds_bind_print _ _ tree

/-- Inspection and verification fail with what they compute, and change nothing. -/
theorem deeds_inspect (found : ((findSettings settingsPath).trail tree).result = .ok settings?)
    (read : ((readDocument input).trail tree).result = .ok document) (overrides : Overrides)
    (manner : Manner) :
    ((Job.inspect input overrides).command settingsPath manner).deeds tree =
      ⟨tree, "", [], (Inspection.of settings? overrides document).map fun _ => ()⟩ := by
  unfold Job.command Invocation.run
  dsimp only
  rw [(looks_findSettings settingsPath).deeds_bind found,
    (looks_readDocument input).deeds_bind read]
  cases Inspection.of settings? overrides document with
  | error failure => rfl
  | ok inspection => rfl

theorem deeds_verify (found : ((findSettings settingsPath).trail tree).result = .ok settings?)
    (read : ((readDocument input).trail tree).result = .ok document) (overrides : Overrides)
    (manner : Manner) :
    ((Job.verify input overrides).command settingsPath manner).deeds tree =
      ⟨tree, "", [], Verification.of settings? overrides document >>= fun verification =>
        if verification.passed then .ok () else .error (.notReproduced input)⟩ := by
  unfold Job.command Invocation.run
  dsimp only
  rw [(looks_findSettings settingsPath).deeds_bind found,
    (looks_readDocument input).deeds_bind read]
  cases Verification.of settings? overrides document with
  | error failure => rfl
  | ok verification => rfl

end Running

/-! ## Generation as it was verified -/

/-- A verdict is on the unit that a generation writes: it counts this unit, and the strings in the
file of the unit, in the order of the driver's calls, are the text of the same document. -/
structure Vouches (settings? : Option Settings) (input : Path) (output? : Option Path)
    (overrides : Overrides) (document : Document) (verification : Verification)
    (generation : Generation) : Prop where
  reached : Verification.of settings? overrides document = .ok verification
  computed : Generation.of settings? input output? overrides document = .ok generation
  emitted : emission settings? overrides document = .ok generation.unit
  target_eq : verification.target = generation.unit.target
  segments_eq : verification.segments = generation.unit.segments.length
  lines_eq : verification.lines = generation.unit.lineCount
  read_back : ∃ text loaded,
    Listing.spoken generation.unit.target generation.unit.source generation.unit.driverName =
      .ok text ∧
    codec.decode text = .ok loaded ∧ loaded.same document = true

theorem exists_vouches {settings? : Option Settings} {overrides : Overrides} {document : Document}
    {verification : Verification} (input : Path) (output? : Option Path)
    (reached : Verification.of settings? overrides document = .ok verification)
    (passed : verification.passed = true) :
    ∃ generation, Vouches settings? input output? overrides document verification generation := by
  obtain ⟨loaded, emitted, read, rfl⟩ := Verification.of_eq_ok reached
  obtain ⟨valid, _⟩ := (EmitterConfig.emit_eq_ok_iff ..).mp emitted
  have carries := Emitter.carries_unitOf ((EmitterConfig.valid_iff _).mp valid)
    (document.write .indented)
  have computed := Generation.of_eq settings? overrides document input output?
  rw [emitted] at computed
  exact ⟨_, {
    reached, computed, emitted
    target_eq := rfl
    segments_eq := rfl
    lines_eq := rfl
    read_back := ⟨_, loaded, carries.spoken_eq, read, passed⟩ }⟩

/-- Where verification succeeds, generation writes one file, and it is the file of the unit that was
verified: its strings are a text that is read as the document. Where the document cannot be emitted,
generation, inspection and verification fail alike, and no file changes. -/
theorem generate_as_verified (tree : Tree) (settingsPath input : Path) (output? : Option Path)
    (overrides : Overrides) (ofVerify ofInspect ofGenerate : Manner) :
    let verify := (Job.verify input overrides).command settingsPath ofVerify
    let inspect := (Job.inspect input overrides).command settingsPath ofInspect
    let generate := (Job.generate input output? overrides).command settingsPath ofGenerate
    ((verify.trail tree).result = .ok () →
      ∃ settings? document verification generation,
        ((findSettings settingsPath).trail tree).result = .ok settings? ∧
        ((readDocument input).trail tree).result = .ok document ∧
        Vouches settings? input output? overrides document verification generation ∧
        generate.deeds tree = (writeFile generation.output generation.unit.source).deeds tree ∧
        WritesOnly (generate.deeds tree) generation.output generation.unit.source) ∧
    ∀ settings? document,
      ((findSettings settingsPath).trail tree).result = .ok settings? →
      ((readDocument input).trail tree).result = .ok document →
      ((∃ error, emission settings? overrides document = .error error) ↔
        ¬(Settings.resolve settings? overrides document.name?).Valid ∨
          ∃ char ∈ (document.write .indented).toList, ¬Encodable char) ∧
      ∀ error, emission settings? overrides document = .error error →
        (verify.trail tree).result = .error (.emission error) ∧
        (inspect.trail tree).result = .error (.emission error) ∧
        (generate.trail tree).result = .error (.emission error) ∧
        (generate.trail tree).tree = tree ∧ (generate.trail tree).replaced = [] := by
  intro verify inspect generate
  constructor
  · intro succeeds
    -- Success of the command gives the inputs; generation finds the same ones on the same tree.
    obtain ⟨settings?, document, verification, found, read, reached, passed⟩ :=
      (result_verify_eq_ok_iff rfl ofVerify.colored tree).mp succeeds
    obtain ⟨generation, vouches⟩ := exists_vouches input output? reached passed
    have wrote := deeds_generate found read output? overrides ofGenerate
    rw [vouches.computed] at wrote
    have only := writesOnly_writeFile generation.output generation.unit.source tree
    dsimp only at wrote
    rw [← wrote] at only
    exact ⟨settings?, document, verification, generation, found, read, vouches, wrote, only⟩
  · intro settings? document found read
    refine ⟨emission_fails_iff, fun error failed => ?_⟩
    have verified := deeds_verify found read overrides ofVerify
    have inspected := deeds_inspect found read overrides ofInspect
    have generated := deeds_generate found read output? overrides ofGenerate
    rw [Verification.of_eq_error failed] at verified
    rw [Inspection.of_eq_error failed] at inspected
    rw [Generation.of_eq, failed] at generated
    exact ⟨congrArg Script.Trail.result verified, congrArg Script.Trail.result inspected,
      congrArg Script.Trail.result generated, congrArg Script.Trail.tree generated,
      congrArg Script.Trail.replaced generated⟩

/-- Lines for a reader, without colors. -/
def plainly : Manner := ⟨false, false, false⟩

/-- A document is verified and generated. With no line allowed in a segment, generation fails and
writes nothing. -/
theorem ratio_generated :
    (∃ generation : Generation,
      let deeds := ((Job.generate ⟨"d.json"⟩ none noOverrides).command ⟨standardSettingsPath⟩
        plainly).deeds (holding ratioText)
      deeds.result = .ok () ∧ WritesOnly deeds generation.output generation.unit.source) ∧
    let trail := ((Job.generate ⟨"d.json"⟩ none ⟨none, some 0, none⟩).command
      ⟨standardSettingsPath⟩ plainly).trail (holding ratioText)
    trail.result = .error (.emission .zeroBound) ∧ trail.replaced = [] := by
  have passes := (generate_as_verified (holding ratioText) ⟨standardSettingsPath⟩ ⟨"d.json"⟩ none
    noOverrides plainly plainly plainly).1
  have fails := (generate_as_verified (holding ratioText) ⟨standardSettingsPath⟩ ⟨"d.json"⟩ none
    ⟨none, some 0, none⟩ plainly plainly plainly).2
  obtain ⟨settings?, document, _, generation, found, read, _, _, only⟩ :=
    passes (by decide +kernel)
  obtain ⟨_, _, failed, _, replaced⟩ := (fails settings? document found read).2 .zeroBound rfl
  exact ⟨⟨generation, by decide +kernel, only⟩, failed, replaced⟩

end Flowpress.Command
