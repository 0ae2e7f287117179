import Flowpress.Proofs.Command.Scripts
import Flowpress.Proofs.Document.Equality
import Flowpress.Proofs.Document.Results
import Flowpress.Proofs.Document.RoundTrip
import Flowpress.Proofs.Emission.Segments

/-!
# What verification finds

A unit of a document that was read never has a segment that is too long and always
builds the text of the document. What a verdict depends on is whether the text is
read as the document again, and that depends on its numbers alone: verification
passes exactly if every number is legible. Not every number that can be read is.
-/

namespace Flowpress.Command

open Files (Path Tree)

namespace Verification

/-- The verdict on the unit of a document, as which another one was loaded. -/
def verdict (config : EmitterConfig) (document loaded : Document) : Verification :=
  let unit := Emitter.unitOf config (document.write .indented)
  { target := config.target
    segments := unit.segments.length
    lines := unit.lineCount
    withinBound := true
    textRoundTrip := true
    documentRoundTrip := loaded.same document }

/-- If the text of a document is encodable, verification comes down to reading the text. -/
theorem of_eq_of_encodable (settings? : Option Settings) (overrides : Overrides)
    {document : Document}
    (encodable : ∀ char ∈ (document.write .indented).toList, Literal.Encodable char)
    (valid : (Settings.resolve settings? overrides document.name?).Valid) :
    Verification.of settings? overrides document =
      ((Document.read (document.write .indented)).mapError Failure.reloading).map
        (verdict (Settings.resolve settings? overrides document.name?) document) := by
  unfold Verification.of
  dsimp only
  generalize Settings.resolve settings? overrides document.name? = config at valid ⊢
  unfold verdict
  generalize document.write .indented = text at encodable ⊢
  have emitted : (⟨config, valid⟩ : Emitter).emit text = .ok (Emitter.unitOf config text) :=
    (Emitter.emit_eq_ok_iff ..).mpr ⟨encodable, rfl⟩
  have reassembled : Segment.reassemble (Emitter.unitOf config text).segments = text :=
    Segment.reassemble_numbered text (config.maxLines - 1)
  have positive : 0 < config.maxLines := ((EmitterConfig.valid_iff _).mp valid).positive
  have regular : Segment.Regular config.maxLines (Emitter.unitOf config text).segments := by
    have cut := Segment.regular_numbered text (config.maxLines - 1)
    rwa [Nat.sub_add_cancel positive] at cut
  have within : (Emitter.unitOf config text).segments.all
      (fun segment => decide (segment.length ≤ config.maxLines)) = true :=
    List.all_eq_true.mpr fun segment among => decide_eq_true (regular.length_le segment among)
  have built : (Emitter.unitOf config text).runDriver = .ok text :=
    Emitter.runDriver_unitOf config text
  have loaded : codec.load (Emitter.unitOf config text) =
      (Document.read text).mapError .serialization := Codec.load_unitOf .indented config text
  rw [Emitter.ofConfig_eq_ok valid]
  simp only [Except.mapError, Outcome.ok_bind]
  rw [emitted]
  simp only [Outcome.ok_bind]
  rw [if_pos reassembled, built, loaded]
  simp only [Except.map, Outcome.ok_bind, within, decide_true]
  cases Document.read text with
  | error refusal => rfl
  | ok loaded => rfl

/-- Verification comes down to reading the text of the document. -/
theorem of_eq (settings? : Option Settings) (overrides : Overrides) {document : Document}
    (kept : ∀ text ∈ document.texts, '\x7f' ∉ text.toList)
    (valid : (Settings.resolve settings? overrides document.name?).Valid) :
    Verification.of settings? overrides document =
      ((Document.read (document.write .indented)).mapError Failure.reloading).map
        (verdict (Settings.resolve settings? overrides document.name?) document) :=
  of_eq_of_encodable settings? overrides (document.allEncodable_write .indented kept) valid

section Verdict

variable (settings? : Option Settings) (overrides : Overrides) {document : Document}
  (kept : ∀ text ∈ document.texts, '\x7f' ∉ text.toList)
  (valid : (Settings.resolve settings? overrides document.name?).Valid)

include kept valid

/-- A verdict is reached exactly if the text of the document is read as some document. -/
theorem of_eq_ok_iff {verification : Verification} :
    Verification.of settings? overrides document = .ok verification ↔
      ∃ loaded, Document.read (document.write .indented) = .ok loaded ∧
        verdict (Settings.resolve settings? overrides document.name?) document loaded =
          verification := by
  rw [of_eq settings? overrides kept valid]
  cases Document.read (document.write .indented) <;> simp [Except.mapError, Except.map]

/-- Verification passes exactly if the text of the document is read as the same document. -/
theorem exists_passed_iff :
    (∃ verification, Verification.of settings? overrides document = .ok verification ∧
        verification.passed = true) ↔
      ∃ loaded, Document.read (document.write .indented) = .ok loaded ∧
        loaded.same document = true := by
  simp only [of_eq_ok_iff settings? overrides kept valid]
  constructor
  · rintro ⟨verification, ⟨loaded, read, rfl⟩, passed⟩
    exact ⟨loaded, read, passed⟩
  · rintro ⟨loaded, read, same⟩
    exact ⟨_, ⟨loaded, read, rfl⟩, same⟩

end Verdict

end Verification

/-- The command succeeds exactly if the settings are found, the document is read, and verification
passes. -/
theorem result_verify_eq_ok_iff {invocation : Invocation} {input : Path} {overrides : Overrides}
    (job : invocation.job = .verify input overrides) (colored : Bool) (tree : Tree) :
    ((invocation.run colored).trail tree).result = .ok () ↔
      ∃ settings? document verification,
        ((findSettings invocation.settingsPath).trail tree).result = .ok settings? ∧
        ((readDocument input).trail tree).result = .ok document ∧
        Verification.of settings? overrides document = .ok verification ∧
        verification.passed = true := by
  unfold Invocation.run
  dsimp only
  rw [job]
  dsimp only
  simp only [(looks_findSettings _).result_bind_eq_ok_iff,
    (looks_readDocument _).result_bind_eq_ok_iff, (Task.Looks.ofExcept _).result_bind_eq_ok_iff]
  have printed (text : String) (next : Unit → Task Unit) :
      ((Task.print text >>= next).trail tree).result = ((next ()).trail tree).result := rfl
  have verdict (passed : Bool) :
      (if passed = true then .ok () else .error (.notReproduced input) : Except Failure Unit) =
        .ok () ↔ passed = true := by
    cases passed <;> simp
  simp only [printed, Task.result_ofExcept, verdict, exists_and_left]

/-- Nothing is said in place of the settings. -/
def noOverrides : Overrides := ⟨none, none, none⟩

/-- A verdict never finds a segment that is too long or a text that is not built. Of a document that
was read a verdict is reached exactly if every number of it is read as some number, and verification
passes and the command succeeds exactly if every number is read back. -/
theorem verify_passes_iff_legible (tree : Tree) (invocation : Invocation) (colored : Bool)
    (input : Path) (overrides : Overrides) (job : invocation.job = .verify input overrides)
    (settings? : Option Settings)
    (found : ((findSettings invocation.settingsPath).trail tree).result = .ok settings?)
    (text : String) (readable : tree.readText input = .ok text)
    (document : Document) (read : Document.read text = .ok document)
    (kept : ∀ text ∈ document.texts, '\x7f' ∉ text.toList)
    (valid : (Settings.resolve settings? overrides document.name?).Valid) :
    (∀ verification, Verification.of settings? overrides document = .ok verification →
      verification.withinBound = true ∧ verification.textRoundTrip = true) ∧
    ((∃ verification, Verification.of settings? overrides document = .ok verification) ↔
      ∀ number ∈ document.numbers, number.Readable) ∧
    ((∃ verification, Verification.of settings? overrides document = .ok verification ∧
        verification.passed = true) ↔
      ∀ number ∈ document.numbers, number.Legible) ∧
    (((invocation.run colored).trail tree).result = .ok () ↔
      ∀ number ∈ document.numbers, number.Legible) := by
  obtain ⟨canonical, shallow⟩ := Document.sound_of_read read
  have reached {verification : Verification} :
      Verification.of settings? overrides document = .ok verification ↔
        ∃ loaded, Document.read (document.write .indented) = .ok loaded ∧
          Verification.verdict (Settings.resolve settings? overrides document.name?) document
            loaded = verification :=
    Verification.of_eq_ok_iff settings? overrides kept valid
  have passes := (Verification.exists_passed_iff settings? overrides kept valid).trans
    (Document.exists_read_write_same_iff .indented canonical shallow)
  refine ⟨?_, ?_, passes, ?_⟩
  · intro verification verified
    obtain ⟨loaded, -, rfl⟩ := reached.mp verified
    exact ⟨rfl, rfl⟩
  · constructor
    · rintro ⟨verification, verified⟩
      obtain ⟨loaded, reads, -⟩ := reached.mp verified
      exact ((Document.read_write_eq_ok_iff .indented canonical).mp reads).1
    · intro able
      exact ⟨_, reached.mpr
        ⟨_, (Document.read_write_eq_ok_iff .indented canonical).mpr ⟨able, shallow, rfl⟩, rfl⟩⟩
  · rw [← passes, result_verify_eq_ok_iff job]
    have opened := result_readDocument_eq_ok_iff.mpr ⟨text, readable, read⟩
    constructor
    · rintro ⟨settings, other, verification, looked, loaded, verified, passed⟩
      obtain rfl := Except.ok.inj (looked.symm.trans found)
      obtain rfl := Except.ok.inj (loaded.symm.trans opened)
      exact ⟨verification, verified, passed⟩
    · rintro ⟨verification, verified, passed⟩
      exact ⟨settings?, document, verification, found, opened, verified, passed⟩

/-- A directory with a document in it, and no settings. -/
def holding (text : String) : Tree :=
  (Tree.atHome ["work"]).put ["work", "d.json"] (.file text.toUTF8)

/-- The verification of that document. -/
def verifying : Invocation where
  settingsPath := ⟨standardSettingsPath⟩
  json := false
  verbose := false
  job := .verify ⟨"d.json"⟩ ⟨none, none, none⟩

/-- A field that is not known, a double and the greatest integer. -/
def ratioText : String :=
  "\x7b\"extra\":[\x7b\x7d]," ++
    "\"properties\":\x7b\"ratio\":25e-1,\"most\":18446744073709551615\x7d\x7d"

theorem ratio_verified :
    ∃ document verification, Document.read ratioText = .ok document ∧
      document.numbers = [.integer 18446744073709551615 (by decide),
        .binary ⟨0x4004000000000000⟩ (by decide)] ∧
      Verification.of none ⟨none, none, none⟩ document = .ok verification ∧
      verification.passed = true ∧
      ((verifying.run false).trail (holding ratioText)).result = .ok () := by
  have parts : (Document.read ratioText).toOption.map
      (fun document => (document.numbers, document.texts, document.name?)) =
      some ([.integer 18446744073709551615 (by decide), .binary ⟨0x4004000000000000⟩ (by decide)],
        ["properties", "most", "ratio"], none) := by
    decide +kernel
  obtain ⟨document, read, same⟩ := Option.map_eq_some_iff.mp parts
  obtain ⟨numbers, others⟩ := Prod.mk.inj same
  obtain ⟨texts, name⟩ := Prod.mk.inj others
  have read := Outcome.toOption_eq_some_iff.mp read
  have legible : ∀ number ∈ document.numbers, number.Legible := by
    rw [numbers]
    decide +kernel
  obtain ⟨-, -, passes, succeeds⟩ := verify_passes_iff_legible (holding ratioText) verifying false
    ⟨"d.json"⟩ ⟨none, none, none⟩ rfl none (by decide +kernel) ratioText (by decide +kernel)
    document read (by rw [texts]; decide) (by rw [name]; decide)
  obtain ⟨verification, verified, passed⟩ := passes.mpr legible
  exact ⟨document, verification, read, numbers, verified, passed, succeeds.mpr legible⟩

/-- The double that is read from this text is written with other digits, and read from those as
another double. -/
def largeText : String := "\x7b\"properties\":\x7b\"x\":5e32\x7d\x7d"

/-- Verification of a document with a number that is not legible fails, although nothing else is
wrong. -/
theorem large_not_verified :
    ∃ document verification, Document.read largeText = .ok document ∧
      (∀ text ∈ document.texts, '\x7f' ∉ text.toList) ∧
      (Settings.resolve none ⟨none, none, none⟩ document.name?).Valid ∧
      Verification.of none ⟨none, none, none⟩ document = .ok verification ∧
      verification.documentRoundTrip = false ∧
      ((verifying.run false).trail (holding largeText)).result =
        .error (.notReproduced ⟨"d.json"⟩) := by
  have parts : (Document.read largeText).toOption.map (fun document =>
      (document.texts, document.name?,
        (Verification.of none ⟨none, none, none⟩ document).toOption.map
          Verification.documentRoundTrip)) = some (["properties", "x"], none, some false) := by
    decide +kernel
  obtain ⟨document, read, same⟩ := Option.map_eq_some_iff.mp parts
  obtain ⟨texts, others⟩ := Prod.mk.inj same
  obtain ⟨name, verdict⟩ := Prod.mk.inj others
  obtain ⟨verification, verified, different⟩ := Option.map_eq_some_iff.mp verdict
  refine ⟨document, verification, Outcome.toOption_eq_some_iff.mp read, ?_, ?_,
    Outcome.toOption_eq_some_iff.mp verified, different, by decide +kernel⟩
  · rw [texts]
    decide
  · rw [name]
    decide

end Flowpress.Command
