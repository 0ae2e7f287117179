import Flowpress.Command.Failure
import Flowpress.Emission.Statistics

/-!
# What commands compute

Each command that looks at a document resolves a configuration, emits the text of
the document in memory and makes something of the unit: `generate` the file to
write, `inspect` figures, and `verify` a verdict. This is all they do apart from
reading, writing and printing.
-/

namespace Flowpress.Command

open Files (Path)

/-- The codec of the commands. -/
def codec : Codec Document Json.Refusal := .json .indented

/-- The file that `generate` writes. -/
structure Generation where
  output : Path
  unit : GeneratedUnit
deriving DecidableEq, Repr

/-- Emits a document for a file. -/
def Generation.of (settings? : Option Settings) (input : Path) (output? : Option Path)
    (overrides : Overrides) (document : Document) : Except Failure Generation := do
  let config := Settings.resolve settings? overrides document.name?
  let emitter ← (Emitter.ofConfig config).mapError .emission
  let unit ← (codec.emit emitter document).mapError .ofDocumentError
  .ok { output := output?.getD (Settings.outputPath settings? input config.target), unit }

/-- What `inspect` finds. -/
structure Inspection where
  maxLines : Nat
  nodes : Nat
  statistics : LineStatistics
  segments : List SegmentLayout
deriving DecidableEq, Repr

/-- Inspects a document. -/
def Inspection.of (settings? : Option Settings) (overrides : Overrides) (document : Document) :
    Except Failure Inspection := do
  let config := Settings.resolve settings? overrides document.name?
  let emitter ← (Emitter.ofConfig config).mapError .emission
  let unit ← (codec.emit emitter document).mapError .ofDocumentError
  let statistics ← unit.statistics.mapError .statistics
  .ok {
    maxLines := config.maxLines
    nodes := document.nodeCount
    statistics
    segments := unit.layout }

/-- The verdict of `verify`. -/
structure Verification where
  target : Target
  segments : Nat
  lines : Nat
  /-- No segment has more lines than allowed. -/
  withinBound : Bool
  /-- The segments and the driver give the text back. -/
  textRoundTrip : Bool
  /-- Loading the unit gives the document back. -/
  documentRoundTrip : Bool
deriving DecidableEq, Repr

namespace Verification

/-- Whether nothing is wrong. -/
def passed (verification : Verification) : Bool :=
  verification.withinBound && verification.textRoundTrip && verification.documentRoundTrip

/-- Verifies a document. The driver is run only if the segments give the text back. -/
def of (settings? : Option Settings) (overrides : Overrides) (document : Document) :
    Except Failure Verification := do
  let config := Settings.resolve settings? overrides document.name?
  let text := document.write .indented
  let emitter ← (Emitter.ofConfig config).mapError .emission
  let unit ← (emitter.emit text).mapError .emission
  let textRoundTrip ←
    if Segment.reassemble unit.segments = text then
      (unit.runDriver.map fun built => decide (built = text)).mapError .emission
    else .ok false
  let loaded ← (codec.load unit).mapError .ofDocumentError
  .ok {
    target := unit.target
    segments := unit.segments.length
    lines := unit.lineCount
    withinBound := unit.segments.all fun segment => decide (segment.length ≤ config.maxLines)
    textRoundTrip
    documentRoundTrip := loaded.same document }

end Verification

end Flowpress.Command
