import Flowpress.Document.Codec
import Flowpress.Emission.Emitter

/-!
# Emitting documents

A `Codec` turns documents of some type into text and back. A document is emitted
by emitting its text, and loaded by running the driver of a unit and reading what
it builds.
-/

namespace Flowpress

/-- A way to write documents of type `δ` and to read them; it refuses with `ε`. -/
structure Codec (δ ε : Type) where
  encode : δ → Except ε String
  decode : String → Except ε δ

/-- Why a document cannot be emitted or loaded. -/
inductive DocumentError (ε : Type) where
  | serialization (error : ε)
  | emission (error : EmitError)

namespace Codec

variable {δ ε : Type}

/-- The JSON codec for documents in one of the two layouts. Writing never fails. -/
def json (layout : Json.Layout) : Codec Document Json.Refusal where
  encode document := .ok (document.write layout)
  decode := Document.read

/-- The unit of the text of a document. -/
def emit (codec : Codec δ ε) (emitter : Emitter) (document : δ) :
    Except (DocumentError ε) GeneratedUnit := do
  let text ← (codec.encode document).mapError .serialization
  (emitter.emit text).mapError .emission

/-- The document in the text that procedures build. -/
def loadProcedures (codec : Codec δ ε) (procedures : List Procedure) :
    Except (DocumentError ε) δ := do
  let text ← (GeneratedUnit.runProcedures procedures).mapError .emission
  (codec.decode text).mapError .serialization

/-- The document in the text that a unit builds. -/
def load (codec : Codec δ ε) (unit : GeneratedUnit) : Except (DocumentError ε) δ :=
  codec.loadProcedures unit.procedures

end Codec

end Flowpress
