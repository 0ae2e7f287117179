import Flowpress.Emission.Emitter
import Flowpress.Pipeline.View

/-!
# Statistics of a unit

The figures about the lines of a unit come from three pipelines over one view of
the lengths of the lines, counted in characters: one keeps the empty lines and
counts them, one sorts the lengths from the greatest down and takes the first,
and one adds them up. The sizes of segments are counted in bytes.
-/

namespace Flowpress

/-- Figures about the lines of a text. -/
structure LineStatistics where
  total : Nat
  blank : Nat
  longest : Nat
  characters : Int
deriving DecidableEq, Repr

/-- A segment with the name of its procedure and its sizes. -/
structure SegmentLayout where
  index : Nat
  procedure : String
  lines : Nat
  bytes : Nat
deriving DecidableEq, Repr

namespace GeneratedUnit

/-- The lines of all segments. -/
def lines (unit : GeneratedUnit) : List String := unit.segments.flatMap Segment.lines

/-- The length of each line. -/
def lineLengths (unit : GeneratedUnit) : List Int64 :=
  unit.lines.map fun line => Int64.ofNat line.length

/-- A view of the lengths. -/
def lengthView (unit : GeneratedUnit) : View Empty .long := .ofSource (.items unit.lineLengths)

/-- The figures about the lines. -/
def statistics (unit : GeneratedUnit) : Except PipelineError LineStatistics := do
  let view := unit.lengthView
  let empty := view.append (.filter fun length => .silent (decide (length = 0)))
  let descending := view.append (.sorted (some fun first second => Element.order second first))
  let characters ← view.sum.value
  .ok {
    total := unit.lineLengths.length
    blank := empty.count.value
    longest := (descending.first.value.getD 0).toInt.toNat
    characters := characters.toInt }

/-- The layout of each segment. -/
def layout (unit : GeneratedUnit) : List SegmentLayout :=
  (unit.segments.zip unit.procedures).map fun (segment, procedure) => {
    index := segment.index
    procedure := procedure.name
    lines := segment.length
    bytes := (segment.lines.map String.utf8ByteSize).foldl (· + ·) 0 }

end GeneratedUnit

end Flowpress
