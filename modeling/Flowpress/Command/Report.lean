import Flowpress.Command.Style
import Flowpress.Command.Work

/-!
# Reports

What a command has found is printed as an indented JSON object or as lines for a
reader: steps and outcomes behind a sign, labelled values, and sections with a
rule below their titles.
-/

namespace Flowpress.Command

open Files (Path)
open Json (Value)

/-! ## Lines -/

namespace Line

/-- A line about what happens next. -/
def step (colored : Bool) (message : String) : String :=
  Emphasis.step.paint colored "→" ++ " " ++ message ++ "\n"

/-- A line about something that worked. -/
def success (colored : Bool) (message : String) : String :=
  Emphasis.success.paint colored "✓" ++ " " ++ message ++ "\n"

/-- A line about something that did not work. -/
def failure (colored : Bool) (message : String) : String :=
  Emphasis.failure.paint colored "✗" ++ " " ++ message ++ "\n"

/-- A labelled value. -/
def labelled (colored : Bool) (label value : String) : String :=
  "  " ++ Emphasis.aside.paint colored (label ++ ":") ++ " " ++ value ++ "\n"

/-- An item of a list. -/
def item (colored : Bool) (message : String) : String :=
  "    " ++ Emphasis.aside.paint colored "•" ++ " " ++ message ++ "\n"

/-- A title with a rule below it. -/
def sectionTitle (colored : Bool) (title : String) : String :=
  "\n" ++ Emphasis.title.paint colored title ++ "\n" ++
    Emphasis.aside.paint colored (String.ofList (List.replicate 50 '─')) ++ "\n"

/-- A JSON value. -/
def json (value : Value) : String := value.write .indented ++ "\n"

/-- Why a command fails. -/
def error (colored : Bool) (failure : Failure) : String :=
  Emphasis.failure.paint colored "Error:" ++ " " ++ failure.message ++ "\n"

end Line

/-! ## Generation -/

namespace Generation

/-- A generation as a JSON value. -/
def toValue (generation : Generation) : Value :=
  let unit := generation.unit
  .object [
    ("output", .string generation.output.text),
    ("target", .string unit.target.name),
    ("segments", .ofNat unit.segments.length),
    ("lines", .ofNat unit.lineCount),
    ("procedures", .array (unit.procedures.map fun procedure => .string procedure.name)),
    ("driver", .string unit.driverName)]

/-- A generation for a reader. -/
def report (generation : Generation) (colored : Bool) : String :=
  let unit := generation.unit
  Line.success colored
      ("Generated " ++ unit.target.name ++ " source at " ++ generation.output.text) ++
    Line.labelled colored "Lines" (toString unit.lineCount) ++
    Line.labelled colored "Segments" (toString unit.segments.length) ++
    Line.labelled colored "Driver" unit.driverName

end Generation

/-! ## Inspection -/

namespace Inspection

/-- Figures as a JSON value. -/
def statisticsValue (statistics : LineStatistics) : Value :=
  .object [
    ("total", .ofNat statistics.total),
    ("blank", .ofNat statistics.blank),
    ("longest", .ofNat statistics.longest),
    ("characters", (Value.integer? statistics.characters).getD .null)]

/-- The layout of a segment as a JSON value. -/
def segmentValue (segment : SegmentLayout) : Value :=
  .object [
    ("index", .ofNat segment.index),
    ("procedure", .string segment.procedure),
    ("lines", .ofNat segment.lines),
    ("bytes", .ofNat segment.bytes)]

/-- An inspection as a JSON value. -/
def toValue (inspection : Inspection) : Value :=
  .object [
    ("max_lines_per_segment", .ofNat inspection.maxLines),
    ("nodes", .ofNat inspection.nodes),
    ("stats", statisticsValue inspection.statistics),
    ("segments", .array (inspection.segments.map segmentValue))]

/-- An inspection of a document for a reader. -/
def report (inspection : Inspection) (input : Path) (colored : Bool) : String :=
  let statistics := inspection.statistics
  let segmentsTitle :=
    "Segments (" ++ toString inspection.segments.length ++ ", at most " ++
      toString inspection.maxLines ++ " lines each)"
  let item (segment : SegmentLayout) : String :=
    Line.item colored (segment.procedure ++ " " ++ toString segment.lines ++ " lines, " ++
      toString segment.bytes ++ " bytes")
  Line.sectionTitle colored ("Document " ++ input.text) ++
    Line.labelled colored "Nodes" (toString inspection.nodes) ++
    Line.labelled colored "Lines" (toString statistics.total) ++
    Line.labelled colored "Blank lines" (toString statistics.blank) ++
    Line.labelled colored "Longest line" (toString statistics.longest) ++
    Line.labelled colored "Characters" (toString statistics.characters) ++
    Line.sectionTitle colored segmentsTitle ++
    String.join (inspection.segments.map item)

end Inspection

/-! ## Verification -/

namespace Verification

/-- A verdict as a JSON value. -/
def toValue (verification : Verification) : Value :=
  .object [
    ("target", .string verification.target.name),
    ("segments", .ofNat verification.segments),
    ("lines", .ofNat verification.lines),
    ("within_bound", .bool verification.withinBound),
    ("text_round_trip", .bool verification.textRoundTrip),
    ("document_round_trip", .bool verification.documentRoundTrip)]

/-- A verdict on a document for a reader. -/
def report (verification : Verification) (input : Path) (colored : Bool) : String :=
  if verification.passed then
    Line.success colored (input.text ++ " reconstructs exactly (" ++ toString verification.lines ++
      " lines in " ++ toString verification.segments ++ " segments)")
  else
    Line.failure colored (input.text ++ " failed verification") ++
      Line.labelled colored "Segments within bound" (toString verification.withinBound) ++
      Line.labelled colored "Text round trip" (toString verification.textRoundTrip) ++
      Line.labelled colored "Document round trip" (toString verification.documentRoundTrip)

end Verification

/-! ## Settings -/

/-- Settings that can be used as a JSON value. -/
def settingsValue (settings : Settings) : Value :=
  .object [
    ("valid", .bool true),
    ("project", .string settings.project),
    ("output_dir", .string settings.outputDirectory),
    ("codegen", settings.emission.toValue)]

/-- Settings that can be used for a reader. -/
def settingsReport (settings : Settings) (colored : Bool) : String :=
  let config := settings.emission
  Line.success colored "Configuration is valid!" ++ "\n" ++
    "  Project: " ++ Emphasis.title.paint colored settings.project ++ "\n" ++
    Line.labelled colored "Output dir" settings.outputDirectory ++
    Line.labelled colored "Target" config.target.name ++
    Line.labelled colored "Max lines per segment" (toString config.maxLines) ++
    Line.labelled colored "Procedures" (config.partName 0 ++ ", " ++ config.partName 1 ++
      ", ... called by " ++ config.driverName ++ "()")

end Flowpress.Command
