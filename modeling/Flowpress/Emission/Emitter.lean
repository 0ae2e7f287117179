import Flowpress.Emission.Literal
import Flowpress.Emission.Segment
import Flowpress.Emission.Source

/-!
# Emission

An `Emitter` turns a text into a `GeneratedUnit`: segments, one procedure for each
of them, and the source file. The literal of a line ends with the escape of a
line feed unless it is the last line of a text that does not end with one, so
that `GeneratedUnit.runDriver`, which appends the meaning of all literals in the
order of the procedures' indices, gives the text back.
-/

namespace Flowpress

/-- What an emission produces. -/
structure GeneratedUnit where
  target : Target
  driverName : String
  segments : List Segment
  procedures : List Procedure
  source : String
deriving DecidableEq, Repr

namespace GeneratedUnit

/-- Procedures by ascending index; those with one index keep their order. -/
def inOrder (procedures : List Procedure) : List Procedure :=
  procedures.mergeSort fun first second => first.index ≤ second.index

/-- What running the procedures one after another appends to an accumulator. -/
def runProcedures (procedures : List Procedure) : Except EmitError String := do
  let pieces ← ((inOrder procedures).flatMap Procedure.literals).mapM Literal.unescape
  .ok (String.join pieces)

/-- The text that the generated driver builds. -/
def runDriver (unit : GeneratedUnit) : Except EmitError String := runProcedures unit.procedures

/-- The number of lines of all segments. -/
def lineCount (unit : GeneratedUnit) : Nat :=
  (unit.segments.map Segment.length).foldl (· + ·) 0

end GeneratedUnit

/-- A configuration that can be used. -/
structure Emitter where
  config : EmitterConfig
  valid : config.Valid

namespace Emitter

/-- The emitter of a configuration, if it can be used. -/
def ofConfig (config : EmitterConfig) : Except EmitError Emitter :=
  match valid : config.check with
  | .ok () => .ok ⟨config, valid⟩
  | .error error => .error error

/-- The literal of one line: `last` says that no line feed follows it. -/
def literalOf (lineNumber : Nat) (line : String) (last : Bool) : Except EmitError String := do
  let literal ← Literal.escapeLine lineNumber line.toList
  .ok (String.ofList (if last then literal else literal ++ ['\\', 'n']))

/-- The literals of the lines of a segment in front of which the text has `linesBefore` lines. -/
def literalsOf (linesBefore : Nat) (segment : Segment) : Except EmitError (List String) :=
  segment.lines.zipIdx.mapM fun (line, offset) =>
    let lastLine := segment.isFinal && offset + 1 == segment.length
    literalOf (linesBefore + offset + 1) line (lastLine && !segment.trailingTerminator)

/-- The procedures of segments in front of which the text has `linesBefore` lines. -/
def proceduresOf (config : EmitterConfig) (linesBefore : Nat) :
    List Segment → Except EmitError (List Procedure)
  | [] => .ok []
  | segment :: rest => do
    let literals ← literalsOf linesBefore segment
    let others ← proceduresOf config (linesBefore + segment.length) rest
    .ok (⟨segment.index, config.partName segment.index, literals⟩ :: others)

/-- The unit of a text. -/
def emit (emitter : Emitter) (text : String) : Except EmitError GeneratedUnit := do
  let config := emitter.config
  let segments ← Segment.ofText text config.maxLines
  let procedures ← proceduresOf config 0 segments
  .ok {
    target := config.target
    driverName := config.driverName
    segments
    procedures
    source := Source.file config procedures }

end Emitter

/-- The unit of a text under a configuration. -/
def EmitterConfig.emit (config : EmitterConfig) (text : String) :
    Except EmitError GeneratedUnit := do
  (← Emitter.ofConfig config).emit text

end Flowpress
