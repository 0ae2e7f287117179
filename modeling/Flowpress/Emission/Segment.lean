import Flowpress.Emission.Error

/-!
# Segments

A text is cut into its lines, and the lines into segments of at most a given
number. A line ends before a line feed or with the text; a text that ends with a
line feed has no empty line behind it, and the empty text has no line at all.
Lines are kept without their line feeds, and the last segment remembers whether
the text ended with one, so that `Segment.reassemble` gives the text back.
-/

namespace Flowpress

/-- A run of consecutive lines of a text. -/
structure Segment where
  index : Nat
  lines : List String
  isFinal : Bool
  /-- The text ended with a line feed; only the last segment says so. -/
  trailingTerminator : Bool
deriving DecidableEq, Repr

namespace Segment

def isEmpty (segment : Segment) : Bool := segment.lines.isEmpty

def length (segment : Segment) : Nat := segment.lines.length

/-- The lines of a text, of which `line` holds the beginning of the first, last character first. -/
def linesAfter (line : List Char) : List Char → List (List Char)
  | [] => if line.isEmpty then [] else [line.reverse]
  | char :: rest =>
    if char = '\n' then line.reverse :: linesAfter [] rest else linesAfter (char :: line) rest

/-- The lines of a text without their line feeds. -/
def linesOf (text : String) : List String := (linesAfter [] text.toList).map String.ofList

/-- Whether a text ends with a line feed. -/
def endsLine (text : String) : Bool := text.toList.getLast? == some '\n'

/-- Groups of `size + 1` elements each, but for the last one, which may be smaller. -/
def groups {α : Type} (size : Nat) : List α → List (List α)
  | [] => []
  | first :: rest => (first :: rest.take size) :: groups size (rest.drop size)
termination_by elements => elements.length
decreasing_by
  simp only [List.length_drop, List.length_cons]
  omega

/-- Cuts a text into segments of at most `bound` lines. The empty text is one segment without
lines. -/
def ofText (text : String) (bound : Nat) : Except EmitError (List Segment) :=
  match bound with
  | 0 => .error .zeroBound
  | size + 1 =>
    let chunks := match groups size (linesOf text) with
      | [] => [[]]
      | chunks => chunks
    .ok <| chunks.zipIdx.map fun (lines, index) =>
      let isFinal := decide (index + 1 = chunks.length)
      { index, lines, isFinal, trailingTerminator := isFinal && endsLine text }

/-- The lines of all segments, with a line feed between any two, and one more at the end if the
last segment says so. -/
def reassemble (segments : List Segment) : String :=
  let body := String.intercalate "\n" (segments.flatMap Segment.lines)
  match segments.getLast? with
  | some last => if last.trailingTerminator then body ++ "\n" else body
  | none => body

end Segment

end Flowpress
