/-!
# Styled output

Parts of what a command prints stand out in color when colors are on: they are
put between an escape sequence that sets the style and one that resets it. Where
such a part holds a reset of its own, the style is set again behind it.
-/

namespace Flowpress.Command

/-- What a command finds around it when it starts, besides files and arguments. -/
structure Environment where
  /-- The default of the option for the number of lines. -/
  maxLines? : Option String
  /-- A wish for colors; `0` is none. -/
  colorForce? : Option String
  /-- A wish for no colors. -/
  noColor? : Option String
  outputIsTerminal : Bool
  errorIsTerminal : Bool
deriving DecidableEq, Repr

namespace Environment

/-- Nothing is wished for, and output goes to files. -/
def plain : Environment := ⟨none, none, none, false, false⟩

/-- Whether colors are asked for. -/
def forcesColor (environment : Environment) : Bool := environment.colorForce?.any (· != "0")

/-- Whether reports are colored: a wish for colors goes first. -/
def reportsColored (environment : Environment) : Bool :=
  environment.forcesColor || environment.noColor?.isNone && environment.outputIsTerminal

/-- Whether help and usage errors are colored: a wish for no colors goes first. -/
def usageColored (environment : Environment) (isTerminal : Bool) : Bool :=
  !environment.noColor?.any (· != "") && (environment.forcesColor || isTerminal)

end Environment

/-- Why a part of the output stands out. -/
inductive Emphasis where
  | step
  | success
  | failure
  | title
  | aside
  /-- Words of the command line in help and usage errors. -/
  | literal
  /-- A word that does not fit. -/
  | invalid
  | usageError
  | usageHeading
deriving DecidableEq, Repr

namespace Emphasis

/-- The sequence that ends every style. -/
def reset : String := "\x1b[0m"

/-- The sequence that sets the style. -/
def opening : Emphasis → String
  | .step => "\x1b[1;34m"
  | .success => "\x1b[1;32m"
  | .failure => "\x1b[1;31m"
  | .title => "\x1b[1m"
  | .aside => "\x1b[2m"
  | .literal => "\x1b[1m"
  | .invalid => "\x1b[33m"
  | .usageError => "\x1b[1m\x1b[31m"
  | .usageHeading => "\x1b[1m\x1b[4m"

/-- The text between the sequences of a style. -/
def enclose (emphasis : Emphasis) (colored : Bool) (text : String) : String :=
  if colored then emphasis.opening ++ text ++ reset else text

/-- The text with a style set again behind every reset. -/
def restore (opening : List Char) : List Char → List Char
  | '\x1b' :: '[' :: '0' :: 'm' :: rest => reset.toList ++ opening ++ restore opening rest
  | char :: rest => char :: restore opening rest
  | [] => []

/-- The text in a style, if colors are on. -/
def paint (emphasis : Emphasis) (colored : Bool) (text : String) : String :=
  emphasis.enclose colored <|
    if colored then String.ofList (restore emphasis.opening.toList text.toList) else text

end Emphasis

end Flowpress.Command
