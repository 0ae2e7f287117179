import Flowpress.Toml.Calendar
import Flowpress.Toml.Numeral

/-!
# TOML grammar

A TOML text is a sequence of lines: headers of tables, headers of tables in
arrays, keys with values, and blank lines, each with a comment behind it or not.
Reading gives the statements of the text in their order; what they make together
is left to `Toml.Document`. Values and dotted keys nest less than eighty deep.

Every loop takes at least one character of the text each time round, so the
length of the text bounds it.
-/

namespace Flowpress.Toml

/-- What one line says. -/
inductive Statement where
  /-- The table with this path begins here. -/
  | header (path : List String)
  /-- The next table of the array with this path begins here. -/
  | arrayHeader (path : List String)
  /-- A dotted key gets a value. -/
  | entry (path : List String) (value : Value)

/-- How many containers a value may nest, and how many parts a key may have. -/
def nestingLimit : Nat := 79

/-! ## Keys -/

/-- Whether a character can stand in a key without quotes. -/
def isBareKeyChar (char : Char) : Bool := char.isAlphanum || char = '_' || char = '-'

/-- One part of a key. -/
def keyPart : Reader String
  | char :: rest =>
    if char = '"' ∨ char = '\'' then quotedKey (char :: rest)
    else
      let bare := (char :: rest).takeWhile isBareKeyChar
      if bare.isEmpty then none
      else some (String.ofList bare, (char :: rest).dropWhile isBareKeyChar)
  | [] => none

/-- The parts of a dotted key. -/
def keyParts : Nat → Reader (List String)
  | 0, _ => none
  | bound + 1, text => do
    let (part, rest) ← keyPart (skipSpace text)
    match skipSpace rest with
    | '.' :: rest => do
      let (parts, rest) ← keyParts bound rest
      some (part :: parts, rest)
    | rest => some ([part], rest)

/-- A key, with the spaces around it. -/
def key : Reader (List String) := keyParts nestingLimit

/-! ## Blanks -/

/-- The text behind a comment. -/
def skipComment : List Char → List Char
  | '#' :: rest => rest.dropWhile isPlain
  | text => text

/-- Takes the end of a line, or of the text. -/
def lineEnd : List Char → Option (List Char)
  | [] => some []
  | text => lineBreak text

/-- Takes what may stand behind a statement: spaces, a comment and the end of the line. -/
def restOfLine (text : List Char) : Option (List Char) := lineEnd (skipComment (skipSpace text))

/-- The text behind spaces, comments and line breaks; a comment needs its line break. -/
def skipBlanks : Nat → List Char → Option (List Char)
  | 0, _ => none
  | bound + 1, text =>
    match skipSpace text with
    | '#' :: rest => do skipBlanks bound (← lineBreak (rest.dropWhile isPlain))
    | '\n' :: rest => skipBlanks bound rest
    | '\r' :: rest => do skipBlanks bound (← lineBreak ('\r' :: rest))
    | text => some text

/-! ## Values -/

/-- The elements of an array behind its opening bracket, up to the closing one. A comma may stand
behind the last element. -/
def elements (element : Reader Value) : Nat → List Value → Reader (List Value)
  | 0, _, _ => none
  | bound + 1, taken, text => do
    let text ← skipBlanks (text.length + 1) text
    match text with
    | ']' :: rest => some (taken.reverse, rest)
    | text => do
      let (value, text) ← element text
      let text ← skipBlanks (text.length + 1) text
      match text with
      | ',' :: rest => elements element bound (value :: taken) rest
      | ']' :: rest => some ((value :: taken).reverse, rest)
      | _ => none

/-- A key and its value. -/
def keyedValue (value : Reader Value) : Reader (List String × Value) := fun text => do
  let (path, text) ← key text
  let (value, text) ← value (skipSpace (← expect '=' text))
  some ((path, value), text)

/-- The entries of a table between braces behind the opening one. No comma stands behind the last
one. -/
def inlineEntries (value : Reader Value) : Nat → Entries → Reader Entries
  | 0, _, _ => none
  | bound + 1, taken, text => do
    let ((path, value'), text) ← keyedValue value text
    let taken ← taken.insertDotted true value' path
    match skipSpace text with
    | ',' :: rest => inlineEntries value bound taken rest
    | '}' :: rest => some (taken, rest)
    | _ => none

/-- A table behind its opening brace. -/
def inlineTable (value : Reader Value) : Reader Value := fun text =>
  match skipSpace text with
  | '}' :: rest => some (.table true .complete [], rest)
  | text => do
    let (entries, rest) ← inlineEntries value (text.length + 1) [] text
    some (.table true .complete entries, rest)

/-- Takes a word. -/
def word (letters : List Char) (value : Value) : Reader Value := fun text =>
  if letters.isPrefixOf text then some (value, text.drop letters.length) else none

/-- A value that is no container. -/
def scalar : Reader Value
  | [] => none
  | char :: rest =>
    let text := char :: rest
    if char = '"' ∨ char = '\'' then (string text).map fun (value, rest) => (.string value, rest)
    else if char = 't' then word "true".toList (.boolean true) text
    else if char = 'f' then word "false".toList (.boolean false) text
    else
      match dateTime text with
      | some (value, rest) => some (.dateTime value, rest)
      | none => number text

/-- A value that may nest so many containers. -/
def value : Nat → Reader Value
  | 0, text => scalar text
  | levels + 1, text =>
    match text with
    | '[' :: rest => do
      let (elements, rest) ← elements (value levels) (rest.length + 1) [] rest
      some (.array false elements, rest)
    | '{' :: rest => inlineTable (value levels) rest
    | text => scalar text

/-! ## Lines -/

/-- A header, or a key with a value. -/
def statement : Reader Statement
  | '[' :: '[' :: rest => do
    let (path, rest) ← key rest
    let rest ← expect ']' (← expect ']' rest)
    some (.arrayHeader path, rest)
  | '[' :: rest => do
    let (path, rest) ← key rest
    some (.header path, ← expect ']' rest)
  | text => do
    let ((path, value), rest) ← keyedValue (value nestingLimit) text
    some (.entry path value, rest)

/-- The statements of a text. -/
def statements : Nat → List Char → Option (List Statement)
  | 0, _ => none
  | bound + 1, text =>
    match skipSpace text with
    | [] => some []
    | '#' :: rest => do statements bound (← restOfLine ('#' :: rest))
    | '\n' :: rest => statements bound rest
    | '\r' :: rest => do statements bound (← lineBreak ('\r' :: rest))
    | text => do
      let (statement, text) ← statement text
      let others ← statements bound (← restOfLine text)
      some (statement :: others)

end Flowpress.Toml
