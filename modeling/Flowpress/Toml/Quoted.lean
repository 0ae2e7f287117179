/-!
# TOML strings

A string stands between double quotes, where a backslash begins an escape, or
between single quotes, where every character stands for itself. One quote on
either side encloses a text of one line. Three quotes enclose a text of several
lines: a line break right behind the opening quotes is dropped, up to two quotes
may stand in front of the closing ones, and an escaped line break is dropped
together with all blanks behind it.
-/

namespace Flowpress.Toml

/-- A reader takes a value off the front of a text and gives what is left of it. -/
abbrev Reader (α : Type) := List Char → Option (α × List Char)

/-- Whether a character may stand in a string or a comment: a tab, or no control character. -/
def isPlain (char : Char) : Bool :=
  char = '\t' || decide (0x20 ≤ char.toNat ∧ char.toNat ≠ 0x7f)

/-- The space between the parts of a line. -/
def isSpace (char : Char) : Bool := char = ' ' || char = '\t'

def skipSpace (text : List Char) : List Char := text.dropWhile isSpace

/-- Takes a line break: a line feed, or a carriage return with a line feed behind it. -/
def lineBreak : List Char → Option (List Char)
  | '\n' :: rest => some rest
  | '\r' :: '\n' :: rest => some rest
  | _ => none

/-- The value of a hexadecimal digit. -/
def hexValue? (char : Char) : Option Nat :=
  if char.isDigit then some (char.toNat - '0'.toNat)
  else if 'a' ≤ char ∧ char ≤ 'f' then some (char.toNat - 'a'.toNat + 10)
  else if 'A' ≤ char ∧ char ≤ 'F' then some (char.toNat - 'A'.toNat + 10)
  else none

/-- The character with the code point in `count` hexadecimal digits. Surrogates are refused. -/
def codePoint (count : Nat) : Reader Char := fun text =>
  let digits := text.take count
  if digits.length = count then do
    let values ← digits.mapM hexValue?
    let code := values.foldl (fun code value => code * 16 + value) 0
    if code.isValidChar then some (Char.ofNat code, text.drop count) else none
  else none

/-- The character of an escape behind its backslash. -/
def escape : Reader Char
  | 'b' :: rest => some ('\x08', rest)
  | 't' :: rest => some ('\t', rest)
  | 'n' :: rest => some ('\n', rest)
  | 'f' :: rest => some ('\x0c', rest)
  | 'r' :: rest => some ('\r', rest)
  | '"' :: rest => some ('"', rest)
  | '\\' :: rest => some ('\\', rest)
  | 'u' :: rest => codePoint 4 rest
  | 'U' :: rest => codePoint 8 rest
  | _ => none

/-- The text behind blanks and line breaks. -/
def skipBlankLines : List Char → List Char
  | ' ' :: rest | '\t' :: rest | '\n' :: rest => skipBlankLines rest
  | '\r' :: '\n' :: rest => skipBlankLines rest
  | text => text

/-- Takes an escaped line break behind its backslash, with the blanks around it. -/
def escapedBreak (text : List Char) : Option (List Char) :=
  (lineBreak (skipSpace text)).map skipBlankLines

/-- Reads a text of one line behind its opening quote. `taken` holds the characters read so far,
the last one first. -/
def shortString (quote : Char) (escapes : Bool) : Nat → List Char → Reader String
  | 0, _, _ => none
  | _, _, [] => none
  | bound + 1, taken, char :: rest =>
    if char = quote then some (String.ofList taken.reverse, rest)
    else if escapes ∧ char = '\\' then do
      let (char, rest) ← escape rest
      shortString quote escapes bound (char :: taken) rest
    else if isPlain char then shortString quote escapes bound (char :: taken) rest
    else none

/-- Reads a text of several lines behind its opening quotes and the line break there. -/
def longString (quote : Char) (escapes : Bool) : Nat → List Char → Reader String
  | 0, _, _ => none
  | _, _, [] => none
  | bound + 1, taken, char :: rest =>
    if char = quote then
      let quotes := 1 + (rest.takeWhile (· == quote)).length
      if quotes < 3 then
        longString quote escapes bound (List.replicate quotes quote ++ taken)
          (rest.drop (quotes - 1))
      else
        let inside := min quotes 5 - 3
        some (String.ofList (List.replicate inside quote ++ taken).reverse, rest.drop (inside + 2))
    else if escapes ∧ char = '\\' then
      match escapedBreak rest with
      | some rest => longString quote escapes bound taken rest
      | none => do
        let (char, rest) ← escape rest
        longString quote escapes bound (char :: taken) rest
    else
      match lineBreak (char :: rest) with
      | some rest => longString quote escapes bound ('\n' :: taken) rest
      | none => if isPlain char then longString quote escapes bound (char :: taken) rest else none

/-- Drops a line break at the beginning of a text. -/
def dropFirstBreak (text : List Char) : List Char := (lineBreak text).getD text

/-- Reads a text of one line, as keys are quoted. -/
def quotedKey : Reader String
  | '"' :: rest => shortString '"' true (rest.length + 1) [] rest
  | '\'' :: rest => shortString '\'' false (rest.length + 1) [] rest
  | _ => none

/-- Reads a string. -/
def string : Reader String
  | '"' :: '"' :: '"' :: rest => longString '"' true (rest.length + 1) [] (dropFirstBreak rest)
  | '\'' :: '\'' :: '\'' :: rest => longString '\'' false (rest.length + 1) [] (dropFirstBreak rest)
  | text => quotedKey text

end Flowpress.Toml
