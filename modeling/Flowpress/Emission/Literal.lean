import Flowpress.Emission.Error

/-!
# Literals

A literal is what stands between the double quotes of a string in a generated
file. Backslash, quote, line feed and carriage return are escaped in it, the tab
and every other character stand for themselves, and the remaining control
characters of ASCII cannot be held at all.

`Literal.escape` writes a text as a literal and `Literal.unescape` reads one. The
reader takes any character but a backslash as it is.
-/

namespace Flowpress.Literal

/-- The control characters of ASCII that have neither an escape nor a place of their own. -/
def isUnencodable (char : Char) : Bool :=
  (decide (char.toNat < 0x20) || char == '\x7f') && char != '\t' && char != '\n' && char != '\r'

/-- What stands for a character in a literal. -/
def escapeChar (char : Char) : List Char :=
  if char = '\\' then ['\\', '\\']
  else if char = '"' then ['\\', '"']
  else if char = '\n' then ['\\', 'n']
  else if char = '\r' then ['\\', 'r']
  else [char]

/-- The literal of a text that stands on the given line. The first character that no literal can
hold is refused. -/
def escapeLine (line : Nat) (text : List Char) : Except EmitError (List Char) :=
  match text.find? isUnencodable with
  | some char => .error (.unencodable line (text.findIdx isUnencodable + 1) char)
  | none => .ok (text.flatMap escapeChar)

/-- The literal of a text. -/
def escape (text : String) : Except EmitError String :=
  (escapeLine 1 text.toList).map String.ofList

/-- The character that an escape stands for, by the character behind the backslash. -/
def unescapeChar? : Char → Option Char
  | '\\' => some '\\'
  | '"' => some '"'
  | 'n' => some '\n'
  | 'r' => some '\r'
  | _ => none

/-- Reads on in a literal, `position` bytes from its beginning. `text` holds the characters read
so far, the last one first. -/
def unescapeAfter (position : Nat) (text : List Char) : List Char → Except EmitError (List Char)
  | [] => .ok text.reverse
  | [char] =>
    if char = '\\' then .error (.malformedLiteral position .danglingBackslash)
    else .ok (char :: text).reverse
  | char :: next :: rest =>
    if char = '\\' then
      match unescapeChar? next with
      | some meaning => unescapeAfter (position + 1 + next.utf8Size) (meaning :: text) rest
      | none => .error (.malformedLiteral position (.unknownEscape next))
    else unescapeAfter (position + char.utf8Size) (char :: text) (next :: rest)

/-- The text of a literal. -/
def unescape (literal : String) : Except EmitError String :=
  (unescapeAfter 0 [] literal.toList).map String.ofList

end Flowpress.Literal
