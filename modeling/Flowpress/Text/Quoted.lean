import Flowpress.Text.Unseen

/-!
# Quoted text in messages

A message that shows a text or a single character puts it between quotes and
spells out what would not show: the usual short escapes, and the code point in
hexadecimal for every other unseen character. Only the quote that encloses the
text is escaped.
-/

namespace Flowpress.Text

/-- A number in lower-case hexadecimal, without leading zeros. -/
def hexadecimal (value : Nat) : List Char := Nat.toDigits 16 value

/-- One character between quotes of the kind `quote`. -/
def spell (quote char : Char) : List Char :=
  if char = '\x00' then ['\\', '0']
  else if char = '\t' then ['\\', 't']
  else if char = '\r' then ['\\', 'r']
  else if char = '\n' then ['\\', 'n']
  else if char = '\\' ∨ char = quote then ['\\', char]
  else if isUnseen char then ['\\', 'u', '\x7b'] ++ hexadecimal char.toNat ++ ['\x7d']
  else [char]

/-- A text between double quotes. -/
def quoted (text : String) : String :=
  String.ofList ('"' :: (text.toList.flatMap (spell '"') ++ ['"']))

/-- A character between single quotes. -/
def quotedChar (char : Char) : String :=
  String.ofList ('\'' :: (spell '\'' char ++ ['\'']))

end Flowpress.Text
