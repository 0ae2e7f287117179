/-!
# Blank characters

The characters that count as white space: the space and its relatives of other
widths, tabs and line ends, and the separators of lines and paragraphs. A text
is blank if it has no other characters.
-/

namespace Flowpress.Text

/-- The code points of white space, first and last of each range included, in ascending order. -/
def blankRanges : List (Nat × Nat) := [
  (0x09, 0x0d), (0x20, 0x20), (0x85, 0x85), (0xa0, 0xa0), (0x1680, 0x1680), (0x2000, 0x200a),
  (0x2028, 0x2029), (0x202f, 0x202f), (0x205f, 0x205f), (0x3000, 0x3000)]

def isBlankChar (char : Char) : Bool :=
  blankRanges.any fun (first, last) => decide (first ≤ char.toNat ∧ char.toNat ≤ last)

/-- Whether a text holds nothing but white space. -/
def isBlank (text : String) : Bool := text.toList.all isBlankChar

/-- Every character that the core library calls white space is blank. -/
theorem isBlankChar_of_isWhitespace {char : Char} (white : char.isWhitespace = true) :
    isBlankChar char = true := by
  simp only [Char.isWhitespace, Bool.or_eq_true, decide_eq_true_eq] at white
  rcases white with ((space | tab) | carriageReturn) | lineFeed
  · subst space; decide
  · subst tab; decide
  · subst carriageReturn; decide
  · subst lineFeed; decide

end Flowpress.Text
