import Flowpress.Json.Cursor

/-!
# Reading strings

The characters of a string are read one at a time. A `StringState` says what the
characters read so far ask for next: an ordinary character, the letter of an
escape, the digits of a code unit, or the second half of a surrogate pair.

A string whose content is not wanted is read more leniently: its code units need
not form characters.
-/

namespace Flowpress.Json

/-- What the next character of a string is. -/
inductive StringState where
  | plain
  | escape
  /-- `count` more hexadecimal digits of a code unit; `leading` is the first half of a pair. -/
  | unit (leading : Option Nat) (value : Nat) (count : Nat)
  | pairBackslash (leading : Nat)
  | pairLetter (leading : Nat)
deriving DecidableEq

/-- The character that a one-letter escape stands for. -/
def escapedChar? : Char → Option Char
  | '"' => some '"'
  | '\\' => some '\\'
  | '/' => some '/'
  | 'b' => some '\x08'
  | 'f' => some '\x0c'
  | 'n' => some '\n'
  | 'r' => some '\r'
  | 't' => some '\t'
  | _ => none

/-- The value of a hexadecimal digit in either case. -/
def hexValue? (char : Char) : Option Nat :=
  if '0' ≤ char ∧ char ≤ '9' then some (char.toNat - 48)
  else if 'a' ≤ char ∧ char ≤ 'f' then some (char.toNat - 87)
  else if 'A' ≤ char ∧ char ≤ 'F' then some (char.toNat - 55)
  else none

def isLeadingSurrogate (unit : Nat) : Bool := decide (0xD800 ≤ unit ∧ unit ≤ 0xDBFF)

def isTrailingSurrogate (unit : Nat) : Bool := decide (0xDC00 ≤ unit ∧ unit ≤ 0xDFFF)

/-- The character of a surrogate pair. -/
def pairedChar (leading trailing : Nat) : Char :=
  Char.ofNat ((leading - 0xD800) * 0x400 + (trailing - 0xDC00) + 0x10000)

/-- What a complete code unit leads to: a character, or the state that waits for the second
half of a pair. -/
def unitOutcome (wanted : Bool) (leading : Option Nat) (unit : Nat) :
    Except Fault (Char ⊕ StringState) :=
  if !wanted then .ok (.inr .plain)
  else match leading with
    | none =>
      if isTrailingSurrogate unit then .error .loneSurrogate
      else if isLeadingSurrogate unit then .ok (.inr (.pairBackslash unit))
      else .ok (.inl (Char.ofNat unit))
    | some leading =>
      if isTrailingSurrogate unit then .ok (.inl (pairedChar leading unit))
      else .error .loneSurrogate

/-- A digit that is none spoils the four bytes of its code unit, which are taken together. -/
def refuseUnit {α : Type} (position : Position) (count : Nat) (rest : List Char) :
    Except Refusal α :=
  match position.afterBytes count rest with
  | .ok place => .error ⟨.badEscape, some place⟩
  | .error place => .error ⟨.endOfString, some place⟩

/-- Reads on to the closing quote. `text` holds the characters read so far, the last one first. -/
def scanString (wanted : Bool) :
    StringState → List Char → Position → List Char → Except Refusal (List Char × Cursor)
  | _, [], position, _ => .error ⟨.endOfString, some position⟩
  | .plain, char :: rest, position, text =>
    if char = '"' then .ok (text.reverse, ⟨rest, position.after char⟩)
    else if char = '\\' then scanString wanted .escape rest (position.after char) text
    else if char.toNat < 0x20 then
      .error ⟨.controlCharacter, some (if wanted then position.after char else position)⟩
    else scanString wanted .plain rest (position.after char) (char :: text)
  | .escape, char :: rest, position, text =>
    match escapedChar? char with
    | some escaped => scanString wanted .plain rest (position.after char) (escaped :: text)
    | none =>
      if char = 'u' then scanString wanted (.unit none 0 4) rest (position.after char) text
      else .error ⟨.badEscape, some (position.afterByte char)⟩
  | .unit leading value count, char :: rest, position, text =>
    match hexValue? char with
    | none => refuseUnit position count (char :: rest)
    | some digit =>
      let position := position.after char
      let value := value * 16 + digit
      if count ≤ 1 then
        match unitOutcome wanted leading value with
        | .error fault => .error ⟨fault, some position⟩
        | .ok (.inl char) => scanString wanted .plain rest position (char :: text)
        | .ok (.inr state) => scanString wanted state rest position text
      else scanString wanted (.unit leading value (count - 1)) rest position text
  | .pairBackslash leading, char :: rest, position, text =>
    if char = '\\' then scanString wanted (.pairLetter leading) rest (position.after char) text
    else .error ⟨.unfinishedSurrogatePair, some (position.afterByte char)⟩
  | .pairLetter leading, char :: rest, position, text =>
    if char = 'u' then scanString wanted (.unit (some leading) 0 4) rest (position.after char) text
    else .error ⟨.unfinishedSurrogatePair, some (position.afterByte char)⟩

namespace Cursor

/-- Reads a string behind its opening quote. -/
def string : Reader String := fun cursor =>
  (scanString true .plain cursor.rest cursor.position []).map
    fun (text, cursor) => (String.ofList text, cursor)

/-- Passes over a string behind its opening quote. -/
def skipString (cursor : Cursor) : Except Refusal Cursor :=
  (scanString false .plain cursor.rest cursor.position []).map Prod.snd

end Cursor

end Flowpress.Json
