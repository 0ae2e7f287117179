import Flowpress.Toml.Quoted

/-!
# TOML dates and times

A date has a year of four digits, a month and a day that the month has. A time of
day has hours, minutes and seconds, where the sixtieth second is a leap second,
and may have fractions of a second. Behind a date and a time may stand an offset.
-/

namespace Flowpress.Toml

/-- Takes a character that must stand here. -/
def expect (wanted : Char) : List Char → Option (List Char)
  | char :: rest => if char = wanted then some rest else none
  | [] => none

/-- A number of exactly so many digits. -/
def fixedDigits (count : Nat) : Reader Nat := fun text =>
  let digits := text.take count
  if digits.length = count ∧ digits.all Char.isDigit then
    let number := digits.foldl (fun number digit => number * 10 + (digit.toNat - '0'.toNat)) 0
    some (number, text.drop count)
  else none

def isLeapYear (year : Nat) : Bool := year % 4 == 0 && (year % 100 != 0 || year % 400 == 0)

/-- The number of days of a month. -/
def daysOf (year month : Nat) : Nat :=
  match month with
  | 2 => if isLeapYear year then 29 else 28
  | 4 | 6 | 9 | 11 => 30
  | _ => 31

/-- Takes a date. -/
def date (text : List Char) : Option (List Char) := do
  let (year, text) ← fixedDigits 4 text
  let (month, text) ← fixedDigits 2 (← expect '-' text)
  let (day, text) ← fixedDigits 2 (← expect '-' text)
  if 1 ≤ month ∧ month ≤ 12 ∧ 1 ≤ day ∧ day ≤ daysOf year month then some text else none

/-- Takes fractions of a second if there are any. -/
def fractionOfSecond : List Char → List Char
  | '.' :: char :: rest => if char.isDigit then rest.dropWhile Char.isDigit else '.' :: char :: rest
  | text => text

/-- Takes a time of day. -/
def timeOfDay (text : List Char) : Option (List Char) := do
  let (hour, text) ← fixedDigits 2 text
  let (minute, text) ← fixedDigits 2 (← expect ':' text)
  let (second, text) ← fixedDigits 2 (← expect ':' text)
  if hour ≤ 23 ∧ minute ≤ 59 ∧ second ≤ 60 then some (fractionOfSecond text) else none

/-- Takes hours and minutes of an offset. -/
def offsetClock (text : List Char) : Option (List Char) := do
  let (hour, text) ← fixedDigits 2 text
  let (minute, text) ← fixedDigits 2 (← expect ':' text)
  if hour ≤ 23 ∧ minute ≤ 59 then some text else none

/-- Takes an offset if there is one. -/
def offset : List Char → Option (List Char)
  | 'Z' :: rest | 'z' :: rest => some rest
  | '+' :: rest | '-' :: rest => offsetClock rest
  | text => some text

/-- Takes the time of day behind a date if there is one. -/
def timeBehindDate (text : List Char) : Option (List Char) :=
  let timed (rest : List Char) : Option (List Char) :=
    match timeOfDay rest with
    | some rest => offset rest
    | none => some text
  match text with
  | 'T' :: rest | 't' :: rest | ' ' :: rest => timed rest
  | text => some text

/-- A date, a time of day or both, as written. -/
def dateTime : Reader String := fun text => do
  let rest ← match date text with
    | some rest => timeBehindDate rest
    | none => timeOfDay text
  some (String.ofList (text.take (text.length - rest.length)), rest)

end Flowpress.Toml
