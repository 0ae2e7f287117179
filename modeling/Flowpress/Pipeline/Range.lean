import Flowpress.Pipeline.View

/-!
# Ranges

A range runs from one machine integer up to another, which it leaves out. Its
elements are made when they are pulled, so a view over a range does not know how
many it has, and what a plan skips at the front of it costs nothing.
-/

namespace Flowpress

/-- Machine integers: a word for every integer between two bounds. -/
class Word (α : Type) where
  toInt : α → Int
  /-- The word of an integer between the bounds. -/
  ofInt : Int → α
  least : Int
  greatest : Int
  least_le (word : α) : least ≤ toInt word
  le_greatest (word : α) : toInt word ≤ greatest
  ofInt_toInt (word : α) : ofInt (toInt word) = word
  toInt_ofInt (value : Int) (above : least ≤ value) (below : value ≤ greatest) :
    toInt (ofInt value) = value

namespace Word

instance : Word Int32 where
  toInt := Int32.toInt
  ofInt := Int32.ofInt
  least := Int32.minValue.toInt
  greatest := Int32.maxValue.toInt
  least_le := Int32.minValue_le_toInt
  le_greatest word := Int32.toInt_le word
  ofInt_toInt word := Int32.ofInt_toInt word
  toInt_ofInt value above below := by
    have bounds : Int32.minValue.toInt = -2 ^ 31 ∧ Int32.maxValue.toInt = 2 ^ 31 - 1 := by decide
    exact Int32.toInt_ofInt_of_le (by omega) (by omega)

instance : Word Int64 where
  toInt := Int64.toInt
  ofInt := Int64.ofInt
  least := Int64.minValue.toInt
  greatest := Int64.maxValue.toInt
  least_le := Int64.minValue_le_toInt
  le_greatest word := Int64.toInt_le word
  ofInt_toInt word := Int64.ofInt_toInt word
  toInt_ofInt value above below := by
    have bounds : Int64.minValue.toInt = -2 ^ 63 ∧ Int64.maxValue.toInt = 2 ^ 63 - 1 := by decide
    exact Int64.toInt_ofInt_of_le (by omega) (by omega)

/-- How many integers there are from one word up to another. -/
def width {α : Type} [Word α] (low high : α) : Nat := (toInt high - toInt low).toNat

end Word

/-- The integers from `low` up to `high`, which is left out; none if `low` is not below. -/
def Source.range {ε α : Type} [Word α] (low high : α) : Source ε α :=
  .indexed 0 (Word.width low high) fun index => Word.ofInt (Word.toInt low + index)

end Flowpress
