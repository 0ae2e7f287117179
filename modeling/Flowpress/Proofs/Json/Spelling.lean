import Flowpress.Json.Printer
import Flowpress.Proofs.Binary64.Rounding
import Flowpress.Proofs.Json.Numerals

/-!
# Spellings of numbers

The printer writes every number, integer or double, as a numeral of the grammar;
the numeral of a double spells its shortest decimal. The reader takes every such
numeral apart into the parts it was put together from, whatever follows that does
not go on with the number. So what is read from the text of a number depends on the
value of these parts alone.
-/

namespace Flowpress

/-! ## Shortest decimals -/

namespace Binary64

theorem significand_ne_zero {value : Binary64} (nonzero : value.magnitude ≠ 0) :
    value.significand ≠ 0 := by
  unfold significand
  split_ifs with small
  · exact nonzero
  · exact Nat.ne_of_gt (Nat.add_pos_right _ (by decide))

theorem gridPoint?_ne_zero {value : Binary64} {exponent : Int} {point : Nat}
    (found : value.gridPoint? exponent = some point) : point ≠ 0 := by
  unfold gridPoint? at found
  dsimp only at found
  split at found <;> rename_i below _
  · have positive := of_decide_eq_true (Bool.and_eq_true_iff.mp below).1
    split_ifs at found <;> cases found
    · exact Nat.ne_of_gt positive
    · exact Nat.succ_ne_zero _
  · have positive := of_decide_eq_true (Bool.and_eq_true_iff.mp below).1
    cases found
    exact Nat.ne_of_gt positive
  · cases found
    exact Nat.succ_ne_zero _
  · cases found

theorem shortestFrom_digits_ne_zero {value : Binary64} (nonzero : value.magnitude ≠ 0)
    (tries : Nat) (exponent : Int) : (value.shortestFrom tries exponent).digits ≠ 0 := by
  induction tries generalizing exponent with
  | zero =>
      have two : Nat.pow 2 value.exponent.toNat ≠ 0 := Nat.ne_of_gt (Nat.pow_pos (by decide))
      have five : Nat.pow 5 (-value.exponent).toNat ≠ 0 := Nat.ne_of_gt (Nat.pow_pos (by decide))
      exact Nat.mul_ne_zero (Nat.mul_ne_zero (significand_ne_zero nonzero) two) five
  | succ tries inductionHypothesis =>
      rw [shortestFrom]
      split
      · next point found => exact gridPoint?_ne_zero found
      · exact inductionHypothesis (exponent - 1)

/-- Only zero has the digit zero alone, and it has no power of ten. -/
theorem shortest_exponent_eq_zero {value : Binary64} (zero : value.shortest.digits = 0) :
    value.shortest.exponent = 0 := by
  unfold shortest at zero ⊢
  split_ifs at zero ⊢ with none
  · rfl
  · exact absurd zero (shortestFrom_digits_ne_zero none _ _)

end Binary64

namespace Json

namespace Numeral

/-! ## Spellings -/

/-- The power of ten behind its mark and its sign, if there is one. -/
def powerText (numeral : Numeral) : List Char :=
  if numeral.exponent = [] then []
  else 'e' :: (if numeral.exponentNegative then '-' else '+') :: numeral.exponent

/-- What stands behind the whole digits: the fraction behind a point, if there is one, and the power
of ten. -/
def tail (numeral : Numeral) : List Char :=
  if numeral.fraction = [] then numeral.powerText
  else '.' :: (numeral.fraction ++ numeral.powerText)

/-- The text of a numeral behind its sign. -/
def body (numeral : Numeral) : List Char := numeral.whole ++ numeral.tail

/-- The text of a numeral. -/
def spelling (numeral : Numeral) : List Char :=
  if numeral.negative then '-' :: numeral.body else numeral.body

/-- The parts are digits where the grammar asks for digits, no zero stands in front of another
digit, and what is not spelled is not there. -/
structure Proper (numeral : Numeral) : Prop where
  wholeDigits : ∀ digit ∈ numeral.whole, digit.isDigit
  someWhole : numeral.whole ≠ []
  noLeadingZero : numeral.whole.head? = some '0' → numeral.whole = ['0']
  fractionDigits : ∀ digit ∈ numeral.fraction, digit.isDigit
  exponentDigits : ∀ digit ∈ numeral.exponent, digit.isDigit
  signed : numeral.exponent = [] → numeral.exponentNegative = false
  integral : numeral.integral = (numeral.fraction.isEmpty && numeral.exponent.isEmpty)

/-- Behind its sign, the text of a numeral begins with a digit. -/
theorem Proper.exists_body_eq {numeral : Numeral} (proper : numeral.Proper) :
    ∃ digit rest, numeral.body = digit :: rest ∧ digit.isDigit := by
  obtain ⟨digit, others, whole⟩ := List.exists_cons_of_ne_nil proper.someWhole
  refine ⟨digit, others ++ numeral.tail, ?_, proper.wholeDigits digit ?_⟩
  · rw [body, whole, List.cons_append]
  · rw [whole]
    exact List.mem_cons_self

/-- The text of a numeral begins with a sign or a digit. -/
theorem Proper.exists_spelling_eq {numeral : Numeral} (proper : numeral.Proper) :
    ∃ char rest, numeral.spelling = char :: rest ∧ (char = '-' ∨ char.isDigit) := by
  unfold spelling
  split_ifs with negative
  · exact ⟨'-', _, rfl, .inl rfl⟩
  · obtain ⟨digit, rest, text, decimal⟩ := proper.exists_body_eq
    exact ⟨digit, rest, text, .inr decimal⟩

end Numeral

/-! ## Written numbers -/

/-- The digits of a natural number with a sign. -/
def Numeral.ofNat (negative : Bool) (count : Nat) : Numeral :=
  ⟨negative, Nat.toDigits 10 count, [], false, [], true⟩

theorem Numeral.proper_ofNat (negative : Bool) (count : Nat) : (ofNat negative count).Proper where
  wholeDigits _ := isDigit_of_mem_toDigits
  someWhole := Nat.toDigits_ne_nil
  noLeadingZero leading := by
    by_cases zero : count = 0
    · rw [zero]
      rfl
    · exact absurd leading (head?_toDigits_ne zero)
  fractionDigits := List.forall_mem_nil _
  exponentDigits := List.forall_mem_nil _
  signed _ := rfl
  integral := rfl

/-- An integer is written as its digits behind its sign. -/
theorem Number.exists_write_integer_eq (value : Int) (fits : FitsWord value) :
    ∃ negative count, value = (if negative then -count else count : Int) ∧
      (negative = true → count ≠ 0) ∧
      write (.integer value fits) = (Numeral.ofNat negative count).spelling := by
  cases value with
  | ofNat count =>
      refine ⟨false, count, rfl, fun never => absurd never (by decide), ?_⟩
      rw [write_ofNat]
      exact (List.append_nil _).symm
  | negSucc count =>
      refine ⟨true, count + 1, rfl, fun _ => Nat.succ_ne_zero count, ?_⟩
      rw [write_negSucc]
      exact congrArg ('-' :: ·) (List.append_nil _).symm

/-- The number that a numeral spells, its sign left out. -/
def Numeral.amount (numeral : Numeral) : ℚ :=
  let power : Int := Nat.ofDigitChars 10 numeral.exponent 0
  Nat.ofDigitChars 10 (numeral.whole ++ numeral.fraction) 0 *
    10 ^ ((if numeral.exponentNegative then -power else power) - numeral.fraction.length)

/-- A numeral that is no integer has a text behind its sign, and spells a number. -/
structure Numeral.Spells (numeral : Numeral) (negative : Bool) (text : List Char) (amount : ℚ) :
    Prop where
  proper : numeral.Proper
  sign : numeral.negative = negative
  body_eq : text = numeral.body
  broken : numeral.integral = false
  amount_eq : numeral.amount = amount

/-- A point between digits makes a numeral. -/
theorem exists_spells_pointed (negative : Bool) {whole fraction : List Char} {amount : ℚ}
    (wholeDigits : ∀ digit ∈ whole, digit.isDigit) (someWhole : whole ≠ [])
    (noLeadingZero : whole.head? = some '0' → whole = ['0'])
    (fractionDigits : ∀ digit ∈ fraction, digit.isDigit) (someFraction : fraction ≠ [])
    (counts : Nat.ofDigitChars 10 (whole ++ fraction) 0 * 10 ^ (-fraction.length : ℤ) = amount) :
    ∃ numeral : Numeral, numeral.Spells negative (whole ++ '.' :: fraction) amount := by
  refine ⟨⟨negative, whole, fraction, false, [], false⟩, ?_, rfl, ?_, rfl, ?_⟩
  · exact {
      wholeDigits, someWhole, noLeadingZero, fractionDigits
      exponentDigits := List.forall_mem_nil _
      signed := fun _ => rfl
      integral := by simp [someFraction] }
  · simp [Numeral.body, Numeral.tail, Numeral.powerText, someFraction]
  · rw [← counts]
    simp [Numeral.amount]

/-- Zeros behind the digits of a number multiply it by a power of ten. -/
theorem ofDigitChars_zeros (count many : Nat) :
    Nat.ofDigitChars 10 (Nat.toDigits 10 count ++ List.replicate many '0') 0 =
      10 ^ many * count := by
  rw [Nat.ofDigitChars_append, Nat.ofDigitChars_ten_toDigits, Nat.ofDigitChars_replicate_zero]

/-- The digits of a decimal around a point are a numeral, if zero has no power of ten. -/
theorem exists_spells_positional (negative : Bool) {count : Nat} {exponent : Int}
    (plain : count = 0 → exponent = 0) :
    ∃ numeral : Numeral, numeral.Spells negative
      (doubleNotation.positional (Nat.toDigits 10 count) exponent) (count * 10 ^ exponent) := by
  have decimal : ∀ digit ∈ Nat.toDigits 10 count, digit.isDigit := fun _ =>
    isDigit_of_mem_toDigits
  have zeros (many : Nat) : ∀ digit ∈ List.replicate many '0', digit.isDigit :=
    fun digit among => List.eq_of_mem_replicate among ▸ rfl
  unfold DecimalNotation.positional
  dsimp only
  split_ifs with whole inside
  · -- Zeros behind the digits: only a zero begins with one, and it has none behind it.
    have suffix : doubleNotation.wholeSuffix.toList = '.' :: ['0'] := rfl
    rw [suffix]
    refine exists_spells_pointed negative (List.forall_mem_append.mpr ⟨decimal, zeros _⟩)
      (List.append_ne_nil_of_left_ne_nil Nat.toDigits_ne_nil _) (fun begins => ?_) (zeros 1)
      (List.cons_ne_nil '0' []) ?_
    · rw [List.head?_append_of_ne_nil _ Nat.toDigits_ne_nil] at begins
      have zero : count = 0 := by
        by_contra some
        exact head?_toDigits_ne some begins
      rw [zero, plain zero]
      rfl
    · have places : (10 : ℚ) ^ exponent = 10 ^ exponent.toNat := by
        rw [← zpow_natCast, Int.toNat_of_nonneg whole]
      have more : List.replicate exponent.toNat '0' ++ ['0'] =
          List.replicate (exponent.toNat + 1) '0' := List.replicate_succ'.symm
      rw [List.append_assoc, more, ofDigitChars_zeros, places, List.length_singleton]
      push_cast
      rw [pow_succ, zpow_neg_one]
      ring
  · -- The point stands between two digits.
    have some : count ≠ 0 := fun zero => whole (plain zero ▸ le_rfl)
    have behind : (exponent + (Nat.toDigits 10 count).length).toNat ≠ 0 := by omega
    refine exists_spells_pointed negative (fun digit among => decimal digit ?_) (fun none => ?_)
      (fun begins => ?_) (fun digit among => decimal digit ?_) (fun none => ?_) ?_
    · exact List.mem_of_mem_take among
    · rcases List.take_eq_nil_iff.mp none with zero | empty
      · exact behind zero
      · exact Nat.toDigits_ne_nil empty
    · rw [List.head?_take, if_neg behind] at begins
      exact absurd begins (head?_toDigits_ne some)
    · exact List.mem_of_mem_drop among
    · have beyond := List.drop_eq_nil_iff.mp none
      omega
    · have places : (-((Nat.toDigits 10 count).drop
          (exponent + (Nat.toDigits 10 count).length).toNat).length : ℤ) = exponent := by
        rw [List.length_drop]
        omega
      rw [List.take_append_drop, Nat.ofDigitChars_ten_toDigits, places]
  · refine exists_spells_pointed negative (zeros 1) (List.cons_ne_nil '0' []) (fun _ => rfl)
      (List.forall_mem_append.mpr ⟨zeros _, decimal⟩)
      (List.append_ne_nil_of_right_ne_nil _ Nat.toDigits_ne_nil) ?_
    have places : (-(List.replicate (-(exponent + (Nat.toDigits 10 count).length)).toNat '0' ++
        Nat.toDigits 10 count).length : ℤ) = exponent := by
      rw [List.length_append, List.length_replicate]
      omega
    rw [← List.append_assoc, List.replicate_append_replicate, Nat.ofDigitChars_append,
      Nat.ofDigitChars_replicate_zero, Nat.mul_zero, Nat.ofDigitChars_ten_toDigits, places]

/-- A digit, the others behind a point, and a power of ten make a numeral. -/
theorem exists_spells_powered (negative exponentNegative : Bool) {first : Char}
    {fraction : List Char} (decimal : ∀ digit ∈ first :: fraction, digit.isDigit) (power : Nat) :
    ∃ numeral : Numeral, numeral.Spells negative
      (first :: ((if fraction = [] then [] else '.' :: fraction) ++
        'e' :: (if exponentNegative then '-' else '+') :: Nat.toDigits 10 power))
      (Nat.ofDigitChars 10 (first :: fraction) 0 *
        10 ^ ((if exponentNegative then -(power : ℤ) else power) - fraction.length)) := by
  obtain ⟨whole, fractionDigits⟩ := List.forall_mem_cons.mp decimal
  have some : Nat.toDigits 10 power ≠ [] := Nat.toDigits_ne_nil
  refine ⟨⟨negative, [first], fraction, exponentNegative, Nat.toDigits 10 power, false⟩, ?_, rfl,
    ?_, rfl, ?_⟩
  · exact {
      wholeDigits := List.forall_mem_singleton.mpr whole
      someWhole := List.cons_ne_nil first []
      noLeadingZero := fun zero => congrArg (fun first => [first]) (Option.some.inj zero)
      fractionDigits
      exponentDigits := fun _ => isDigit_of_mem_toDigits
      signed := fun none => absurd none some
      integral := by simp }
  · cases fraction <;> simp [Numeral.body, Numeral.tail, Numeral.powerText]
  · rw [Numeral.amount, Nat.ofDigitChars_ten_toDigits]
    rfl

/-- Digits with a power of ten are a numeral. -/
theorem exists_spells_scientific (negative : Bool) (count : Nat) (leading : Int) :
    ∃ numeral : Numeral, numeral.Spells negative
      (doubleNotation.scientific (Nat.toDigits 10 count) leading)
      (count * 10 ^ (leading - ((Nat.toDigits 10 count).length - 1))) := by
  have decimal : ∀ digit ∈ Nat.toDigits 10 count, digit.isDigit := fun _ =>
    isDigit_of_mem_toDigits
  have power : (toString leading.natAbs).toList = Nat.toDigits 10 leading.natAbs :=
    Nat.toList_repr
  have value : Nat.ofDigitChars 10 (Nat.toDigits 10 count) 0 = count :=
    Nat.ofDigitChars_ten_toDigits
  unfold DecimalNotation.scientific
  rw [power]
  cases digits : Nat.toDigits 10 count with
  | nil => exact absurd digits Nat.toDigits_ne_nil
  | cons first fraction =>
      obtain ⟨numeral, spells⟩ := exists_spells_powered negative
        (decide ¬0 ≤ leading) (digits ▸ decimal) leading.natAbs
      refine ⟨numeral, { spells with body_eq := Eq.trans ?_ spells.body_eq,
                                     amount_eq := spells.amount_eq.trans ?_ }⟩
      · have plus : doubleNotation.exponentMark.toList = ['e', '+'] := rfl
        have minus : doubleNotation.negativeExponentMark.toList = ['e', '-'] := rfl
        cases fraction with
        | nil => by_cases large : 0 ≤ leading <;> simp [large, plus, minus]
        | cons second others => by_cases large : 0 ≤ leading <;> simp [large, plus, minus]
      · have places : ((if (decide ¬0 ≤ leading) = true then -(leading.natAbs : ℤ)
            else leading.natAbs) - fraction.length) =
            leading - (((first :: fraction).length : ℤ) - 1) := by
          rw [List.length_cons]
          by_cases large : 0 ≤ leading
          · rw [if_neg (by simpa using large)]
            omega
          · rw [if_pos (by simpa using large)]
            omega
        rw [digits] at value
        rw [value, places]

/-- A decimal with its sign is written as a numeral that spells it, if zero has no power of ten. -/
theorem exists_spells_write (negative : Bool) {decimal : Decimal}
    (plain : decimal.digits = 0 → decimal.exponent = 0) :
    ∃ numeral : Numeral,
      numeral.Spells negative (doubleNotation.write decimal) decimal.amount := by
  have digits : (toString decimal.digits).toList = Nat.toDigits 10 decimal.digits :=
    Nat.toList_repr
  unfold DecimalNotation.write
  rw [digits]
  dsimp only
  split_ifs
  · exact exists_spells_positional negative plain
  · obtain ⟨numeral, spells⟩ := exists_spells_scientific negative decimal.digits
      (decimal.exponent + (Nat.toDigits 10 decimal.digits).length - 1)
    have places : decimal.exponent + (Nat.toDigits 10 decimal.digits).length - 1 -
        ((Nat.toDigits 10 decimal.digits).length - 1) = decimal.exponent := by omega
    rw [places] at spells
    exact ⟨numeral, spells⟩

/-- A double is written as the numeral of its sign that spells its shortest decimal. -/
theorem Number.exists_spells_binary (value : Binary64) (finite : value.isFinite = true) :
    ∃ numeral : Numeral, write (.binary value finite) = numeral.spelling ∧
      numeral.Spells value.isNegative (doubleNotation.write value.shortest)
        value.shortest.amount := by
  obtain ⟨numeral, spells⟩ :=
    exists_spells_write value.isNegative (@Binary64.shortest_exponent_eq_zero value)
  refine ⟨numeral, ?_, spells⟩
  rw [write, writeBinary, spells.body_eq, Numeral.spelling, spells.sign]

/-- What the numeral of a number shows of it: all of an integer, and of a double the sign and the
shortest decimal. -/
def Number.Shown : Number → Numeral → Prop
  | .integer value _, numeral => ∃ negative count,
      value = (if negative then -count else count : Int) ∧ numeral = .ofNat negative count
  | .binary value _, numeral => ∃ text, numeral.Spells value.isNegative text value.shortest.amount

/-- Every number is written as a numeral that shows it. -/
theorem Number.exists_shown (number : Number) :
    ∃ numeral : Numeral,
      number.Shown numeral ∧ numeral.Proper ∧ number.write = numeral.spelling := by
  cases number with
  | integer value fits =>
      obtain ⟨negative, count, amount, -, text⟩ := exists_write_integer_eq value fits
      exact ⟨_, ⟨negative, count, amount, rfl⟩, Numeral.proper_ofNat negative count, text⟩
  | binary value finite =>
      obtain ⟨numeral, text, spells⟩ := exists_spells_binary value finite
      exact ⟨numeral, ⟨_, spells⟩, spells.proper, text⟩

/-- Every number is written as a numeral of the grammar. -/
theorem Number.exists_write_eq_spelling (number : Number) :
    ∃ numeral : Numeral, numeral.Proper ∧ number.write = numeral.spelling := by
  obtain ⟨numeral, -, proper, text⟩ := number.exists_shown
  exact ⟨numeral, proper, text⟩

/-! ## Reading -/

namespace Cursor

variable {numeral : Numeral} {rest : List Char}

/-- Digits without a leading zero are taken as the whole part of a numeral. -/
theorem wholePart_digits {whole : List Char} (decimal : ∀ digit ∈ whole, digit.isDigit)
    (some : whole ≠ []) (noLeadingZero : whole.head? = Option.some '0' → whole = ['0'])
    (stops : ∀ char ∈ rest.head?, char.isDigit = false) (position : Position) :
    ∃ place, wholePart ⟨whole ++ rest, position⟩ = .ok (whole, ⟨rest, place⟩) := by
  cases whole with
  | nil => exact absurd rfl some
  | cons digit others =>
      by_cases zero : digit = '0'
      · obtain rfl : others = [] := by
          have alone := noLeadingZero (congrArg Option.some zero)
          exact (List.cons.inj alone).2
        subst zero
        refine ⟨position.after '0', ?_⟩
        cases rest with
        | nil => rfl
        | cons char rest => simp [wholePart, advance, stops char rfl]
      · obtain ⟨place, taken⟩ := takeDigits_append decimal stops position
        refine ⟨place, ?_⟩
        rw [List.cons_append] at taken ⊢
        simp [wholePart, decimal digit List.mem_cons_self, taken]

/-- At least one digit is taken behind a point. -/
theorem fractionPart_digits {fraction : List Char} (decimal : ∀ digit ∈ fraction, digit.isDigit)
    (some : fraction ≠ []) (stops : ∀ char ∈ rest.head?, char.isDigit = false)
    (position : Position) :
    ∃ place, fractionPart ⟨fraction ++ rest, position⟩ = .ok (fraction, ⟨rest, place⟩) := by
  obtain ⟨place, taken⟩ := takeDigits_append decimal stops position
  refine ⟨place, ?_⟩
  cases fraction with
  | nil => exact absurd rfl some
  | cons digit others =>
      rw [List.cons_append] at taken ⊢
      simp [fractionPart, decimal digit List.mem_cons_self, taken]

/-- A signed power of ten is taken behind its mark. -/
theorem exponentPart_digits (negative : Bool) {exponent : List Char}
    (decimal : ∀ digit ∈ exponent, digit.isDigit) (some : exponent ≠ [])
    (stops : ∀ char ∈ rest.head?, char.isDigit = false) (position : Position) :
    ∃ place, exponentPart ⟨(if negative then '-' else '+') :: (exponent ++ rest), position⟩ =
      .ok ((negative, exponent), ⟨rest, place⟩) := by
  obtain ⟨place, taken⟩ := takeDigits_append decimal stops
    (position.after (if negative then '-' else '+'))
  refine ⟨place, ?_⟩
  cases exponent with
  | nil => exact absurd rfl some
  | cons digit others =>
      rw [List.cons_append] at taken ⊢
      cases negative <;>
        simp_all [exponentPart, advance]

/-- The last step in taking a numeral apart, behind its fraction. -/
def powerPart (negative : Bool) (whole fraction : List Char) (pointed : Bool) (cursor : Cursor) :
    Except Refusal ((Numeral × Cursor) × Cursor) := do
  if cursor.atExponent then
    let ((exponentNegative, exponent), after) ← cursor.advance.exponentPart
    let signed := match cursor.advance.rest with
      | '+' :: _ | '-' :: _ => cursor.advance.advance
      | _ => cursor.advance
    .ok ((⟨negative, whole, fraction, exponentNegative, exponent, false⟩, signed), after)
  else
    .ok ((⟨negative, whole, fraction, false, [], !pointed⟩, cursor), cursor)

theorem numeralParts_pointed {negative : Bool} {cursor : Cursor} {whole others : List Char}
    {position : Position} (taken : cursor.wholePart = .ok (whole, ⟨'.' :: others, position⟩)) :
    numeralParts negative cursor =
      fractionPart ⟨others, position.after '.'⟩ >>= fun (fraction, cursor) =>
        cursor.powerPart negative whole fraction true := by
  rw [numeralParts, taken]
  rfl

theorem numeralParts_plain {negative : Bool} {cursor : Cursor} {whole left : List Char}
    {position : Position} (taken : cursor.wholePart = .ok (whole, ⟨left, position⟩))
    (plain : ∀ char ∈ left.head?, char ≠ '.') :
    numeralParts negative cursor = powerPart negative whole [] false ⟨left, position⟩ := by
  rw [numeralParts, taken, Outcome.ok_bind, powerPart]
  cases left with
  | nil => rfl
  | cons char others =>
      have noPoint := plain char rfl
      simp only [List.cons.injEq, noPoint, false_and, imp_self, implies_true, Bool.false_eq_true,
        if_false]
      rfl

/-- The power of ten is taken as it was spelled. -/
theorem powerPart_text (proper : numeral.Proper) (ends : EndsNumber rest) (position : Position) :
    ∃ mark place, powerPart numeral.negative numeral.whole numeral.fraction
        (!numeral.fraction.isEmpty) ⟨numeral.powerText ++ rest, position⟩ =
      .ok ((numeral, mark), ⟨rest, place⟩) := by
  obtain ⟨negative, whole, fraction, exponentNegative, exponent, integral⟩ := numeral
  obtain ⟨-, -, -, -, exponentDigits, signed, same⟩ := proper
  dsimp only at *
  subst same
  by_cases powered : exponent = []
  · subst powered
    obtain rfl := signed rfl
    refine ⟨⟨rest, position⟩, position, ?_⟩
    have noMark : atExponent ⟨rest, position⟩ = false := by
      cases rest with
      | nil => rfl
      | cons char rest =>
          obtain ⟨-, -, lower, upper⟩ := ends char rfl
          simp [atExponent, lower, upper]
    simp [powerPart, Numeral.powerText, noMark]
  · obtain ⟨place, taken⟩ := exponentPart_digits exponentNegative exponentDigits powered
      (fun char first => (ends char first).1) (position.after 'e')
    refine ⟨⟨exponent ++ rest, (position.after 'e').after (if exponentNegative then '-' else '+')⟩,
      place, ?_⟩
    have mark (others : List Char) : atExponent ⟨'e' :: others, position⟩ = true := rfl
    cases exponentNegative <;> simp_all [powerPart, Numeral.powerText, advance]

/-- A numeral is taken apart into its parts. -/
theorem numeralParts_body (proper : numeral.Proper) (ends : EndsNumber rest)
    (position : Position) :
    ∃ mark place, numeralParts numeral.negative ⟨numeral.body ++ rest, position⟩ =
      .ok ((numeral, mark), ⟨rest, place⟩) := by
  -- Neither a digit nor a point follows the digits in front of the power of ten.
  have stops : ∀ char ∈ (numeral.powerText ++ rest).head?, char.isDigit = false ∧ char ≠ '.' := by
    unfold Numeral.powerText
    split_ifs with none
    · exact fun char first => ⟨(ends char first).1, (ends char first).2.1⟩
    all_goals
      rintro char ⟨⟩
      decide
  rw [Numeral.body, Numeral.tail]
  split_ifs with pointed
  · obtain ⟨place, taken⟩ := wholePart_digits proper.wholeDigits proper.someWhole
      proper.noLeadingZero (fun char first => (stops char first).1) position
    obtain ⟨mark, last, parts⟩ := powerPart_text proper ends place
    refine ⟨mark, last, ?_⟩
    rw [List.append_assoc, numeralParts_plain taken fun char first => (stops char first).2]
    rwa [pointed] at parts
  · have point : ∀ char ∈ ('.' :: (numeral.fraction ++ (numeral.powerText ++ rest))).head?,
        char.isDigit = false := by
      rintro char ⟨⟩
      rfl
    obtain ⟨place, taken⟩ := wholePart_digits proper.wholeDigits proper.someWhole
      proper.noLeadingZero point position
    obtain ⟨behind, read⟩ := fractionPart_digits proper.fractionDigits pointed
      (fun char first => (stops char first).1) (place.after '.')
    obtain ⟨mark, last, parts⟩ := powerPart_text proper ends behind
    refine ⟨mark, last, ?_⟩
    have filled : numeral.fraction.isEmpty = false := by simp [pointed]
    rw [filled] at parts
    simp only [List.append_assoc, List.cons_append, numeralParts_pointed taken, read,
      Outcome.ok_bind]
    exact parts

/-- What is read from the text of a numeral behind its sign is its value. -/
theorem numeral_body (proper : numeral.Proper) {number : Number}
    (value : numeral.value? = some number) (ends : EndsNumber rest) (position : Position) :
    ∃ place, Cursor.numeral numeral.negative ⟨numeral.body ++ rest, position⟩ =
      .ok (number, ⟨rest, place⟩) := by
  obtain ⟨mark, place, parts⟩ := numeralParts_body proper ends position
  refine ⟨place, ?_⟩
  rw [Cursor.numeral, parts, Outcome.ok_bind]
  simp only [value]

/-- A numeral without a value is refused. -/
theorem numeral_body_refused (proper : numeral.Proper) (value : numeral.value? = none)
    (ends : EndsNumber rest) (position : Position) :
    ∃ refusal, Cursor.numeral numeral.negative ⟨numeral.body ++ rest, position⟩ =
      .error refusal := by
  obtain ⟨mark, place, parts⟩ := numeralParts_body proper ends position
  rw [Cursor.numeral, parts, Outcome.ok_bind]
  simp only [value]
  split_ifs
  · exact ⟨_, rfl⟩
  · exact ⟨_, rfl⟩

end Cursor

end Json

end Flowpress
