import Mathlib.Data.List.Nodup
import Flowpress.Emission.Config
import Flowpress.Proofs.Outcome

/-!
# Configurations that can be used

What the check of a configuration refuses can be said at once: `Usable` lists the
conditions, and a configuration passes the check exactly if it meets all of them.
They keep the names of a file apart, however many parts it has: the name of a part
begins with the prefix, which the other names do not, and ends with a digit, which
no reserved word does.
-/

namespace Flowpress.EmitterConfig

instance (config : EmitterConfig) : Decidable config.Valid :=
  inferInstanceAs (Decidable (config.check = .ok ()))

/-- What a configuration has to meet. -/
structure Usable (config : EmitterConfig) : Prop where
  positive : 0 < config.maxLines
  isIdentifier (role : NameRole) : isIdentifier (config.nameOf role) = true
  driverName_free : config.driverName ∉ config.target.reservedNames
  accumulator_free : config.accumulator ∉ config.target.reservedNames
  driverName_apart : config.collidesWithParts config.driverName = false
  accumulator_ne : config.accumulator ≠ config.driverName
  accumulator_apart : config.collidesWithParts config.accumulator = false

theorem checkIdentifier_eq_ok_iff (config : EmitterConfig) (role : NameRole) :
    config.checkIdentifier role = .ok () ↔ isIdentifier (config.nameOf role) = true := by
  unfold checkIdentifier
  split_ifs with identifier <;> simp [identifier]

theorem checkReserved_eq_ok_iff (config : EmitterConfig) (role : NameRole) :
    config.checkReserved role = .ok () ↔ config.nameOf role ∉ config.target.reservedNames := by
  unfold checkReserved
  split_ifs with reserved <;> simp [reserved]

/-- A configuration passes the check exactly if it meets all conditions. -/
theorem valid_iff (config : EmitterConfig) : config.Valid ↔ config.Usable := by
  unfold Valid check
  simp only [Outcome.error_bind, Outcome.refuse_eq_ok_iff, Outcome.check_bind_eq_ok_iff,
    checkIdentifier_eq_ok_iff, checkReserved_eq_ok_iff, not_or]
  constructor
  · rintro ⟨zero, prefixed, driven, accumulated, driverFree, accumulatorFree, driver,
      ⟨other, apart⟩, -⟩
    exact {
      positive := Nat.pos_of_ne_zero zero
      isIdentifier role := by cases role <;> assumption
      driverName_free := driverFree
      accumulator_free := accumulatorFree
      driverName_apart := Bool.eq_false_iff.mpr driver
      accumulator_ne := other
      accumulator_apart := Bool.eq_false_iff.mpr apart }
  · intro usable
    exact ⟨Nat.ne_of_gt usable.positive, usable.isIdentifier .partPrefix,
      usable.isIdentifier .driverName, usable.isIdentifier .accumulator, usable.driverName_free,
      usable.accumulator_free, Bool.eq_false_iff.mp usable.driverName_apart,
      ⟨usable.accumulator_ne, Bool.eq_false_iff.mp usable.accumulator_apart⟩, rfl⟩

/-! ## Identifiers -/

theorem isIdentifierPart_of_start {char : Char} (start : isIdentifierStart char) :
    isIdentifierPart char := by
  unfold isIdentifierStart at start
  unfold isIdentifierPart Char.isAlphanum
  simp only [Bool.or_eq_true] at start ⊢
  exact start.imp_left .inl

/-- An identifier begins with a letter or an underscore, and goes on with letters, underscores and
digits. -/
theorem isIdentifier_iff (name : String) :
    isIdentifier name ↔ ∃ first rest, name.toList = first :: rest ∧ isIdentifierStart first ∧
      ∀ char ∈ rest, isIdentifierPart char := by
  unfold isIdentifier
  split
  · next empty => simp [empty]
  · next first rest split => simp [split]

theorem isIdentifierPart_of_mem {name : String} (identifier : isIdentifier name) {char : Char}
    (member : char ∈ name.toList) : isIdentifierPart char := by
  obtain ⟨first, rest, split, start, parts⟩ := (isIdentifier_iff name).mp identifier
  rw [split] at member
  rcases List.mem_cons.mp member with rfl | later
  · exact isIdentifierPart_of_start start
  · exact parts char later

/-! ## The names of the parts -/

theorem toList_partName (config : EmitterConfig) (index : Nat) :
    (config.partName index).toList = config.partPrefix.toList ++ Nat.toDigits 10 index := by
  rw [partName, String.toList_append, Nat.toString_eq_ofList_toDigits, String.toList_ofList]

theorem partName_injective (config : EmitterConfig) : Function.Injective config.partName := by
  intro first second same
  have characters := congrArg String.toList same
  rw [toList_partName, toList_partName] at characters
  have digits : Nat.toDigits 10 first = Nat.toDigits 10 second :=
    List.append_cancel_left characters
  rw [← Nat.ofDigitChars_ten_toDigits (n := first), digits, Nat.ofDigitChars_ten_toDigits]

/-- The name of a part ends with a digit, so no name that ends otherwise is the name of a part. -/
theorem ne_partName (config : EmitterConfig) (index : Nat) {name : String}
    (last : name.toList.getLast?.any Char.isDigit = false) : name ≠ config.partName index := by
  rintro rfl
  have some : Nat.toDigits 10 index ≠ [] := Nat.toDigits_ne_nil
  have digit : ((Nat.toDigits 10 index).getLast some).isDigit :=
    Nat.isDigit_of_mem_toDigits (by decide) (by decide) (List.getLast_mem some)
  rw [toList_partName, List.getLast?_append_of_ne_nil _ some, List.getLast?_eq_some_getLast some,
    Option.any_some] at last
  exact Bool.eq_false_iff.mp last digit

theorem isIdentifier_partName {config : EmitterConfig} (usable : config.Usable) (index : Nat) :
    isIdentifier (config.partName index) := by
  obtain ⟨first, rest, split, start, parts⟩ :=
    (isIdentifier_iff _).mp (usable.isIdentifier .partPrefix)
  refine (isIdentifier_iff _).mpr ⟨first, rest ++ Nat.toDigits 10 index, ?_, start, ?_⟩
  · rw [toList_partName]
    exact congrArg (· ++ Nat.toDigits 10 index) split
  · intro char member
    rcases List.mem_append.mp member with named | counted
    · exact parts char named
    · have digit := Nat.isDigit_of_mem_toDigits (by decide) (by decide) counted
      simp [isIdentifierPart, Char.isAlphanum, digit]

/-- A name that does not begin with the prefix of the parts is the name of no part. -/
theorem partName_ne_of_apart {config : EmitterConfig} {name : String}
    (apart : config.collidesWithParts name = false) (index : Nat) :
    config.partName index ≠ name := by
  intro same
  have begins : config.partPrefix.toList.isPrefixOf name.toList := by
    rw [← same, toList_partName, List.isPrefixOf_iff_prefix]
    exact List.prefix_append _ _
  exact Bool.eq_false_iff.mp apart begins

/-- No part is called as the driver is. -/
theorem partName_ne_driverName {config : EmitterConfig} (usable : config.Usable) (index : Nat) :
    config.partName index ≠ config.driverName :=
  partName_ne_of_apart usable.driverName_apart index

/-! ## All names of a file -/

/-- An ASCII letter or an underscore. -/
def IsLetter (char : Char) : Prop :=
  'A' ≤ char ∧ char ≤ 'Z' ∨ 'a' ≤ char ∧ char ≤ 'z' ∨ char = '_'

/-- An ASCII digit. -/
def IsDigit (char : Char) : Prop := '0' ≤ char ∧ char ≤ '9'

/-- A letter or an underscore, and behind it letters, underscores and digits. -/
def Identifier (name : String) : Prop :=
  ∃ first rest, name.toList = first :: rest ∧ IsLetter first ∧
    ∀ char ∈ rest, IsLetter char ∨ IsDigit char

theorem isIdentifierStart_iff (char : Char) : isIdentifierStart char ↔ IsLetter char := by
  unfold isIdentifierStart IsLetter Char.isAlpha Char.isUpper Char.isLower
  simp only [Bool.or_eq_true, Bool.and_eq_true, decide_eq_true_eq, beq_iff_eq, or_assoc]
  rfl

theorem isIdentifierPart_iff (char : Char) :
    isIdentifierPart char ↔ IsLetter char ∨ IsDigit char := by
  rw [← isIdentifierStart_iff]
  unfold isIdentifierPart isIdentifierStart Char.isAlphanum IsDigit Char.isDigit
  simp only [Bool.or_eq_true, Bool.and_eq_true, decide_eq_true_eq, or_right_comm]
  rfl

theorem isIdentifier_iff_identifier (name : String) : isIdentifier name ↔ Identifier name := by
  rw [isIdentifier_iff, Identifier]
  simp only [isIdentifierStart_iff, isIdentifierPart_iff]

/-- No reserved word ends with a digit, so the name of no part is reserved, whatever the prefix. -/
theorem partName_not_reserved (config : EmitterConfig) (target : Target) (index : Nat) :
    config.partName index ∉ target.reservedNames := by
  have last : ∀ word ∈ target.reservedNames,
      word.toList.getLast?.any Char.isDigit = false := by
    cases target <;> decide
  exact fun reserved => ne_partName config index (last _ reserved) rfl

/-- The names that a file of `count` parts gives to its functions and their accumulator. -/
def givenNames (config : EmitterConfig) (count : Nat) : List String :=
  config.driverName :: config.accumulator :: (List.range count).map config.partName

/-- What holds of the driver, the accumulator and every part holds of all names. -/
theorem forall_givenNames {config : EmitterConfig} {property : String → Prop} {count : Nat}
    (driver : property config.driverName) (accumulator : property config.accumulator)
    (part : ∀ index, property (config.partName index)) :
    ∀ name ∈ config.givenNames count, property name := by
  intro name member
  rcases List.mem_cons.mp member with rfl | member
  · exact driver
  rcases List.mem_cons.mp member with rfl | member
  · exact accumulator
  obtain ⟨index, -, rfl⟩ := List.mem_map.mp member
  exact part index

theorem nodup_givenNames {config : EmitterConfig} (usable : config.Usable) (count : Nat) :
    (config.givenNames count).Nodup := by
  have apart {name : String} (apart : config.collidesWithParts name = false) :
      name ∉ (List.range count).map config.partName := by
    intro member
    obtain ⟨index, -, same⟩ := List.mem_map.mp member
    exact partName_ne_of_apart apart index same
  refine List.nodup_cons.mpr ⟨?_, List.nodup_cons.mpr ⟨apart usable.accumulator_apart, ?_⟩⟩
  · rw [List.mem_cons, not_or]
    exact ⟨usable.accumulator_ne.symm, apart usable.driverName_apart⟩
  · exact List.Nodup.map config.partName_injective List.nodup_range

/-- Every reserved word can begin the names of the parts, if neither of the other names begins with
it. -/
theorem usable_reservedPrefix {config : EmitterConfig} (usable : config.Usable) {word : String}
    (reserved : word ∈ config.target.reservedNames)
    (driver : ¬word.toList <+: config.driverName.toList)
    (accumulator : ¬word.toList <+: config.accumulator.toList) :
    Usable { config with partPrefix? := some word } := by
  have identifiers : ∀ target : Target, ∀ word ∈ target.reservedNames, isIdentifier word := by
    intro target
    cases target <;> decide
  have apart {name : String} (other : ¬word.toList <+: name.toList) :
      collidesWithParts { config with partPrefix? := some word } name = false :=
    Bool.eq_false_iff.mpr fun begins => other (List.isPrefixOf_iff_prefix.mp begins)
  exact {
    positive := usable.positive
    isIdentifier role := by
      cases role with
      | partPrefix => exact identifiers _ word reserved
      | driverName => exact usable.isIdentifier .driverName
      | accumulator => exact usable.isIdentifier .accumulator
    driverName_free := usable.driverName_free
    accumulator_free := usable.accumulator_free
    driverName_apart := apart driver
    accumulator_ne := usable.accumulator_ne
    accumulator_apart := apart accumulator }

/-- The names of a file never clash. Under a configuration that can be used, the driver, the
accumulator and any number of parts have distinct names, which are identifiers and not reserved,
although the prefix of the parts may be any reserved word with which the other two do not begin. -/
theorem givenNames_distinct (config : EmitterConfig) (valid : config.Valid) (count : Nat) :
    (config.givenNames count).Nodup ∧
      (∀ name ∈ config.givenNames count,
        Identifier name ∧ name ∉ config.target.reservedNames) ∧
      ∀ word ∈ config.target.reservedNames, ¬word.toList <+: config.driverName.toList →
        ¬word.toList <+: config.accumulator.toList →
        Valid { config with partPrefix? := some word } := by
  have usable := (valid_iff config).mp valid
  have identifier (role : NameRole) : Identifier (config.nameOf role) :=
    (isIdentifier_iff_identifier _).mp (usable.isIdentifier role)
  refine ⟨nodup_givenNames usable count, forall_givenNames ?_ ?_ ?_, ?_⟩
  · exact ⟨identifier .driverName, usable.driverName_free⟩
  · exact ⟨identifier .accumulator, usable.accumulator_free⟩
  · intro index
    exact ⟨(isIdentifier_iff_identifier _).mp (isIdentifier_partName usable index),
      partName_not_reserved config config.target index⟩
  · intro word reserved driver accumulator
    exact (valid_iff _).mpr (usable_reservedPrefix usable reserved driver accumulator)

/-- The prefix of the parts ends with a digit, and the other names are beginnings of it. -/
def nested : EmitterConfig :=
  { ofTarget .rust with
    partPrefix? := some "part1", driverName? := some "part", accumulator? := some "par" }

theorem nested_distinct :
    nested.Valid ∧ (nested.givenNames 100).Nodup ∧
      (∀ name ∈ nested.givenNames 100, Identifier name ∧ name ∉ nested.target.reservedNames) ∧
      Valid { nested with partPrefix? := some "while" } := by
  have valid : nested.Valid := by decide
  obtain ⟨distinct, proper, prefixes⟩ := givenNames_distinct nested valid 100
  exact ⟨valid, distinct, proper, prefixes "while" (by decide) (by decide) (by decide)⟩

end Flowpress.EmitterConfig
