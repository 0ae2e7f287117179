import Mathlib.Data.List.Basic
import Flowpress.Json.Printer
import Flowpress.Proofs.Json.Order

/-!
# Parts of values

What is said of all elements of an array or of all members of an object is said
of lists here, so that statements about values go by `Value.induction`: a
statement holds of a container if it holds of every value in it. How deep a value
nests, its numbers and its texts are found by running through it once, and
`mapNumbers` changes every number in its place.
-/

namespace Flowpress.Json

/-- The number is no double. -/
def Number.IsInteger : Number → Prop
  | .integer .. => True
  | .binary .. => False

instance (number : Number) : Decidable number.IsInteger :=
  match number with
  | .integer .. => .isTrue trivial
  | .binary .. => .isFalse id

namespace Value

/-- Induction over a value and the values in it. -/
@[elab_as_elim]
theorem induction {motive : Value → Prop} (null : motive .null)
    (bool : ∀ value, motive (.bool value)) (number : ∀ value, motive (.number value))
    (string : ∀ value, motive (.string value))
    (array : ∀ elements, (∀ element ∈ elements, motive element) → motive (.array elements))
    (object : ∀ members, (∀ member ∈ members, motive member.2) → motive (.object members))
    (value : Value) : motive value :=
  @Value.rec motive (fun elements => ∀ element ∈ elements, motive element)
    (fun members => ∀ member ∈ members, motive member.2) (fun member => motive member.2)
    null bool number string array object
    (List.forall_mem_nil _) (fun _ _ first others => List.forall_mem_cons.mpr ⟨first, others⟩)
    (List.forall_mem_nil _) (fun _ _ first others => List.forall_mem_cons.mpr ⟨first, others⟩)
    (fun _ _ holds => holds) value

/-! ## Nesting -/

mutual

/-- How many containers are open at the deepest place of the text of a value. -/
def nesting : Value → Nat
  | .array elements => nestingElements elements + 1
  | .object members => nestingMembers members + 1
  | _ => 0

/-- The deepest nesting of the elements. -/
def nestingElements : List Value → Nat
  | [] => 0
  | element :: rest => max element.nesting (nestingElements rest)

/-- The deepest nesting of the values of the members. -/
def nestingMembers : List (String × Value) → Nat
  | [] => 0
  | (_, value) :: rest => max value.nesting (nestingMembers rest)

end

theorem nestingElements_le_iff {elements : List Value} {levels : Nat} :
    nestingElements elements ≤ levels ↔ ∀ element ∈ elements, element.nesting ≤ levels := by
  induction elements with
  | nil => simp [nestingElements]
  | cons element elements inductionHypothesis =>
      rw [nestingElements, Nat.max_le, inductionHypothesis, List.forall_mem_cons]

theorem nestingMembers_le_iff {members : Members Value} {levels : Nat} :
    nestingMembers members ≤ levels ↔ ∀ member ∈ members, member.2.nesting ≤ levels := by
  induction members with
  | nil => simp [nestingMembers]
  | cons member members inductionHypothesis =>
      rw [nestingMembers, Nat.max_le, inductionHypothesis, List.forall_mem_cons]

/-! ## Numbers and texts -/

mutual

/-- A value and the values in it. -/
def within : Value → List Value
  | .array elements => .array elements :: withinElements elements
  | .object members => .object members :: withinMembers members
  | scalar => [scalar]

/-- The elements and the values in them. -/
def withinElements : List Value → List Value
  | [] => []
  | element :: rest => element.within ++ withinElements rest

/-- The values of the members and the values in them. -/
def withinMembers : List (String × Value) → List Value
  | [] => []
  | (_, value) :: rest => value.within ++ withinMembers rest

end

theorem withinElements_eq_flatMap (elements : List Value) :
    withinElements elements = elements.flatMap within := by
  induction elements with
  | nil => rfl
  | cons element elements inductionHypothesis =>
      rw [withinElements, inductionHypothesis, List.flatMap_cons]

theorem withinMembers_eq_flatMap (members : Members Value) :
    withinMembers members = members.flatMap fun member => member.2.within := by
  induction members with
  | nil => rfl
  | cons member members inductionHypothesis =>
      rw [withinMembers, inductionHypothesis, List.flatMap_cons]

/-- A number as a list, and nothing for any other value. -/
def ownNumbers : Value → List Number
  | .number value => [value]
  | _ => []

/-- The content of a string, and the names of the members of an object. -/
def ownTexts : Value → List String
  | .string text => [text]
  | .object members => members.map Prod.fst
  | _ => []

/-- The numbers in a value. -/
def numbers (value : Value) : List Number := value.within.flatMap ownNumbers

/-- The strings in a value and the names of its members. -/
def texts (value : Value) : List String := value.within.flatMap ownTexts

theorem forall_numbers_array_iff {property : Number → Prop} {elements : List Value} :
    (∀ number ∈ (array elements).numbers, property number) ↔
      ∀ element ∈ elements, ∀ number ∈ element.numbers, property number := by
  have own : (array elements).ownNumbers = [] := rfl
  rw [numbers, within, withinElements_eq_flatMap, List.flatMap_cons, own, List.nil_append,
    List.flatMap_assoc, List.forall_mem_flatMap]
  rfl

theorem forall_numbers_object_iff {property : Number → Prop} {members : Members Value} :
    (∀ number ∈ (object members).numbers, property number) ↔
      ∀ member ∈ members, ∀ number ∈ member.2.numbers, property number := by
  have own : (object members).ownNumbers = [] := rfl
  rw [numbers, within, withinMembers_eq_flatMap, List.flatMap_cons, own, List.nil_append,
    List.flatMap_assoc, List.forall_mem_flatMap]
  rfl

theorem texts_array (elements : List Value) :
    (array elements).texts = elements.flatMap texts := by
  have own : (array elements).ownTexts = [] := rfl
  rw [texts, within, withinElements_eq_flatMap, List.flatMap_cons, own, List.nil_append,
    List.flatMap_assoc]
  rfl

theorem texts_object (members : Members Value) :
    (object members).texts =
      members.map Prod.fst ++ members.flatMap fun member => member.2.texts := by
  have own : (object members).ownTexts = members.map Prod.fst := rfl
  rw [texts, within, withinMembers_eq_flatMap, List.flatMap_cons, own, List.flatMap_assoc]
  rfl

/-! ## Changing numbers -/

mutual

/-- The value with every number in it changed. -/
def mapNumbers (change : Number → Number) : Value → Value
  | .null => .null
  | .bool value => .bool value
  | .number value => .number (change value)
  | .string text => .string text
  | .array elements => .array (mapNumbersElements change elements)
  | .object members => .object (mapNumbersMembers change members)

/-- The elements with every number in them changed. -/
def mapNumbersElements (change : Number → Number) : List Value → List Value
  | [] => []
  | element :: rest => element.mapNumbers change :: mapNumbersElements change rest

/-- The members with every number in their values changed. -/
def mapNumbersMembers (change : Number → Number) : List (String × Value) → List (String × Value)
  | [] => []
  | (name, value) :: rest => (name, value.mapNumbers change) :: mapNumbersMembers change rest

end

theorem mapNumbersElements_eq_map (change : Number → Number) (elements : List Value) :
    mapNumbersElements change elements = elements.map (mapNumbers change) := by
  induction elements with
  | nil => rfl
  | cons element elements inductionHypothesis =>
      rw [mapNumbersElements, inductionHypothesis, List.map_cons]

theorem mapNumbersMembers_eq_mapValues (change : Number → Number) (members : Members Value) :
    mapNumbersMembers change members = members.mapValues (mapNumbers change) := by
  induction members with
  | nil => rfl
  | cons member members inductionHypothesis =>
      rw [mapNumbersMembers, inductionHypothesis, Members.mapValues_cons]

/-- Changing every number twice is changing it once. -/
theorem mapNumbers_mapNumbers (first second : Number → Number) (value : Value) :
    (value.mapNumbers first).mapNumbers second = value.mapNumbers fun number =>
      second (first number) := by
  induction value using induction with
  | null => rfl
  | bool value => rfl
  | number value => rfl
  | string text => rfl
  | array elements inductionHypothesis =>
      rw [mapNumbers, mapNumbers, mapNumbers, mapNumbersElements_eq_map,
        mapNumbersElements_eq_map, mapNumbersElements_eq_map, List.map_map]
      exact congrArg array (List.map_inj_left.mpr inductionHypothesis)
  | object members inductionHypothesis =>
      rw [mapNumbers, mapNumbers, mapNumbers, mapNumbersMembers_eq_mapValues,
        mapNumbersMembers_eq_mapValues, mapNumbersMembers_eq_mapValues,
        Members.mapValues_mapValues]
      exact congrArg object (Members.mapValues_inj_left.mpr inductionHypothesis)

/-- Two changes make the same of a value exactly if they make the same of its numbers. -/
theorem mapNumbers_eq_iff {first second : Number → Number} {value : Value} :
    value.mapNumbers first = value.mapNumbers second ↔
      ∀ number ∈ value.numbers, first number = second number := by
  induction value using induction with
  | null => exact iff_of_true rfl (List.forall_mem_nil _)
  | bool value => exact iff_of_true rfl (List.forall_mem_nil _)
  | number value =>
      have own : (number value).numbers = [value] := rfl
      rw [mapNumbers, mapNumbers, number.injEq, own, List.forall_mem_singleton]
  | string text => exact iff_of_true rfl (List.forall_mem_nil _)
  | array elements inductionHypothesis =>
      rw [mapNumbers, mapNumbers, array.injEq, mapNumbersElements_eq_map,
        mapNumbersElements_eq_map, List.map_inj_left, forall_numbers_array_iff]
      exact forall₂_congr inductionHypothesis
  | object members inductionHypothesis =>
      rw [mapNumbers, mapNumbers, object.injEq, mapNumbersMembers_eq_mapValues,
        mapNumbersMembers_eq_mapValues, Members.mapValues_inj_left, forall_numbers_object_iff]
      exact forall₂_congr inductionHypothesis

/-- Leaving every number as it is changes nothing. -/
theorem mapNumbers_self (value : Value) : (value.mapNumbers fun number => number) = value := by
  induction value using induction with
  | null => rfl
  | bool value => rfl
  | number value => rfl
  | string text => rfl
  | array elements inductionHypothesis =>
      rw [mapNumbers, mapNumbersElements_eq_map, List.map_congr_left inductionHypothesis,
        List.map_id']
  | object members inductionHypothesis =>
      rw [mapNumbers, mapNumbersMembers_eq_mapValues,
        Members.mapValues_eq_self inductionHypothesis]

/-! ## Order and texts of the parts -/

theorem canonicalElements_iff {elements : List Value} :
    CanonicalElements elements ↔ ∀ element ∈ elements, element.Canonical := by
  induction elements with
  | nil => simp [CanonicalElements]
  | cons element elements inductionHypothesis =>
      rw [CanonicalElements, inductionHypothesis, List.forall_mem_cons]

theorem canonicalMembers_iff {members : Members Value} :
    CanonicalMembers members ↔ ∀ member ∈ members, member.2.Canonical := by
  induction members with
  | nil => simp [CanonicalMembers]
  | cons member members inductionHypothesis =>
      rw [CanonicalMembers, inductionHypothesis, List.forall_mem_cons]

instance {α : Type} (members : Members α) : Decidable (Members.Ordered members) :=
  inferInstanceAs (Decidable (List.Pairwise _ _))

mutual

instance decidableCanonical : (value : Value) → Decidable value.Canonical
  | .null | .bool _ | .number _ | .string _ => .isTrue trivial
  | .array elements => decidableCanonicalElements elements
  | .object members =>
    @instDecidableAnd _ _ inferInstance (decidableCanonicalMembers members)

instance decidableCanonicalElements :
    (elements : List Value) → Decidable (CanonicalElements elements)
  | [] => .isTrue trivial
  | element :: rest =>
    @instDecidableAnd _ _ (decidableCanonical element) (decidableCanonicalElements rest)

instance decidableCanonicalMembers :
    (members : List (String × Value)) → Decidable (CanonicalMembers members)
  | [] => .isTrue trivial
  | (_, value) :: rest =>
    @instDecidableAnd _ _ (decidableCanonical value) (decidableCanonicalMembers rest)

end

theorem writeElements_eq_map (layout : Layout) (depth : Nat) (elements : List Value) :
    writeElements layout depth elements = elements.map (writeAt layout depth) := by
  induction elements with
  | nil => rfl
  | cons element elements inductionHypothesis =>
      rw [writeElements, inductionHypothesis, List.map_cons]

theorem writeMembers_eq_map (layout : Layout) (depth : Nat) (members : Members Value) :
    writeMembers layout depth members =
      members.map fun member => layout.member member.1 (member.2.writeAt layout depth) := by
  induction members with
  | nil => rfl
  | cons member members inductionHypothesis =>
      rw [writeMembers, inductionHypothesis, List.map_cons]

end Value

end Flowpress.Json
