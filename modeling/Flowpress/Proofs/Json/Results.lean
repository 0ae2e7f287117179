import Flowpress.Json.Record
import Flowpress.Proofs.Json.Order
import Flowpress.Proofs.Json.Parts
import Flowpress.Proofs.Outcome

/-!
# What readers give

Whatever text a reader meets, what it gives has the property that its parts are
known to give. `Gives` says so of a reader, and is closed under the ways in which
readers are put together. So every value that is read has its members in
ascending order, each name once, and nests no deeper than the levels allowed.
-/

namespace Flowpress.Json

namespace Cursor

variable {α σ : Type}

/-- Everything that the reader gives has the property. -/
def Gives (reader : Reader α) (property : α → Prop) : Prop :=
  ∀ cursor value after, reader cursor = .ok (value, after) → property value

/-! ## Refusals -/

theorem refuseValue_ne_ok (cursor : Cursor) (expected : String) (result : α) :
    cursor.refuseValue expected ≠ .ok result := by
  unfold refuseValue
  split
  all_goals try split_ifs
  all_goals
    intro given
    simp [Outcome.bind_eq_ok_iff, refuse, refuseNext] at given

theorem refuseName_ne_ok (cursor : Cursor) (fault : Fault) (result : α) :
    cursor.refuseName fault ≠ .ok result := by
  unfold refuseName
  dsimp only
  split <;> exact fun given => by cases given

/-- What is given behind a bracket is given with one level less. -/
theorem exists_of_enter {body : Nat → Reader α} {property : Nat → α → Prop} {levels : Nat}
    (gives : ∀ left, levels = left + 1 → Gives (body left) (property left))
    {cursor after : Cursor} {value : α} (given : cursor.enter levels body = .ok (value, after)) :
    ∃ left, levels = left + 1 ∧ property left value := by
  cases levels with
  | zero => cases given
  | succ left => exact ⟨left, rfl, gives left rfl _ _ _ given⟩

/-! ## Lists -/

/-- The elements of a list have the property if the reader of elements gives it. -/
theorem gives_elementsFrom {element : Reader α} {property : α → Prop}
    (gives : Gives element property) (bound : Nat) (first : Bool) {taken : List α}
    (earlier : ∀ value ∈ taken, property value) :
    Gives (elementsFrom element bound first taken) (∀ value ∈ ·, property value) := by
  induction bound generalizing first taken with
  | zero =>
      intro cursor values after given
      cases given
  | succ bound inductionHypothesis =>
      intro cursor values after given
      obtain ⟨⟨more, next⟩, -, rest⟩ := Outcome.bind_eq_ok_iff.mp given
      cases more with
      | false =>
          cases rest
          intro value among
          exact earlier value (List.mem_reverse.mp among)
      | true =>
          obtain ⟨⟨value, behind⟩, here, later⟩ := Outcome.bind_eq_ok_iff.mp rest
          have holds := gives next value behind here
          exact inductionHypothesis false (List.forall_mem_cons.mpr ⟨holds, earlier⟩) _ _ _ later

theorem gives_elements {element : Reader α} {property : α → Prop} (gives : Gives element property)
    (bound : Nat) : Gives (elements bound element) (∀ value ∈ ·, property value) :=
  gives_elementsFrom gives (bound + 1) true (List.forall_mem_nil _)

/-! ## Objects -/

/-- What every field preserves holds when the object closes. -/
theorem gives_fieldsFrom {field : σ → String → Except Fault (Reader σ)} {invariant : σ → Prop}
    (preserves : ∀ state name reader, invariant state → field state name = .ok reader →
      Gives reader invariant)
    (bound : Nat) (first : Bool) {state : σ} (holds : invariant state) :
    Gives (fieldsFrom field bound first state) invariant := by
  induction bound generalizing first state with
  | zero =>
      intro cursor final after given
      cases given
  | succ bound inductionHypothesis =>
      intro cursor final after given
      obtain ⟨⟨more, next⟩, -, rest⟩ := Outcome.bind_eq_ok_iff.mp given
      cases more with
      | false =>
          cases rest
          exact holds
      | true =>
          obtain ⟨⟨name, behind⟩, -, rest⟩ := Outcome.bind_eq_ok_iff.mp rest
          cases known : field state name with
          | error fault =>
              simp only [known] at rest
              exact absurd rest (refuseName_ne_ok behind fault _)
          | ok reader =>
              simp only [known] at rest
              obtain ⟨colon, -, rest⟩ := Outcome.bind_eq_ok_iff.mp rest
              obtain ⟨⟨changed, left⟩, here, later⟩ := Outcome.bind_eq_ok_iff.mp rest
              have kept := preserves state name reader holds known colon changed left here
              exact inductionHypothesis false kept _ _ _ later

theorem gives_fields {field : σ → String → Except Fault (Reader σ)} {invariant : σ → Prop}
    (preserves : ∀ state name reader, invariant state → field state name = .ok reader →
      Gives reader invariant)
    (bound : Nat) {initial : σ} (holds : invariant initial) :
    Gives (fields bound field initial) invariant :=
  gives_fieldsFrom preserves (bound + 1) true holds

/-- Members are put in order as they are read. -/
theorem gives_members {value : Reader α} {property : α → Prop} (gives : Gives value property)
    (bound : Nat) :
    Gives (members bound value) fun entries =>
      Members.Ordered entries ∧ ∀ entry ∈ entries, property entry.2 := by
  refine gives_fields ?_ bound ⟨.nil, List.forall_mem_nil _⟩
  rintro entries name reader ⟨ordered, holds⟩ ⟨⟩ cursor changed after given
  obtain ⟨⟨found, left⟩, here, last⟩ := Outcome.bind_eq_ok_iff.mp given
  cases last
  refine ⟨Members.ordered_alter ordered name _, fun entry among => ?_⟩
  rcases Members.mem_alter among with kept | ⟨earlier, rfl, -⟩
  · exact holds entry kept
  · exact gives cursor found _ here

/-! ## Records -/

section Records

variable {levels : Nat} {known : List (RecordField σ)} {invariant : σ → Prop}

/-- A field that is not known leaves the record alone. -/
theorem gives_fieldNamed
    (preserves : ∀ field ∈ known, ∀ state, invariant state →
      Gives (field.read levels state) invariant)
    (bound : Nat) (state : σ) (name : String) (reader : Reader σ) (holds : invariant state)
    (found : fieldNamed bound levels known state name = .ok reader) : Gives reader invariant := by
  unfold fieldNamed at found
  split at found
  · next field among =>
      split_ifs at found
      cases found
      exact preserves field (List.mem_of_find?_eq_some among) state holds
  · cases found
    intro cursor final after given
    obtain ⟨left, -, last⟩ := Outcome.bind_eq_ok_iff.mp given
    cases last
    exact holds

/-- The fields that an array has are read one after another. -/
theorem gives_fieldsInOrder
    (preserves : ∀ field ∈ known, ∀ state, invariant state →
      Gives (field.read levels state) invariant)
    (first : Bool) {state : σ} (holds : invariant state) :
    Gives (fieldsInOrder levels first known state) invariant := by
  induction known generalizing first state with
  | nil =>
      intro cursor final after given
      obtain ⟨left, -, last⟩ := Outcome.bind_eq_ok_iff.mp given
      cases last
      exact holds
  | cons field fields inductionHypothesis =>
      obtain ⟨preservesHere, preservesLater⟩ := List.forall_mem_cons.mp preserves
      intro cursor final after given
      obtain ⟨⟨more, next⟩, -, rest⟩ := Outcome.bind_eq_ok_iff.mp given
      cases more with
      | false =>
          cases rest
          exact holds
      | true =>
          obtain ⟨⟨changed, left⟩, here, later⟩ := Outcome.bind_eq_ok_iff.mp rest
          have kept := preservesHere state holds next changed left here
          exact inductionHypothesis preservesLater false kept _ _ _ later

end Records

/-! ## Whole containers -/

variable {bound levels : Nat}

theorem gives_list {element : Nat → Reader α} {property : Nat → α → Prop}
    (gives : ∀ left, levels = left + 1 → Gives (element left) (property left)) :
    Gives (list bound levels element) fun values =>
      ∃ left, levels = left + 1 ∧ ∀ value ∈ values, property left value := by
  intro cursor values after given
  obtain ⟨start, -, rest⟩ := Outcome.bind_eq_ok_iff.mp given
  split at rest
  · exact exists_of_enter (fun left same => gives_elements (gives left same) bound) rest
  · exact absurd rest (refuseValue_ne_ok start _ _)

theorem gives_map {value : Nat → Reader α} {property : Nat → α → Prop}
    (gives : ∀ left, levels = left + 1 → Gives (value left) (property left)) :
    Gives (map bound levels value) fun entries =>
      ∃ left, levels = left + 1 ∧
        Members.Ordered entries ∧ ∀ entry ∈ entries, property left entry.2 := by
  intro cursor entries after given
  obtain ⟨start, -, rest⟩ := Outcome.bind_eq_ok_iff.mp given
  split at rest
  · exact exists_of_enter (fun left same => gives_members (gives left same) bound) rest
  · exact absurd rest (refuseValue_ne_ok start _ _)

/-- A record has what all its fields preserve, whether it was written as an object or as an
array. -/
theorem gives_record {expected : String} {known : List (RecordField σ)} {initial : σ}
    {invariant : Nat → σ → Prop}
    (preserves : ∀ left, levels = left + 1 → ∀ field ∈ known, ∀ state, invariant left state →
      Gives (field.read left state) (invariant left))
    (holds : ∀ left, invariant left initial) :
    Gives (record bound levels expected known initial) fun state =>
      ∃ left, levels = left + 1 ∧ invariant left state := by
  intro cursor final after given
  obtain ⟨start, -, rest⟩ := Outcome.bind_eq_ok_iff.mp given
  split at rest
  · exact exists_of_enter
      (fun left same => gives_fieldsInOrder (preserves left same) true (holds left)) rest
  · exact exists_of_enter
      (fun left same => gives_fields (gives_fieldNamed (preserves left same) bound) bound
        (holds left)) rest
  · exact absurd rest (refuseValue_ne_ok start _ _)

/-- What is read from a whole text was given by the reader. -/
theorem property_of_readWhole {reader : Nat → Reader α} {property : α → Prop}
    (gives : ∀ bound, Gives (reader bound) property) {text : String} {value : α}
    (read : readWhole reader text = .ok value) : property value := by
  obtain ⟨⟨found, after⟩, given, rest⟩ := Outcome.bind_eq_ok_iff.mp read
  obtain ⟨_, -, last⟩ := Outcome.bind_eq_ok_iff.mp rest
  cases last
  exact gives _ _ _ _ given

end Cursor

/-! ## Values -/

namespace Value

open Cursor

/-- The value is in order and nests no deeper than the given number of containers. -/
def Sound (levels : Nat) (value : Value) : Prop := value.Canonical ∧ value.nesting ≤ levels

variable {bound levels left : Nat} {part : Reader Value}

theorem sound_array {elements : List Value} (sound : ∀ element ∈ elements, element.Sound left) :
    (array elements).Sound (left + 1) :=
  ⟨canonicalElements_iff.mpr fun element among => (sound element among).1,
    Nat.succ_le_succ (nestingElements_le_iff.mpr fun element among => (sound element among).2)⟩

theorem sound_object {members : Members Value} (ordered : Members.Ordered members)
    (sound : ∀ member ∈ members, member.2.Sound left) : (object members).Sound (left + 1) :=
  ⟨⟨ordered, canonicalMembers_iff.mpr fun member among => (sound member among).1⟩,
    Nat.succ_le_succ (nestingMembers_le_iff.mpr fun member among => (sound member among).2)⟩

theorem gives_array (gives : Gives part (Sound left)) :
    Gives (fun cursor => do
      let (elements, cursor) ← cursor.elements bound part
      .ok (array elements, cursor)) (Sound (left + 1)) := by
  intro cursor value after given
  obtain ⟨⟨elements, _⟩, here, last⟩ := Outcome.bind_eq_ok_iff.mp given
  cases last
  exact sound_array (gives_elements gives bound _ _ _ here)

theorem gives_object (gives : Gives part (Sound left)) :
    Gives (fun cursor => do
      let (members, cursor) ← cursor.members bound part
      .ok (object members, cursor)) (Sound (left + 1)) := by
  intro cursor value after given
  obtain ⟨⟨members, _⟩, here, last⟩ := Outcome.bind_eq_ok_iff.mp given
  cases last
  obtain ⟨ordered, sound⟩ := gives_members gives bound _ _ _ here
  exact sound_object ordered sound

/-- A value is sound if its parts are with one level less. -/
theorem gives_readWith (gives : ∀ left, levels = left + 1 → Gives part (Sound left)) :
    Gives (readWith bound levels part) (Sound levels) := by
  intro cursor value after given
  obtain ⟨start, -, rest⟩ := Outcome.bind_eq_ok_iff.mp given
  have scalar : ∀ value : Value, value.nesting = 0 → value.Canonical →
      value.Sound levels := fun value flat canonical => ⟨canonical, flat ▸ Nat.zero_le levels⟩
  split at rest
  · obtain ⟨_, -, last⟩ := Outcome.bind_eq_ok_iff.mp rest
    cases last
    exact scalar .null rfl trivial
  · obtain ⟨_, -, last⟩ := Outcome.bind_eq_ok_iff.mp rest
    cases last
    exact scalar (.bool true) rfl trivial
  · obtain ⟨_, -, last⟩ := Outcome.bind_eq_ok_iff.mp rest
    cases last
    exact scalar (.bool false) rfl trivial
  · obtain ⟨⟨text, _⟩, -, last⟩ := Outcome.bind_eq_ok_iff.mp rest
    cases last
    exact scalar (.string text) rfl trivial
  · obtain ⟨left, rfl, sound⟩ :=
      exists_of_enter (fun left same => gives_array (gives left same)) rest
    exact sound
  · obtain ⟨left, rfl, sound⟩ :=
      exists_of_enter (fun left same => gives_object (gives left same)) rest
    exact sound
  · obtain ⟨⟨number, _⟩, -, last⟩ := Outcome.bind_eq_ok_iff.mp rest
    cases last
    exact scalar (.number number) rfl trivial
  · split_ifs at rest
    · obtain ⟨⟨number, _⟩, -, last⟩ := Outcome.bind_eq_ok_iff.mp rest
      cases last
      exact scalar (.number number) rfl trivial
    · cases rest
  · cases rest

/-- Every value that is read is sound for the levels allowed. -/
theorem gives_reader (bound levels : Nat) : Gives (reader bound levels) (Sound levels) := by
  induction levels with
  | zero => exact gives_readWith fun left never => absurd never (Nat.succ_ne_zero left).symm
  | succ levels inductionHypothesis =>
      refine gives_readWith ?_
      rintro left ⟨⟩
      exact inductionHypothesis

/-- Every value that a whole text is read as has its members in order and nests no deeper than a
text may. -/
theorem sound_of_read {text : String} {value : Value} (given : read text = .ok value) :
    value.Sound nestingLimit :=
  property_of_readWhole (fun bound => gives_reader bound nestingLimit) given

end Value

end Flowpress.Json
