import Mathlib.Data.List.Forall2
import Mathlib.Tactic.SplitIfs

/-!
# Outcomes

A computation that may fail and is made of two others has a result exactly if
both have one. Nothing here is about texts or pipelines; readers, emitters and
codecs are all taken apart with these few statements.
-/

namespace Flowpress.Outcome

variable {ε α β : Type}

@[simp] theorem ok_bind (value : α) (next : α → Except ε β) :
    ((.ok value : Except ε α) >>= next) = next value := rfl

@[simp] theorem error_bind (error : ε) (next : α → Except ε β) :
    ((.error error : Except ε α) >>= next) = .error error := rfl

/-- A sequence has a result exactly if its first part has one and the second part has it for that
result. -/
theorem bind_eq_ok_iff {first : Except ε α} {next : α → Except ε β} {result : β} :
    (first >>= next) = .ok result ↔ ∃ value, first = .ok value ∧ next value = .ok result := by
  cases first <;> simp

theorem toOption_eq_some_iff {outcome : Except ε α} {result : α} :
    outcome.toOption = some result ↔ outcome = .ok result := by
  cases outcome <;> simp [Except.toOption]

/-- Naming an error in another way changes no result. -/
theorem mapError_eq_ok_iff {ε' : Type} {rename : ε → ε'} {outcome : Except ε α} {result : α} :
    outcome.mapError rename = .ok result ↔ outcome = .ok result := by
  cases outcome <;> simp [Except.mapError]

/-- What follows a check has a result exactly if the check passes and the rest has one. -/
theorem check_bind_eq_ok_iff {check : Except ε Unit} {next : Unit → Except ε β} {result : β} :
    (check >>= next) = .ok result ↔ check = .ok () ∧ next () = .ok result := by
  cases check <;> simp

/-- What is refused under a condition has a result exactly if the condition does not hold and the
rest has one. -/
theorem refuse_eq_ok_iff {condition : Prop} [Decidable condition] {error : ε}
    {next : Except ε β} {result : β} :
    (if condition then .error error else next) = .ok result ↔ ¬condition ∧ next = .ok result := by
  split_ifs with refused <;> simp [refused]

/-- A sequence of one computation for each element has a result exactly if all of them have one. -/
theorem mapM_eq_ok_iff {compute : α → Except ε β} {values : List α} {results : List β} :
    values.mapM compute = .ok results ↔
      List.Forall₂ (fun value result => compute value = .ok result) values results := by
  induction values generalizing results with
  | nil =>
      rw [List.mapM_nil]
      constructor
      · rintro ⟨⟩
        exact .nil
      · rintro ⟨⟩
        rfl
  | cons value values inductionHypothesis =>
      rw [List.mapM_cons, bind_eq_ok_iff]
      constructor
      · rintro ⟨head, first, rest⟩
        obtain ⟨tail, others, joined⟩ := bind_eq_ok_iff.mp rest
        obtain rfl : head :: tail = results := Except.ok.inj joined
        exact .cons first (inductionHypothesis.mp others)
      · rintro (_ | ⟨first, others⟩)
        exact ⟨_, first, bind_eq_ok_iff.mpr ⟨_, inductionHypothesis.mpr others, rfl⟩⟩

/-- A sequence of one computation for each element fails exactly if one of them fails behind others
that have results, and it fails as this one does. -/
theorem mapM_eq_error_iff {compute : α → Except ε β} {values : List α} {error : ε} :
    values.mapM compute = .error error ↔
      ∃ before value after, values = before ++ value :: after ∧
        (∀ earlier ∈ before, ∃ result, compute earlier = .ok result) ∧
        compute value = .error error := by
  constructor
  · intro failed
    induction values with
    | nil => cases failed
    | cons value values inductionHypothesis =>
        rw [List.mapM_cons] at failed
        cases first : compute value with
        | error own =>
            rw [first, error_bind] at failed
            exact ⟨[], value, values, rfl, List.forall_mem_nil _, first.trans (by cases failed; rfl)⟩
        | ok result =>
            rw [first, ok_bind] at failed
            cases rest : values.mapM compute with
            | ok results =>
                rw [rest] at failed
                cases failed
            | error own =>
                rw [rest, error_bind] at failed
                cases failed
                obtain ⟨before, stop, after, rfl, passed, stopped⟩ := inductionHypothesis rest
                exact ⟨value :: before, stop, after, rfl,
                  List.forall_mem_cons.mpr ⟨⟨result, first⟩, passed⟩, stopped⟩
  · rintro ⟨before, value, after, rfl, passed, failed⟩
    induction before with
    | nil => rw [List.nil_append, List.mapM_cons, failed, error_bind]
    | cons earlier before inductionHypothesis =>
        obtain ⟨⟨result, computed⟩, others⟩ := List.forall_mem_cons.mp passed
        rw [List.cons_append, List.mapM_cons, computed, ok_bind, inductionHypothesis others,
          error_bind]

/-- Computations that give the values of a function, each under a condition of its own, have results
together exactly if all conditions hold. -/
theorem mapM_eq_ok_iff_of_guarded {compute : α → Except ε β} {condition : α → Prop}
    {function : α → β} (guarded : ∀ value result,
      compute value = .ok result ↔ condition value ∧ function value = result)
    (values : List α) (results : List β) :
    values.mapM compute = .ok results ↔
      (∀ value ∈ values, condition value) ∧ values.map function = results := by
  simp only [mapM_eq_ok_iff, guarded]
  rw [List.forall₂_and_left, ← List.forall₂_map_left_iff, List.forall₂_eq_eq_eq]

/-- What computes a function without failing computes it of every element. -/
theorem mapM_eq_ok_map {compute : α → Except ε β} {function : α → β} {values : List α}
    (computes : ∀ value ∈ values, compute value = .ok (function value)) :
    values.mapM compute = .ok (values.map function) := by
  rw [mapM_eq_ok_iff, List.forall₂_map_right_iff, List.forall₂_same]
  exact computes

end Flowpress.Outcome
