import Mathlib.Data.List.Infix
import Flowpress.Pipeline.Range
import Flowpress.Proofs.Pipeline.Demand
import Flowpress.Proofs.Pipeline.Sessions

/-!
# Sums

Words are added one after another, and each sum on the way has to be a word. So a
list of words has a sum exactly if no front part of it leads out of range, which is
more than that the sum of all is in range, and depends on their order. Where the list
has a sum, it is the exact one. Where it has none, the view is pulled up to the
element that leads out of range and no further.

No sum of integers that are widened first leads out of range as long as there are no
more than `2 ^ 32` of them: so many times the least integer is the least word of the
wider type.
-/

namespace Flowpress

variable {ε α : Type} {type : ElementType}

namespace Word

variable [Word α]

/-- There is a word for the integer. -/
def Fits (α : Type) [Word α] (value : Int) : Prop := least α ≤ value ∧ value ≤ greatest α

/-- The exact sum of words. -/
def total : List α → Int
  | [] => 0
  | word :: words => toInt word + total words

/-- No front part of a list of words leads out of range. -/
def StaysWithin (words : List α) : Prop := ∀ front, front <+: words → Fits α (total front)

instance (value : Int) : Decidable (Fits α value) :=
  inferInstanceAs (Decidable (least α ≤ value ∧ value ≤ greatest α))

instance (words : List α) : Decidable (StaysWithin words) :=
  decidable_of_iff (∀ front ∈ words.inits, Fits α (total front)) (by simp [StaysWithin])

@[simp] theorem total_nil : total ([] : List α) = 0 := rfl

@[simp] theorem total_cons (word : α) (words : List α) :
    total (word :: words) = toInt word + total words := rfl

theorem total_append (front rest : List α) : total (front ++ rest) = total front + total rest := by
  induction front with
  | nil => simp
  | cons word front inductionHypothesis => simp [inductionHypothesis, Int.add_assoc]

theorem fits_toInt (word : α) : Fits α (toInt word) := ⟨least_le word, le_greatest word⟩

theorem toInt_injective {first second : α} (same : toInt first = toInt second) :
    first = second := by
  rw [← ofInt_toInt first, same, ofInt_toInt]

/-- So many words are at least so many times the least one, and at most so many times the greatest
one. -/
theorem total_bounds (words : List α) :
    words.length * least α ≤ total words ∧ total words ≤ words.length * greatest α := by
  induction words with
  | nil => simp
  | cons word words inductionHypothesis =>
      have above := least_le word
      have below := le_greatest word
      rw [total_cons, List.length_cons, Int.natCast_succ, Int.add_mul, Int.add_mul, Int.one_mul,
        Int.one_mul]
      omega

end Word

/-- Elements that are words and are added as such: the sum of two is the word for it, if there is
one. -/
class ExactElement (α : Type) [Element α] [Word α] : Prop where
  toInt_zero : Word.toInt (Element.zero : α) = 0
  add?_eq (first second : α) : Element.add? first second =
    (Element.addWithin (Word.least α) (Word.greatest α) (Word.toInt first)
      (Word.toInt second)).map Word.ofInt

instance : ExactElement (ElementType.Carrier .int) where
  toInt_zero := rfl
  add?_eq _ _ := rfl

instance : ExactElement (ElementType.Carrier .long) where
  toInt_zero := rfl
  add?_eq _ _ := rfl

namespace Word

variable [Element α] [Word α] [ExactElement α]

/-- Two words have the sum that is the word of the exact sum. -/
theorem add?_eq_some_iff (first second sum : α) :
    Element.add? first second = some sum ↔ toInt sum = toInt first + toInt second := by
  rw [ExactElement.add?_eq, Element.addWithin]
  constructor
  · intro added
    split at added
    · next fits =>
        obtain rfl := Option.some.inj added
        exact toInt_ofInt _ fits.1 fits.2
    · cases added
  · intro same
    have fits := fits_toInt sum
    rw [same] at fits
    rw [if_pos ⟨fits.1, fits.2⟩, Option.map_some, ← same, ofInt_toInt]

theorem add?_eq_none_iff (first second : α) :
    Element.add? first second = none ↔ ¬ Fits α (toInt first + toInt second) := by
  rw [ExactElement.add?_eq, Element.addWithin, Option.map_eq_none_iff, Fits]
  split <;> simp_all

/-- Adding words to a word gives a sum exactly if no front part of them leads out of range, and then
the exact one. -/
theorem foldlM_add?_eq_some_iff (words : List α) (start sum : α) :
    words.foldlM Element.add? start = some sum ↔
      (∀ front, front <+: words → Fits α (toInt start + total front)) ∧
        toInt sum = toInt start + total words := by
  induction words generalizing start with
  | nil =>
      rw [List.foldlM_nil, Option.pure_def, Option.some.injEq, total_nil, Int.add_zero]
      constructor
      · rintro rfl
        refine ⟨fun front leads => ?_, rfl⟩
        rw [List.prefix_nil.mp leads, total_nil, Int.add_zero]
        exact fits_toInt start
      · rintro ⟨-, same⟩
        exact (toInt_injective same).symm
  | cons word words inductionHypothesis =>
      rw [List.foldlM_cons, Option.bind_eq_bind, Option.bind_eq_some_iff]
      constructor
      · rintro ⟨next, added, others⟩
        rw [add?_eq_some_iff] at added
        obtain ⟨within, same⟩ := (inductionHypothesis next).mp others
        refine ⟨fun front leads => ?_, ?_⟩
        · cases front with
          | nil =>
              rw [total_nil, Int.add_zero]
              exact fits_toInt start
          | cons head front =>
              obtain ⟨rfl, others⟩ := List.cons_prefix_cons.mp leads
              rw [total_cons, ← Int.add_assoc, ← added]
              exact within front others
        · rw [same, added, total_cons, Int.add_assoc]
      · rintro ⟨within, same⟩
        have fits := within [word] (List.cons_prefix_cons.mpr ⟨rfl, List.nil_prefix⟩)
        rw [total_cons, total_nil, Int.add_zero] at fits
        have reached : toInt (ofInt (toInt start + toInt word) : α) = toInt start + toInt word :=
          toInt_ofInt _ fits.1 fits.2
        refine ⟨_, (add?_eq_some_iff start word _).mpr reached, ?_⟩
        rw [inductionHypothesis, reached]
        refine ⟨fun front leads => ?_, ?_⟩
        · rw [Int.add_assoc, ← total_cons]
          exact within (word :: front) (List.cons_prefix_cons.mpr ⟨rfl, leads⟩)
        · rw [same, total_cons, Int.add_assoc]

/-- Words have a sum exactly if no front part of them leads out of range. -/
theorem sum_eq_some_iff (words : List α) (sum : α) :
    words.foldlM Element.add? Element.zero = some sum ↔
      StaysWithin words ∧ toInt sum = total words := by
  simp only [foldlM_add?_eq_some_iff, ExactElement.toInt_zero, Int.zero_add, StaysWithin]

theorem exists_sum {words : List α} (within : StaysWithin words) :
    ∃ sum, words.foldlM Element.add? Element.zero = some sum ∧ toInt sum = total words := by
  have fits := within words (List.prefix_refl words)
  have same : toInt (ofInt (total words) : α) = total words := toInt_ofInt _ fits.1 fits.2
  exact ⟨_, (sum_eq_some_iff words _).mpr ⟨within, same⟩, same⟩

/-- The sum of no words is in range. -/
theorem staysWithin_nil : StaysWithin ([] : List α) := by
  intro front leads
  have zero : toInt (Element.zero : α) = 0 := ExactElement.toInt_zero
  rw [List.prefix_nil.mp leads, total_nil, ← zero]
  exact fits_toInt Element.zero

/-- Words that are not negative stay within the range if their sum does. -/
theorem staysWithin_of_nonneg {words : List α} (nonneg : ∀ word ∈ words, 0 ≤ toInt word)
    (below : total words ≤ greatest α) : StaysWithin words := by
  have positive {part : List α} (among : part ⊆ words) : 0 ≤ total part := by
    induction part with
    | nil => exact Int.le_refl 0
    | cons word part inductionHypothesis =>
        have head := nonneg word (among List.mem_cons_self)
        have tail := inductionHypothesis fun other member => among (List.mem_cons_of_mem _ member)
        exact Int.add_nonneg head tail
  obtain ⟨least, -⟩ : Fits α 0 := staysWithin_nil [] List.nil_prefix
  rintro front ⟨rest, rfl⟩
  have atFront := positive (List.subset_append_left front rest)
  have atRest := positive (List.subset_append_right front rest)
  rw [total_append] at below
  exact ⟨Int.le_trans least atFront, by omega⟩

/-- A list with a front part that leads out of range has a first such part. -/
theorem exists_overflow {words : List α} (leaves : ¬ StaysWithin words) :
    ∃ front last rest, words = front ++ last :: rest ∧ StaysWithin front ∧
      ¬ Fits α (total (front ++ [last])) := by
  induction words using List.reverseRecOn with
  | nil => exact absurd staysWithin_nil leaves
  | append_singleton words word inductionHypothesis =>
      by_cases before : StaysWithin words
      · refine ⟨words, word, [], rfl, before, fun fits => leaves fun front leads => ?_⟩
        rcases List.prefix_concat_iff.mp leads with rfl | shorter
        · exact fits
        · exact before front shorter
      · obtain ⟨front, last, rest, rfl, stays, leaves⟩ := inductionHypothesis before
        exact ⟨front, last, rest ++ [word], by simp, stays, leaves⟩

end Word

namespace View

open Word (Fits StaysWithin total)

/-- What is owed to the sum of a view of words: it is exact, or it is refused. It is refused where
some front part of the elements leads out of range, and then the view is pulled up to the end of
the first such part. -/
structure SumsExactly [Word type.Carrier] (view : View ε type) : Prop where
  given : StaysWithin view.collect.value → ∃ sum, view.sum = ⟨view.collect.calls, .ok sum⟩ ∧
    Word.toInt sum = total view.collect.value
  refused : ¬ StaysWithin view.collect.value → ∃ front last,
    front ++ [last] <+: view.collect.value ∧ StaysWithin front ∧
    ¬ Fits type.Carrier (total (front ++ [last])) ∧
    view.sum = ⟨(view.pulls (front.length + 1)).calls, .error (.sumOverflow type)⟩

/-- The sum of a view is that of its flow. -/
theorem sum_eq (view : View ε type) :
    view.sum = ⟨view.start.calls ++ (view.flow.foldWhile Element.add? Element.zero).calls,
      match (view.flow.foldWhile Element.add? Element.zero).value with
      | some sum => .ok sum
      | none => .error (.sumOverflow type)⟩ := rfl

theorem sumsExactly [Word type.Carrier] [ExactElement type.Carrier] (view : View ε type) :
    view.SumsExactly := by
  constructor
  · intro within
    rw [collect_eq] at within ⊢
    obtain ⟨sum, defined, same⟩ := Word.exists_sum within
    refine ⟨sum, ?_, same⟩
    rw [sum_eq, Flow.foldWhile_of_some defined]
  · intro leaves
    rw [collect_eq] at leaves ⊢
    obtain ⟨front, last, rest, split, within, overflow⟩ := Word.exists_overflow leaves
    obtain ⟨reached, defined, same⟩ := Word.exists_sum within
    have undefined : Element.add? reached last = none := by
      rw [Word.add?_eq_none_iff, same]
      rwa [Word.total_append, Word.total_cons, Word.total_nil, Int.add_zero] at overflow
    refine ⟨front, last, ⟨rest, ?_⟩, within, overflow, ?_⟩
    · rw [split, List.append_assoc, List.singleton_append]
    · rw [sum_eq, Flow.foldWhile_of_none split defined undefined, pulls_eq]

/-! ## Widening -/

theorem toInt_widened (value : Int32) :
    (ElementType.convert .int .long value : Int64).toInt = value.toInt := by
  have below := value.toInt_lt
  have above := value.le_toInt
  exact Int64.toInt_ofInt_of_le (by omega) (by omega)

theorem total_widened (values : List Int32) :
    total (values.map fun value => (ElementType.convert .int .long value : Int64)) =
      total values := by
  induction values with
  | nil => rfl
  | cons value values inductionHypothesis =>
      rw [List.map_cons, Word.total_cons, Word.total_cons, inductionHypothesis]
      exact congrArg (· + total values) (toInt_widened value)

/-- So many integers never lead out of range if they are widened. -/
theorem staysWithin_widened {values : List Int32} (few : values.length ≤ UInt32.size) :
    StaysWithin (values.map fun value => (ElementType.convert .int .long value : Int64)) := by
  intro front leads
  obtain ⟨parts, shorter, rfl⟩ := List.prefix_map_iff.mp leads
  have fewer : parts.length ≤ 4294967296 := Nat.le_trans shorter.length_le few
  obtain ⟨above, below⟩ : parts.length * (-2 ^ 31 : Int) ≤ total parts ∧
      total parts ≤ parts.length * (2 ^ 31 - 1 : Int) := Word.total_bounds parts
  rw [total_widened]
  show (-2 ^ 63 : Int) ≤ total parts ∧ total parts ≤ (2 ^ 63 - 1 : Int)
  omega

/-- Elements that are widened are collected as they were, each widened. -/
theorem collect_value_mapTo (view : View ε type) {outer : ElementType}
    (mapper : type.Carrier → Traced ε outer.Carrier) :
    (view.mapTo mapper).collect.value =
      view.collect.value.map fun value => (mapper value).value := by
  rw [collect_eq, collect_eq, flow_mapTo, Flow.items_map]

/-- Summing integers of either size is exact or refused. The sum is given exactly if no front part
of the elements leads out of range, and then it is the exact sum of the elements, with the calls of
collecting them. Otherwise the first front part that leads out of range ends it, with the calls of
as many pulls as that part has elements. Widening the elements of a view of at most `2 ^ 32`
integers first, with any record of that, always gives the exact sum. In a session the view is
consumed whether there is a sum or not. -/
theorem sum_exact_or_refused :
    (∀ view : View ε .int, view.SumsExactly) ∧ (∀ view : View ε .long, view.SumsExactly) ∧
    (∀ (view : View ε .int) (record : Int32 → List ε), view.collect.value.length ≤ UInt32.size →
      let wide : View ε .long :=
        view.mapTo fun value => ⟨record value, ElementType.convert .int .long value⟩
      ∃ sum, wide.sum = ⟨wide.collect.calls, .ok sum⟩ ∧
        Word.toInt sum = total view.collect.value) ∧
    ∀ (session : Session) (slot : String) (handle : Handle),
      session.slots.lookup slot = some handle → session.isConsumed handle.flag = false →
      let outcome := session.step (.terminal slot .sum)
      outcome.2 = Session.runTerminal handle.view .sum ∧
        outcome.1.isConsumed handle.flag = true := by
  refine ⟨sumsExactly, sumsExactly, fun view record few => ?_,
    fun session slot handle holds unconsumed => ?_⟩
  · intro wide
    have items := view.collect_value_mapTo fun value =>
      (⟨record value, ElementType.convert .int .long value⟩ :
        Traced ε (ElementType.Carrier .long))
    obtain ⟨sum, given, same⟩ := wide.sumsExactly.given (items ▸ staysWithin_widened few)
    exact ⟨sum, given, same.trans (by rw [items]; exact total_widened _)⟩
  · refine ⟨?_, Session.isConsumed_of_claims rfl holds⟩
    rw [Session.step, Session.withHandle_of_lookup holds,
      Session.terminate_of_unconsumed unconsumed]

/-- The exact sum of both views is in range. One of them leads out of range on the way, unless its
elements are widened. -/
theorem overflow_on_the_way :
    let early : View Event .int := ofSource (.items [2147483647, 1, -2])
    let late : View Event .int := ofSource (.items [2147483647, -2, 1])
    let session := Session.empty.after [.source "early" .int (.items [2147483647, 1, -2])]
    (StaysWithin late.collect.value ∧ ∃ sum, late.sum = ⟨late.collect.calls, .ok sum⟩ ∧
      Word.toInt sum = 2147483646) ∧
    (¬ StaysWithin early.collect.value ∧ early.sum.value = .error (.sumOverflow .int)) ∧
    (early.collect.value.length ≤ UInt32.size ∧ ∃ sum,
      (early.mapTo fun value => ⟨[], ElementType.convert .int .long value⟩ : View Event .long).sum =
        ⟨[], .ok sum⟩ ∧ Word.toInt sum = 2147483646) ∧
    (session.slots.lookup "early" = some ⟨.int, early, 0⟩ ∧ session.isConsumed 0 = false ∧
      (session.step (.terminal "early" .sum)).1.isConsumed 0 = true) := by
  intro early late session
  obtain ⟨ints, -, widens, consumes⟩ := @sum_exact_or_refused Event
  have stays : StaysWithin late.collect.value := by decide
  have leaves : ¬ StaysWithin early.collect.value := by decide
  obtain ⟨front, last, -, -, -, refused⟩ := (ints early).refused leaves
  exact ⟨⟨stays, (ints late).given stays⟩, ⟨leaves, by rw [refused]⟩,
    ⟨by decide, widens early (fun _ => []) (by decide)⟩,
    rfl, rfl, (consumes session "early" ⟨.int, early, 0⟩ rfl rfl).2⟩

end View
end Flowpress
