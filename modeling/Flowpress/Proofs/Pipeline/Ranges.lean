import Mathlib.Data.List.Iterate
import Flowpress.Pipeline.Range
import Flowpress.Proofs.Pipeline.Demand

/-!
# Ranges

A range gives its words one after another. A machine holds it as a `Span`, the next
element and the end, and can ask it for the element some way ahead, so that a skip
makes none of the elements it passes. The word ahead is checked: behind the last word
there is none, and then nothing is left of the range.

Whether a skip jumps or visits cannot be told from the elements and the calls. So every
chain that a view is fused into, with a jump at the front of it or not, holds the flow
of the view.
-/

namespace Flowpress

variable {ε α : Type} {type : ElementType}

/-! ## Words one after another -/

namespace Word

variable [Word α] {word low high : α}

/-- The next word. -/
def next (word : α) : α := ofInt (toInt word + 1)

/-- The machine adds one. -/
theorem next_int (word : Int32) : next word = word + 1 := by
  show Int32.ofInt (word.toInt + 1) = word + 1
  rw [Int32.ofInt_add, Int32.ofInt_toInt]
  rfl

theorem next_long (word : Int64) : next word = word + 1 := by
  show Int64.ofInt (word.toInt + 1) = word + 1
  rw [Int64.ofInt_add, Int64.ofInt_toInt]
  rfl

/-- The word some steps ahead, if there are so many words. -/
def advance? (word : α) (steps : Nat) : Option α :=
  if toInt word + steps ≤ greatest α then some (ofInt (toInt word + steps)) else none

theorem toInt_ahead {steps : Nat} (inside : toInt word + steps ≤ greatest α) :
    toInt (ofInt (toInt word + steps) : α) = toInt word + steps := by
  have above := least_le word
  exact toInt_ofInt _ (by omega) inside

theorem toInt_next (below : toInt word < greatest α) : toInt (next word) = toInt word + 1 := by
  have above := least_le word
  exact toInt_ofInt _ (by omega) (by omega)

/-- The list `low`, the word next to it and so on, up to `high`, which is left out. -/
def upTo (low high : α) : List α := List.iterate next low (width low high)

theorem upTo_of_le (empty : toInt high ≤ toInt low) : upTo low high = [] := by
  rw [upTo, width, Int.toNat_of_nonpos (by omega)]
  rfl

theorem upTo_of_lt (below : toInt low < toInt high) :
    upTo low high = low :: upTo (next low) high := by
  have bound := le_greatest high
  have step : width low high = width (next low) high + 1 := by
    rw [width, width, toInt_next (by omega)]
    omega
  rw [upTo, step]
  rfl

/-- Words that are made by adding to the first one are the words one after another. -/
theorem map_ahead_eq_iterate (low : α) {size start : Nat}
    (inside : toInt low + (start + size : Nat) ≤ greatest α) :
    ((List.range' start size).map fun index : Nat => (ofInt (toInt low + index) : α)) =
      List.iterate next (ofInt (toInt low + start)) size := by
  induction size generalizing start with
  | zero => rfl
  | succ size inductionHypothesis =>
      have step : next (ofInt (toInt low + start) : α) = ofInt (toInt low + (start + 1 : Nat)) := by
        rw [next, toInt_ahead (by omega), Int.natCast_succ, Int.add_assoc]
      rw [List.range'_succ, List.map_cons, inductionHypothesis (by omega), List.iterate, step]

theorem map_ahead_eq_upTo (low high : α) :
    ((List.range' 0 (width low high)).map fun index : Nat => (ofInt (toInt low + index) : α)) =
      upTo low high := by
  have boundLow := le_greatest low
  have boundHigh := le_greatest high
  have inside : toInt low + (0 + width low high : Nat) ≤ greatest α := by
    rw [width]
    omega
  rw [map_ahead_eq_iterate low inside, Int.natCast_zero, Int.add_zero, ofInt_toInt, upTo]

/-- What is left of the words behind the first ones starts with a word ahead. -/
theorem drop_upTo {passed : Nat} (inside : toInt low + passed ≤ greatest α) :
    (upTo low high).drop passed = upTo (ofInt (toInt low + passed)) high := by
  induction passed generalizing low with
  | zero => rw [Int.natCast_zero, Int.add_zero, ofInt_toInt, List.drop_zero]
  | succ passed inductionHypothesis =>
      have step : toInt (next low) = toInt low + 1 := toInt_next (by omega)
      rcases Int.lt_or_le (toInt low) (toInt high) with below | empty
      · rw [upTo_of_lt below, List.drop_succ_cons, inductionHypothesis (by omega), step,
          Int.natCast_succ, Int.add_assoc, Int.add_comm 1]
      · rw [upTo_of_le empty, upTo_of_le (by rw [toInt_ahead inside]; omega), List.drop_nil]

/-- Where there is no word ahead, no word is left. -/
theorem drop_upTo_of_lt {passed : Nat} (outside : greatest α < toInt low + passed) :
    (upTo low high).drop passed = [] := by
  have bound := le_greatest high
  apply List.drop_eq_nil_of_le
  rw [upTo, List.length_iterate, width]
  omega

end Word

/-- A range gives the words one after another. -/
theorem Source.start_range [Word α] (low high : α) :
    (range low high : Source ε α).start = .silent fun _ => .ofList (Word.upTo low high) := by
  rw [range, start, Flow.ofFunction_eq_ofList, Word.map_ahead_eq_upTo]

/-! ## The state of a range -/

/-- What is left of a range: its next element, if that is below the end. -/
structure Span (α : Type) where
  front : α
  back : α
deriving DecidableEq

namespace Span

variable [Word α]

/-- The elements that are left. -/
def elements (span : Span α) : List α := Word.upTo span.front span.back

/-- The next element, and what is left behind it. -/
def pull (span : Span α) : Option α × Span α :=
  if Word.toInt span.front < Word.toInt span.back then
    (some span.front, ⟨Word.next span.front, span.back⟩)
  else (none, span)

/-- The element behind some that are passed, and what is left behind it. The elements that are
passed are not made. -/
def jump (span : Span α) (passed : Nat) : Option α × Span α :=
  match Word.advance? span.front passed with
  | some reached =>
    if Word.toInt reached < Word.toInt span.back then
      (some reached, ⟨Word.next reached, span.back⟩)
    else (none, ⟨span.back, span.back⟩)
  | none => (none, ⟨span.back, span.back⟩)

theorem pull_eq (span : Span α) :
    span.pull.1 = span.elements.head? ∧ span.pull.2.elements = span.elements.tail := by
  rw [pull, elements]
  by_cases below : Word.toInt span.front < Word.toInt span.back
  · rw [if_pos below, Word.upTo_of_lt below]
    exact ⟨rfl, rfl⟩
  · have empty : span.elements = [] := Word.upTo_of_le (Int.not_lt.mp below)
    rw [if_neg below, Word.upTo_of_le (Int.not_lt.mp below)]
    exact ⟨rfl, empty⟩

/-- A jump is a visit of all elements it passes. -/
theorem jump_eq (span : Span α) (passed : Nat) :
    (span.jump passed).1 = (span.elements.drop passed).head? ∧
      (span.jump passed).2.elements = (span.elements.drop passed).tail := by
  have nothing : (Span.mk span.back span.back).elements = [] := Word.upTo_of_le (Int.le_refl _)
  by_cases inside : Word.toInt span.front + passed ≤ Word.greatest α
  · rw [jump, Word.advance?, if_pos inside, elements, Word.drop_upTo inside]
    by_cases below : Word.toInt (Word.ofInt (Word.toInt span.front + passed) : α) <
        Word.toInt span.back
    · simp only [below, if_true, Word.upTo_of_lt below]
      exact ⟨rfl, rfl⟩
    · simp only [below, if_false, Word.upTo_of_le (Int.not_lt.mp below)]
      exact ⟨rfl, nothing⟩
  · rw [jump, Word.advance?, if_neg inside, elements, Word.drop_upTo_of_lt (Int.not_le.mp inside)]
    exact ⟨rfl, nothing⟩

/-- There is no word five steps ahead, so nothing is left. -/
example : (Span.mk (2147483645 : Int32) 2147483647).jump 5 = (none, ⟨2147483647, 2147483647⟩) := by
  decide

/-- The first pull on a skip jumps over the elements to drop, and leaves none of them to drop. -/
def leap (skip : Nat × Span α) : Option α × (Nat × Span α) :=
  ((skip.2.jump skip.1).1, 0, (skip.2.jump skip.1).2)

/-- What a skip has yet to give. -/
def behind (skip : Nat × Span α) : List α := skip.2.elements.drop skip.1

theorem leap_eq (skip : Nat × Span α) :
    (leap skip).1 = (behind skip).head? ∧ behind (leap skip).2 = (behind skip).tail :=
  skip.2.jump_eq skip.1

end Span

namespace Chain

variable {σ : Type}

/-- The chain of a state that is pulled without calls. -/
def ofPulls (pull : σ → Option α × σ) (initial : σ) : Chain ε α where
  State := σ
  initial := initial
  step state :=
    match (pull state).1 with
    | some value => .yield [] value (pull state).2
    | none => .done (pull state).2

/-- A state whose pulls take the first of its elements, one after another, holds these elements. -/
theorem holds_ofPulls {pull : σ → Option α × σ} {elements : σ → List α}
    (takes : ∀ state, (pull state).1 = (elements state).head? ∧
      elements (pull state).2 = (elements state).tail) (initial state : σ) :
    (ofPulls pull initial : Chain ε α).Holds state (.ofList (elements state)) := by
  have ends (state : σ) (empty : elements state = []) :
      (ofPulls pull initial : Chain ε α).step state = .done (pull state).2 ∧
        elements (pull state).2 = [] := by
    obtain ⟨answer, left⟩ := takes state
    rw [empty] at answer left
    exact ⟨by simp [ofPulls, answer], left⟩
  generalize held : elements state = values
  induction values generalizing state with
  | nil =>
      obtain ⟨last, empty⟩ := ends state held
      exact .done last ⟨fun state => elements state = [], empty,
        fun state empty => ⟨_, ends state empty⟩⟩
  | cons value values inductionHypothesis =>
      obtain ⟨answer, left⟩ := takes state
      rw [held] at answer left
      have given : (ofPulls pull initial : Chain ε α).step state =
          .yield [] value (pull state).2 := by
        simp [ofPulls, answer]
      exact .element given (inductionHypothesis _ left)

variable [Word α]

/-- A range whose elements are pulled one after another. -/
def ofSpan (span : Span α) : Chain ε α := ofPulls Span.pull span

/-- A skip over a range that jumps. -/
def jumping (span : Span α) (dropped : Nat) : Chain ε α := ofPulls Span.leap (dropped, span)

theorem holds_ofSpan (span : Span α) :
    (ofSpan span : Chain ε α).Holds (ofSpan span : Chain ε α).initial (.ofList span.elements) :=
  holds_ofPulls Span.pull_eq span span

theorem holds_jumping (span : Span α) (dropped : Nat) :
    (jumping span dropped : Chain ε α).Holds (jumping span dropped : Chain ε α).initial
      (.ofList (span.elements.drop dropped)) :=
  holds_ofPulls Span.leap_eq (dropped, span) (dropped, span)

end Chain

/-- Skipping in a list is dropping its first elements. -/
theorem Flow.skip_ofList (dropped : Nat) (values : List α) :
    (ofList values : Flow ε α).skip dropped = ofList (values.drop dropped) := by
  induction values generalizing dropped with
  | nil => simp [ofList, skip]
  | cons value values inductionHypothesis =>
      cases dropped with
      | zero => rfl
      | succ dropped => exact inductionHypothesis dropped

namespace Feed

/-- The chains that a feed and a plan are fused into. A source may open any chain that holds its
elements. A skip that comes first over a range jumps, and every other action visits what it is
given; a segment is fused with its optimized plan, and ends in a map. -/
inductive Fuses : {type : ElementType} → Feed ε type → List (Action ε type.Carrier) →
    Chain ε type.Carrier → Prop where
  | visiting {type : ElementType} {source : Source ε type.Carrier} {chain : Chain ε type.Carrier}
      (holds : chain.Holds chain.initial (source.start.value ()))
      (plan : List (Action ε type.Carrier)) : Fuses (.source source) plan (chain.actAll plan)
  | jumping {type : ElementType} [Word type.Carrier] (low high : type.Carrier) (dropped : Nat)
      (plan : List (Action ε type.Carrier)) :
      Fuses (.source (.range low high)) (.skip dropped :: plan)
        ((Chain.jumping ⟨low, high⟩ dropped).actAll plan)
  | stage {inner outer : ElementType} {feed : Feed ε inner}
      {actions : List (Action ε inner.Carrier)} {mapper : inner.Carrier → Traced ε outer.Carrier}
      {chain : Chain ε inner.Carrier} (fuses : Fuses feed (Plan.optimize actions) chain)
      (plan : List (Action ε outer.Carrier)) :
      Fuses (.stage feed actions mapper) plan ((chain.map mapper).actAll plan)

/-- Whatever chain a feed and a plan are fused into holds the flow that they run. -/
theorem Fuses.holds {feed : Feed ε type} {plan : List (Action ε type.Carrier)}
    {chain : Chain ε type.Carrier} (fuses : feed.Fuses plan chain) :
    chain.Holds chain.initial ((feed.run plan).value ()) := by
  induction fuses with
  | visiting holds plan =>
      rw [run_source]
      exact Chain.holds_actAll holds plan
  | jumping low high dropped plan =>
      have skipped := Chain.holds_jumping (ε := ε) ⟨low, high⟩ dropped
      have flow : ((Feed.source (.range low high)).run (.skip dropped :: plan)).value () =
          Action.applyAll plan (fun _ => (Flow.ofList (Word.upTo low high)).skip dropped) () := by
        rw [run_source, Source.start_range]
        rfl
      rw [← Flow.skip_ofList] at skipped
      rw [flow]
      exact Chain.holds_actAll skipped plan
  | @stage inner outer feed actions mapper chain fuses plan inductionHypothesis =>
      have mapped := inductionHypothesis.map mapper
      exact Chain.holds_actAll mapped plan

/-- Every feed and plan are fused into some chain. -/
theorem exists_fuses (feed : Feed ε type) (plan : List (Action ε type.Carrier)) :
    ∃ chain, feed.Fuses plan chain := by
  induction feed with
  | source origin => exact ⟨_, .visiting (Chain.holds_ofFlow _ _) plan⟩
  | stage feed actions mapper inductionHypothesis =>
      obtain ⟨chain, fuses⟩ := inductionHypothesis (Plan.optimize actions)
      exact ⟨_, .stage fuses plan⟩

end Feed

end Flowpress
