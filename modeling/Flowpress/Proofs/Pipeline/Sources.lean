import Flowpress.Proofs.Pipeline.Counting
import Flowpress.Proofs.Pipeline.Ranges
import Flowpress.Proofs.Pipeline.Stages

/-!
# The kind of a source does not matter

A view gives the same whether its elements come from a range, from a list, or from a
producer. Only the list tells a count beforehand, only the range skips without making
the elements it passes, and only the producer makes calls of its own when it is asked;
no terminal operation answers differently for any of this.

Views that are continued alike differ in their source at most. `View.Alike` says that
the sources give the same flow, and what makes no difference to a plan comes along.
-/

namespace Flowpress

variable {ε α : Type} {origin type : ElementType}

/-! ## The same behind some calls -/

namespace Traced

/-- The same, with some calls in front. -/
def behind (opening : List ε) (traced : Traced ε α) : Traced ε α :=
  ⟨opening ++ traced.calls, traced.value⟩

theorem bind_behind {β : Type} (opening : List ε) (traced : Traced ε α) (next : α → Traced ε β) :
    (traced.behind opening).bind next = (traced.bind next).behind opening := by
  simp [behind, bind]

end Traced

/-- A producer of a list gives what the list gives, behind its own calls. -/
theorem Source.start_produced (opening : List ε) (values : List α) :
    (produced opening values).start = (items values).start.behind opening := by
  simp [produced, start, Traced.behind, Traced.silent]

/-- Feeds that give the same, but for the calls of opening, do so whatever the plan is. -/
theorem Feed.run_behind {one other : Feed ε type} {opening : List ε}
    (same : one.run [] = (other.run []).behind opening) (plan : List (Action ε type.Carrier)) :
    one.run plan = (other.run plan).behind opening := by
  rw [Feed.run_eq one plan, same, Feed.run_eq other plan]
  rfl

namespace View

/-- Every terminal operation gives the same on both views, and the calls of the first view are the
calls of the other one behind those of opening it. -/
structure AnswersBehind (opening : List ε) (one other : View ε type) : Prop where
  terminate {ρ : Type} (consumer : (Unit → Flow ε type.Carrier) → Traced ε ρ) :
    one.terminate consumer = (other.terminate consumer).behind opening
  collect : one.collect = other.collect.behind opening
  count : one.count = other.count.behind opening
  first : one.first = other.first.behind opening
  sum : one.sum = other.sum.behind opening
  forEach (visitor : type.Carrier → List ε) :
    one.forEach visitor = (other.forEach visitor).behind opening
  pulls (count : Nat) : one.pulls count = (other.pulls count).behind opening

/-- The views have the same actions over feeds of the same steps, which give the same flow. -/
structure Alike (opening : List ε) (one other : View ε type) : Prop where
  actions : one.actions = other.actions
  steps : one.feed.steps = other.feed.steps
  run : one.feed.run [] = (other.feed.run []).behind opening

namespace Alike

variable {opening : List ε}

theorem ofSource {one other : Source ε type.Carrier}
    (same : one.start = other.start.behind opening) :
    Alike opening (View.ofSource one) (View.ofSource other) where
  actions := rfl
  steps := rfl
  run := by
    rw [View.ofSource, Feed.run_source, same, View.ofSource, Feed.run_source]
    rfl

/-- Views that are alike are so however they are continued. -/
theorem derive {one other : View ε origin} (alike : Alike opening one other)
    (rest : Derivation ε origin type) : Alike opening (one.derive rest) (other.derive rest) := by
  induction rest with
  | here => exact alike
  | append prior action inductionHypothesis =>
      exact ⟨congrArg (· ++ [action]) inductionHypothesis.actions, inductionHypothesis.steps,
        inductionHypothesis.run⟩
  | mapTo prior mapper inductionHypothesis =>
      obtain ⟨actions, steps, run⟩ := inductionHypothesis
      refine ⟨rfl, ?_, ?_⟩
      · simp only [View.derive, View.mapTo, Feed.steps, actions, steps]
      · rw [View.derive, View.mapTo, Feed.run, Feed.run_behind run, actions]
        rfl

variable {one other : View ε type}

theorem start (alike : Alike opening one other) : one.start = other.start.behind opening := by
  rw [View.start, Feed.run_behind alike.run, alike.actions, View.start]

theorem countFlow (alike : Alike opening one other) : one.countFlow = other.countFlow := by
  have plan : one.countPlan = other.countPlan := by
    rw [View.countPlan, alike.actions, Feed.hasSideEffects, alike.steps]
    rfl
  rw [View.countFlow, plan, alike.run]
  rfl

/-- Views that are alike answer alike. -/
theorem answersBehind (alike : Alike opening one other) : one.AnswersBehind opening other := by
  have terminate {ρ : Type} (consumer : (Unit → Flow ε type.Carrier) → Traced ε ρ) :
      one.terminate consumer = (other.terminate consumer).behind opening := by
    rw [View.terminate, alike.start, Traced.bind_behind]
    rfl
  have count : one.count = other.count.behind opening := by
    rw [count_eq, count_eq, alike.countFlow, alike.start]
    simp [Traced.behind]
  have sum : one.sum = other.sum.behind opening := by
    rw [View.sum, terminate]
    rfl
  exact ⟨terminate, terminate _, count, terminate _, sum, fun _ => terminate _,
    fun _ => terminate _⟩

end Alike

/-- A view whose length is unknown before it is continued does not know it afterwards. -/
theorem knownLength_derive {view : View ε origin} (unknown : view.feed.knownLength = none)
    (rest : Derivation ε origin type) : (view.derive rest).feed.knownLength = none := by
  induction rest with
  | here => exact unknown
  | append prior action inductionHypothesis => exact inductionHypothesis
  | mapTo prior mapper inductionHypothesis => rfl

/-- A range of machine integers and a producer of them answer as the list of them does, from `low`
on, one after another up to `high`, which is left out. Whatever the view goes on with, every
terminal operation gives the same value or error over the range and over the list, with the same
calls; over the producer it makes the calls of opening in front of these. Only over the list can the
view know its count. A machine that holds the range as its next element and the end may pull on it
or jump: every chain that the range and its actions are fused into answers any number of pulls as
the view over the list does. -/
theorem range_answers_as_items [Word origin.Carrier] (low high : origin.Carrier)
    (rest : Derivation ε origin type) :
    let items := rest.fromList (Word.upTo low high)
    let range : View ε type := (ofSource (.range low high)).derive rest
    range.AnswersBehind [] items ∧
    (∀ opening, AnswersBehind opening
      ((ofSource (.produced opening (Word.upTo low high))).derive rest) items) ∧
    range.feed.knownLength = none ∧
    (Feed.source (.range low high) : Feed ε origin).Opens (Chain.ofSpan ⟨low, high⟩) ∧
    (∃ chain, range.feed.Fuses (Plan.optimize range.actions) chain) ∧
    ∀ chain, range.feed.Fuses (Plan.optimize range.actions) chain →
      (∀ count calls answers, (∃ last, chain.Pulls count chain.initial calls answers last) ↔
        items.pulls count = ⟨calls, answers⟩) ∧
      ∀ calls values, chain.Collects chain.initial calls values ↔
        items.collect = ⟨calls, values⟩ := by
  intro items range
  have same : (Source.range low high : Source ε origin.Carrier).start =
      (Source.items (Word.upTo low high)).start.behind [] :=
    Source.start_range low high
  have alike : Alike [] range items := (Alike.ofSource same).derive rest
  have answers := alike.answersBehind
  have silent : range.start.calls = [] := by
    rw [alike.start]
    exact Derivation.start_calls_fromList rest _
  refine ⟨answers, fun opening => ?_, knownLength_derive rfl rest, .source ?_,
    Feed.exists_fuses _ _, fun chain fuses => ⟨fun count calls values => ?_,
      fun calls values => ?_⟩⟩
  · exact ((Alike.ofSource (Source.start_produced opening _)).derive rest).answersBehind
  · rw [Source.start_range]
    exact Chain.holds_ofSpan ⟨low, high⟩
  · rw [pulls_iff_of_holds fuses.holds, silent, answers.pulls]
    rfl
  · rw [collects_iff_of_holds fuses.holds, silent, answers.collect]
    rfl

/-- Five elements are skipped of two, at the end of all words. -/
example :
    let range : Source String Int64 := .range 9223372036854775805 9223372036854775807
    let view : View String .long := ofSource range
    (view.append (.skip 5)).collect = ⟨[], []⟩ ∧ (view.append (.skip 1)).count = .silent 1 := by
  decide

end View

end Flowpress
