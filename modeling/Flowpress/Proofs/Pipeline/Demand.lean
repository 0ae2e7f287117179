import Flowpress.Proofs.Flow.Chains
import Flowpress.Proofs.Pipeline.Running

/-!
# Pulling on a view

A consumer of a view that pulls any number of times gets the elements that
collecting the view gives, one after another, and nothing once they are used up.
Its calls are the beginning of those of collecting, and all of them as soon as it
has pulled once more than there are elements.

The same is said of the chain that a view stands for: the adaptors of its plans,
stage by stage, over any chain that holds the elements of its source. Such a chain
answers as the view does, so it never gives an element or makes a call once it has
come to its end.
-/

namespace Flowpress

variable {ε α : Type} {type : ElementType}

namespace Chain

variable [Element α] [DecidableEq α]

/-- The chain behind an action. -/
def act (chain : Chain ε α) : Action ε α → Chain ε α
  | .filter predicate => chain.filter predicate
  | .map operator => chain.map operator
  | .flatMap expander => chain.flatMap expander
  | .peek observer => chain.peek observer
  | .sorted order => chain.sorted (order.getD Element.order)
  | .distinct => chain.distinct
  | .limit count => chain.limit count
  | .skip count => chain.skip count

/-- The chain behind all actions, one after another. -/
def actAll (chain : Chain ε α) (actions : List (Action ε α)) : Chain ε α := actions.foldl act chain

/-- The chain behind an action holds what the action makes of a flow. -/
theorem holds_act {chain : Chain ε α} {flow : Unit → Flow ε α}
    (holds : chain.Holds chain.initial (flow ())) (action : Action ε α) :
    (chain.act action).Holds (chain.act action).initial (action.apply flow ()) := by
  cases action with
  | filter predicate => exact holds.filter predicate
  | map operator => exact holds.map operator
  | flatMap expander => exact holds.flatMap expander
  | peek observer => exact holds.peek observer
  | sorted order => exact holds.sortedAfter _ []
  | distinct => exact holds.distinctAfter []
  | limit count => exact holds.limit count count
  | skip count => exact holds.skipping count count

theorem holds_actAll {chain : Chain ε α} {flow : Unit → Flow ε α}
    (holds : chain.Holds chain.initial (flow ())) (actions : List (Action ε α)) :
    (chain.actAll actions).Holds (chain.actAll actions).initial
      (Action.applyAll actions flow ()) := by
  induction actions generalizing chain flow with
  | nil => exact holds
  | cons action actions inductionHypothesis => exact inductionHypothesis (holds_act holds action)

end Chain

namespace Feed

/-- The chains that a feed may open. A source may open any chain that holds its elements and stays
exhausted behind them; a segment opens the adaptors of its optimized plan, and a map at its end. -/
inductive Opens : {type : ElementType} → Feed ε type → Chain ε type.Carrier → Prop where
  | source {type : ElementType} {origin : Source ε type.Carrier} {chain : Chain ε type.Carrier}
      (holds : chain.Holds chain.initial (origin.start.value ())) : Opens (.source origin) chain
  | stage {inner outer : ElementType} {feed : Feed ε inner}
      {actions : List (Action ε inner.Carrier)} {mapper : inner.Carrier → Traced ε outer.Carrier}
      {chain : Chain ε inner.Carrier} (opens : Opens feed chain) :
      Opens (.stage feed actions mapper) ((chain.actAll (Plan.optimize actions)).map mapper)

/-- Whatever chain a feed opens holds the flow that the feed gives. -/
theorem Opens.holds {feed : Feed ε type} {chain : Chain ε type.Carrier}
    (opens : feed.Opens chain) : chain.Holds chain.initial ((feed.run []).value ()) := by
  induction opens with
  | source holds =>
      rw [run_source]
      exact holds
  | @stage inner outer feed actions mapper chain opens inductionHypothesis =>
      have segment := (Chain.holds_actAll inductionHypothesis (Plan.optimize actions)).map mapper
      have flow : ((feed.run (Plan.optimize actions)).value ()) =
          Action.applyAll (Plan.optimize actions) (feed.run []).value () := by
        rw [run_eq]
        rfl
      rw [← flow] at segment
      exact segment

end Feed

namespace View

/-- The chain behind a view whose feed has opened one. -/
def chain (view : View ε type) (opened : Chain ε type.Carrier) : Chain ε type.Carrier :=
  opened.actAll (Plan.optimize view.actions)

theorem holds_chain {view : View ε type} {opened : Chain ε type.Carrier}
    (opens : view.feed.Opens opened) :
    (view.chain opened).Holds (view.chain opened).initial view.flow := by
  rw [flow_eq]
  exact Chain.holds_actAll opens.holds _

/-- The answers to a number of pulls are those of the flow, behind the calls of opening it. -/
theorem pulls_eq (view : View ε type) (count : Nat) :
    view.pulls count = ⟨view.start.calls ++ view.flow.callsWithin count,
      Flow.answersWithin count view.flow.items⟩ := by
  rw [pulls, terminate, Traced.bind, Flow.pulls_eq]
  rfl

/-- A consumer that does not pull leaves it at opening the view. -/
theorem pulls_zero (view : View ε type) : view.pulls 0 = ⟨view.feed.opening, []⟩ := by
  rw [pulls_eq, start, Feed.calls_run]
  simp [Flow.answersWithin]

/-- The first calls of the flow are, behind those of opening the view, the first of collecting
it. -/
theorem calls_isPrefix_collect (view : View ε type) {calls : List ε}
    (early : calls <+: view.flow.trace) : view.start.calls ++ calls <+: view.collect.calls := by
  rw [calls_collect]
  exact (List.prefix_append_right_inj _).mpr early

/-- No number of pulls makes a call that collecting would not make. -/
theorem calls_pulls_isPrefix (view : View ε type) (count : Nat) :
    (view.pulls count).calls <+: view.collect.calls := by
  rw [pulls_eq]
  exact view.calls_isPrefix_collect (Flow.callsWithin_isPrefix_trace _ count)

/-- A chain that holds the flow of a view answers any number of pulls as the view does. -/
theorem pulls_iff_of_holds {view : View ε type} {chain : Chain ε type.Carrier}
    (holds : chain.Holds chain.initial view.flow) (count : Nat) (calls : List ε)
    (answers : List (Option type.Carrier)) :
    (∃ last, chain.Pulls count chain.initial calls answers last) ↔
      view.pulls count = ⟨view.start.calls ++ calls, answers⟩ := by
  obtain ⟨last, pulls⟩ := holds.pulls count
  rw [pulls_eq, Traced.mk.injEq, List.append_cancel_left_eq]
  constructor
  · rintro ⟨_, others⟩
    exact pulls.unique others
  · rintro ⟨rfl, rfl⟩
    exact ⟨last, pulls⟩

/-- Collecting from a chain that holds the flow of a view gives what collecting the view gives. -/
theorem collects_iff_of_holds {view : View ε type} {chain : Chain ε type.Carrier}
    (holds : chain.Holds chain.initial view.flow) (calls : List ε) (values : List type.Carrier) :
    chain.Collects chain.initial calls values ↔
      view.collect = ⟨view.start.calls ++ calls, values⟩ := by
  have collects := holds.collects
  rw [collect_eq, Traced.mk.injEq, List.append_cancel_left_eq]
  constructor
  · exact fun others => collects.unique others
  · rintro ⟨rfl, rfl⟩
    exact collects

/-- A chain behind a view answers any number of pulls as the view does. -/
theorem pulls_chain_iff {view : View ε type} {opened : Chain ε type.Carrier}
    (opens : view.feed.Opens opened) (count : Nat) (calls : List ε)
    (answers : List (Option type.Carrier)) :
    (∃ last, (view.chain opened).Pulls count (view.chain opened).initial calls answers last) ↔
      view.pulls count = ⟨view.start.calls ++ calls, answers⟩ :=
  pulls_iff_of_holds (holds_chain opens) count calls answers

/-- Collecting from a chain behind a view gives what collecting the view gives. -/
theorem collects_chain_iff {view : View ε type} {opened : Chain ε type.Carrier}
    (opens : view.feed.Opens opened) (calls : List ε) (values : List type.Carrier) :
    (view.chain opened).Collects (view.chain opened).initial calls values ↔
      view.collect = ⟨view.start.calls ++ calls, values⟩ :=
  collects_iff_of_holds (holds_chain opens) calls values

/-- A consumer that pulls `count` times gets the first elements of what collecting gives, and
nothing for every further pull. Its calls are the beginning of the calls of collecting, and all of
them if it pulls more often than there are elements. So does every chain that the view may stand
for: its pulls, be they before its end or behind it, have these answers and calls and no others. -/
theorem pulls_eq_take (view : View ε type) (count : Nat) :
    (view.pulls count).value = (view.collect.value.take count).map some ++
      List.replicate (count - view.collect.value.length) none ∧
    (view.pulls count).calls <+: view.collect.calls ∧
    (view.collect.value.length < count → (view.pulls count).calls = view.collect.calls) ∧
    ∀ opened, view.feed.Opens opened →
      (∀ calls answers,
        (∃ last, (view.chain opened).Pulls count (view.chain opened).initial calls answers last) ↔
          view.pulls count = ⟨view.start.calls ++ calls, answers⟩) ∧
      ∀ calls values,
        (view.chain opened).Collects (view.chain opened).initial calls values ↔
          view.collect = ⟨view.start.calls ++ calls, values⟩ := by
  refine ⟨?_, view.calls_pulls_isPrefix count, fun enough => ?_, fun opened opens =>
    ⟨pulls_chain_iff opens count, collects_chain_iff opens⟩⟩
  · rw [pulls_eq, collect_eq]
    rfl
  · rw [collect_eq] at enough
    rw [pulls_eq, collect_eq, Flow.callsWithin_eq_trace _ enough]

/-- The first three different values of the expansions of a produced list, widened. -/
def widenedExpansions : View String .long :=
  let produced : View String .int := ofSource (.produced ["open"] [2, 1, 2, 3])
  let expanded := (produced.append (.flatMap fun value => ⟨["expand"], [value, value + 1]⟩)).append
    (.skip 1)
  let widened : View String .long :=
    expanded.mapTo fun value => ⟨["widen"], ElementType.convert .int .long value⟩
  (widened.append .distinct).append (.limit 3)

/-- The chain that the feed of `widenedExpansions` opens over the flow of its source. -/
def widenedExpansionsOpened : Chain String Int64 :=
  let source : Flow String Int32 := .ofList [2, 1, 2, 3]
  ((Chain.ofFlow source).actAll
    [.flatMap fun value => ⟨["expand"], [value, value + 1]⟩, .skip 1]).map fun value =>
      ⟨["widen"], ElementType.convert .int .long value⟩

theorem widenedExpansions_opens : widenedExpansions.feed.Opens widenedExpansionsOpened :=
  .stage (.source (Chain.holds_ofFlow _ _))

theorem widenedExpansions_pulled :
    widenedExpansions.collect.value.length < 5 ∧
    (widenedExpansions.pulls 5).calls = widenedExpansions.collect.calls ∧
    widenedExpansions.feed.Opens widenedExpansionsOpened ∧
    ∃ last, (widenedExpansions.chain widenedExpansionsOpened).Pulls 5
      (widenedExpansions.chain widenedExpansionsOpened).initial
      ["expand", "widen", "expand", "widen", "widen"]
      [some (3 : Int64), some (1 : Int64), some (2 : Int64), none, none] last := by
  have enough : widenedExpansions.collect.value.length < 5 := by decide
  obtain ⟨_, _, whole, chains⟩ := pulls_eq_take widenedExpansions 5
  refine ⟨enough, whole enough, widenedExpansions_opens, ?_⟩
  exact ((chains widenedExpansionsOpened widenedExpansions_opens).1 _ _).mpr (by decide)

end View

end Flowpress
