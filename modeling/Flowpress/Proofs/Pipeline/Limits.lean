import Mathlib.Data.List.ReduceOption
import Flowpress.Proofs.Pipeline.Appending
import Flowpress.Proofs.Pipeline.Demand

/-!
# Limits

Collecting a view through a limit is pulling on the view as often as the limit is
wide: the calls are the same, one by one, and the result is what these pulls give.
So nothing is pulled for an element that is not wanted, and a limit that wants
none calls nothing but the producer of the source.

Limits at the end of a view are merged into the narrowest one, which is all that
reaches what lies in front of them.
-/

namespace Flowpress

variable {ε α : Type} {type : ElementType}

namespace Flow

/-- The elements among the answers to pulls are the first elements. -/
theorem reduceOption_answersWithin (count : Nat) (values : List α) :
    (answersWithin count values).reduceOption = values.take count := by
  rw [answersWithin, List.reduceOption_append, List.reduceOption_replicate_none, List.append_nil]
  simp [List.reduceOption]

/-- Collecting a limited flow is pulling as often as the limit is wide and keeping the elements. -/
theorem collect_limit (width : Nat) (flow : Unit → Flow ε α) :
    (limit width flow).collect = (pulls width flow).map List.reduceOption := by
  rw [collect_eq, pulls_eq, trace_limit, items_limit, Traced.map, reduceOption_answersWithin]

end Flow

namespace Plan

/-- Two limits at the end of a plan are optimized as the narrower one is. -/
theorem optimize_limit_limit (actions : List (Action ε α)) (first second : Nat) :
    optimize (actions ++ [.limit first] ++ [.limit second]) =
      optimize (actions ++ [.limit (min first second)]) := by
  simp only [optimize_append_singleton, List.reverse_reverse]
  cases (optimize actions).reverse with
  | nil => rfl
  | cons last others => cases last <;> simp [push, merge, Nat.min_assoc]

end Plan

namespace View

/-- Collecting a view through a limit is pulling on the view as often as the limit is wide. -/
theorem collect_append_limit (view : View ε type) (count : Nat) :
    (view.append (.limit count)).collect = (view.pulls count).map List.reduceOption := by
  have limited : (view.append (.limit count)).start = view.start.map (Action.limit count).apply :=
    view.start_append nofun
  rw [collect, pulls, terminate, terminate, limited]
  show (view.start.bind fun flow => (Flow.limit count flow).collect) =
    view.start.bind fun flow => (Flow.pulls count flow).map List.reduceOption
  simp only [Flow.collect_limit]

/-- A limit that wants nothing leaves it at opening the view. -/
theorem collect_append_limit_zero (view : View ε type) :
    (view.append (.limit 0)).collect = ⟨view.feed.opening, []⟩ := by
  rw [collect_append_limit, pulls_zero]
  rfl

/-- Collecting from a chain behind a limited view makes as many pulls on the chain behind the view
as the limit is wide. -/
theorem collects_append_limit_iff {view : View ε type} {opened : Chain ε type.Carrier}
    (opens : view.feed.Opens opened) (count : Nat) (calls : List ε)
    (values : List type.Carrier) :
    ((view.append (.limit count)).chain opened).Collects
        ((view.append (.limit count)).chain opened).initial calls values ↔
      ∃ answers, (∃ last, (view.chain opened).Pulls count (view.chain opened).initial calls
        answers last) ∧ answers.reduceOption = values := by
  have sameFeed : (view.append (.limit count)).feed.Opens opened := opens
  rw [collects_chain_iff sameFeed, collect_append_limit, start_calls_append, Traced.map_eq_iff]
  simp only [pulls_chain_iff opens]

/-! ## Limits in front of a limit -/

/-- The view with limits of some widths at its end. -/
def limits (view : View ε type) : List Nat → View ε type
  | [] => view
  | width :: widths => (view.append (.limit width)).limits widths

/-- Limits at the end of a view are optimized into the narrowest one. -/
theorem optimize_limits_append (view : View ε type) (widths : List Nat) (count : Nat) :
    Plan.optimize ((view.limits widths).append (.limit count)).actions =
      Plan.optimize (view.append (.limit (widths.foldr min count))).actions := by
  induction widths generalizing view with
  | nil => rfl
  | cons width widths inductionHypothesis =>
      rw [limits, inductionHypothesis, List.foldr_cons]
      exact Plan.optimize_limit_limit view.actions width _

theorem feed_limits (view : View ε type) (widths : List Nat) :
    (view.limits widths).feed = view.feed := by
  induction widths generalizing view with
  | nil => rfl
  | cons width widths inductionHypothesis => exact inductionHypothesis _

/-- Limits at the end of a view are collected as the narrowest one is. -/
theorem collect_limits_append (view : View ε type) (widths : List Nat) (count : Nat) :
    ((view.limits widths).append (.limit count)).collect =
      (view.append (.limit (widths.foldr min count))).collect := by
  rw [collect, collect, terminate, terminate, start, start, optimize_limits_append, append,
    feed_limits]
  rfl

/-! ## Never an element too many -/

/-- A limit never pulls an element too many. Collecting a view through a limit makes, call by call,
what a consumer makes that pulls on the view as often as the limit is wide, and gives the elements
among its answers. A limit that wants nothing makes no call but those of asking the source for its
elements. If the view ends in limits already, all of them become the narrowest one, and no more
pulls than that reach what lies in front of them. The same is true of every chain that the view may
stand for. -/
theorem collect_limit_as_pulls (view : View ε type) (count : Nat) :
    (view.append (.limit count)).collect = (view.pulls count).map List.reduceOption ∧
    (view.append (.limit 0)).collect = ⟨view.feed.opening, []⟩ ∧
    (∀ widths : List Nat,
      ((view.limits widths).append (.limit count)).collect =
        ((view.limits widths).pulls count).map List.reduceOption ∧
      Plan.optimize ((view.limits widths).append (.limit count)).actions =
        Plan.optimize (view.append (.limit (widths.foldr min count))).actions ∧
      ((view.limits widths).append (.limit count)).collect =
        (view.pulls (widths.foldr min count)).map List.reduceOption) ∧
    ∀ opened, view.feed.Opens opened → ∀ calls values,
      ((view.append (.limit count)).chain opened).Collects
          ((view.append (.limit count)).chain opened).initial calls values ↔
        ∃ answers, (∃ last, (view.chain opened).Pulls count (view.chain opened).initial calls
          answers last) ∧ answers.reduceOption = values := by
  refine ⟨view.collect_append_limit count, view.collect_append_limit_zero, fun widths => ?_,
    fun opened opens => collects_append_limit_iff opens count⟩
  refine ⟨collect_append_limit _ count, view.optimize_limits_append widths count, ?_⟩
  rw [collect_limits_append, collect_append_limit]

/-- Two of the three expansions that a view wants, from the chain behind it. -/
theorem widenedExpansions_limited :
    widenedExpansions.feed.Opens widenedExpansionsOpened ∧
    ((widenedExpansions.append (.limit 2)).chain widenedExpansionsOpened).Collects
      ((widenedExpansions.append (.limit 2)).chain widenedExpansionsOpened).initial
      ["expand", "widen", "expand", "widen"] [(3 : Int64), (1 : Int64)] := by
  obtain ⟨-, -, -, chains⟩ := collect_limit_as_pulls widenedExpansions 2
  have pulled := (pulls_chain_iff widenedExpansions_opens 2 ["expand", "widen", "expand", "widen"]
    [some (3 : Int64), some (1 : Int64)]).mpr (by decide)
  exact ⟨widenedExpansions_opens, (chains _ widenedExpansions_opens _ _).mpr ⟨_, pulled, rfl⟩⟩

end View

end Flowpress
