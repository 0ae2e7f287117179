import Flowpress.Proofs.Pipeline.Demand
import Flowpress.Proofs.Pipeline.Labels
import Flowpress.Proofs.Pipeline.Orders

/-!
# Sorts are barriers

Nothing passes a sort before everything has arrived. A consumer behind it that
pulls at all makes, at its first pull, every call that collecting what lies in
front of the sort would make, and none later; one that does not pull calls nothing
but the producer of the source.

Behind the first pull a sort keeps the elements it has yet to give and nothing
else: the chain it has pulled on is gone, so there is nothing left to call.
-/

namespace Flowpress

variable {ε δ α : Type} {type : ElementType}

/-! ## The state of a sort -/

namespace Chain

variable {chain : Chain ε α} {state : chain.State} {flow : Flow ε α}

/-- The first pull on a sort makes all calls of the chain in front of it. It answers with the first
element in order and keeps the others. -/
theorem Holds.pull_sorted (holds : chain.Holds state flow) (order : α → α → Ordering)
    (taken : List α) :
    (chain.sorted order).Pull (.taking taken state) flow.trace
      (Flow.sortList order (taken.reverse ++ flow.items)).head?
      (.giving (Flow.sortList order (taken.reverse ++ flow.items)).tail) := by
  induction holds generalizing taken with
  | @done state next ended spent =>
      have full : (chain.sorted order).step (.taking taken state) =
          .skip [] (.giving (Flow.sortList order taken.reverse)) := by
        simp [sorted, ended]
      rw [Flow.trace, Flow.items, List.append_nil]
      cases given : Flow.sortList order taken.reverse with
      | nil => exact .skip (given ▸ full) (.done rfl)
      | cons value values => exact .skip (given ▸ full) (.yield rfl)
  | skip silent holds inductionHypothesis =>
      rw [Flow.trace_afterCalls, Flow.items_afterCalls]
      exact .skip (by simp [sorted, silent]) (inductionHypothesis taken)
  | @yield state next calls value rest given holds inductionHypothesis =>
      rw [Flow.trace_afterCalls, Flow.items_afterCalls, Flow.trace, Flow.items,
        List.append_cons taken.reverse value, ← List.reverse_cons]
      exact .skip (by simp [sorted, given]) (inductionHypothesis (value :: taken))

/-- A sort that gives what it keeps makes no call. -/
theorem pulls_giving_iff {order : α → α → Ordering} {values : List α} {count : Nat}
    {calls : List ε} {answers : List (Option α)} :
    (∃ last, (chain.sorted order).Pulls count (.giving values) calls answers last) ↔
      calls = [] ∧ answers = Flow.answersWithin count values := by
  have holds : (chain.sorted order).Holds (.giving values) (.ofList values) := .giving values
  obtain ⟨last, pulls⟩ := holds.pulls count
  rw [Flow.callsWithin_ofList, Flow.items_ofList] at pulls
  constructor
  · rintro ⟨_, others⟩
    obtain ⟨rfl, rfl⟩ := pulls.unique others
    exact ⟨rfl, rfl⟩
  · rintro ⟨rfl, rfl⟩
    exact ⟨last, pulls⟩

variable [Element α] [DecidableEq α]

theorem actAll_append (chain : Chain ε α) (first second : List (Action ε α)) :
    chain.actAll (first ++ second) = (chain.actAll first).actAll second := by
  simp [actAll]

end Chain

/-! ## Views that end in a sort -/

/-- Opening a feed is a matter of its source alone, wherever the calls of the others come from. -/
theorem Feed.opening_recastAt (change : CallSite → ε → List δ) (segment : Nat)
    (feed : Feed ε type) :
    (feed.recastAt change segment).opening = feed.opening.flatMap (change .source) := by
  induction feed generalizing segment with
  | source origin => simp [recastAt, opening, Source.start_recast]
  | stage feed actions mapper inductionHypothesis => exact inductionHypothesis (segment + 1)

namespace View

/-- A consumer behind a sort makes all calls of the view in front of it, however often it pulls. -/
theorem pulls_append_sorted (view : View ε type)
    (order : Option (type.Carrier → type.Carrier → Ordering)) (count : Nat) :
    (view.append (.sorted order)).pulls (count + 1) =
      ⟨view.collect.calls, Flow.answersWithin (count + 1)
        (Flow.sortList (order.getD Element.order) view.collect.value)⟩ := by
  have sorted : (view.append (.sorted order)).flow = _ := view.flow_append nofun
  rw [pulls_eq, start_calls_append, sorted, collect_eq]
  simp only [Action.apply, Flow.callsWithin_sorted, Flow.items_sorted]

/-- The chain of a view that ends in a sort is a sort over the chain of what is in front. -/
theorem chain_append_sorted (view : View ε type)
    (order : Option (type.Carrier → type.Carrier → Ordering)) (opened : Chain ε type.Carrier) :
    (view.append (.sorted order)).chain opened =
      (view.chain opened).sorted (order.getD Element.order) := by
  show opened.actAll (Plan.optimize (view.actions ++ [_])) = _
  rw [Plan.optimize_append_sorted, Chain.actAll_append]
  rfl

/-- A sort is a full barrier. A consumer of the sorted view that does not pull makes no call but
those of asking the source for its elements: no call comes from an action or from the map behind a
segment. A consumer that pulls makes exactly the calls of collecting the view in front of the sort,
however often it pulls and whatever the order is. Every chain that the sorted view may stand for is
a sort over a chain of the view in front: its first pull makes all these calls and leaves the sort
with the elements it has yet to give, all that there were but the first; no later pull makes a
call. -/
theorem sorted_is_barrier (view : View ε type)
    (order : Option (type.Carrier → type.Carrier → Ordering)) :
    let sorted := view.append (.sorted order)
    sorted.pulls 0 = ⟨view.feed.opening, []⟩ ∧
    sorted.labelled.pulls 0 = ⟨view.feed.opening.map fun event => (.source, event), []⟩ ∧
    (∀ count, (sorted.pulls (count + 1)).calls = view.collect.calls) ∧
    ∀ opened, view.feed.Opens opened →
      sorted.chain opened = (view.chain opened).sorted (order.getD Element.order) ∧
      ∃ (calls : List ε) (values : List type.Carrier),
        view.collect.calls = view.start.calls ++ calls ∧ values.Perm view.collect.value ∧
        ((view.chain opened).sorted (order.getD Element.order)).Pull
          (.taking [] (view.chain opened).initial) calls values.head? (.giving values.tail) ∧
        ∀ count later answers,
          (∃ last, ((view.chain opened).sorted (order.getD Element.order)).Pulls count
            (.giving values.tail) later answers last) ↔
            later = [] ∧ answers = Flow.answersWithin count values.tail := by
  intro sorted
  refine ⟨sorted.pulls_zero, ?_, fun count => ?_, fun opened opens => ?_⟩
  · have opening : sorted.labelled.feed.opening = _ :=
      Feed.opening_recastAt (fun site event => [(site, event)]) 0 view.feed
    rw [pulls_zero, opening, List.map_eq_flatMap]
  · rw [pulls_append_sorted]
  · refine ⟨view.chain_append_sorted order opened, view.flow.trace,
      Flow.sortList (order.getD Element.order) view.flow.items, ?_, ?_, ?_, ?_⟩
    · rw [collect_eq]
    · rw [collect_eq]
      exact List.mergeSort_perm _ _
    · exact (holds_chain opens).pull_sorted _ []
    · exact fun _ _ _ => Chain.pulls_giving_iff

/-- Three expansions behind a sort: the first pull makes all five calls, further ones make none. -/
theorem widenedExpansions_sorted :
    let sorted := (widenedExpansions.chain widenedExpansionsOpened).sorted Element.order
    widenedExpansions.feed.Opens widenedExpansionsOpened ∧
    ∃ values : List Int64, values.Perm [3, 1, 2] ∧
      sorted.Pull sorted.initial ["expand", "widen", "expand", "widen", "widen"] values.head?
        (.giving values.tail) ∧
      ∀ later answers last, sorted.Pulls 4 (.giving values.tail) later answers last →
        later = [] := by
  intro sorted
  obtain ⟨-, -, -, chains⟩ := sorted_is_barrier widenedExpansions none
  obtain ⟨-, calls, values, made, perm, first, further⟩ := chains _ widenedExpansions_opens
  have collected : widenedExpansions.collect.calls =
      widenedExpansions.start.calls ++ ["expand", "widen", "expand", "widen", "widen"] := by decide
  obtain rfl := List.append_cancel_left (made.symm.trans collected)
  refine ⟨widenedExpansions_opens, values, perm, first, fun later answers last pulls => ?_⟩
  exact ((further 4 later answers).mp ⟨last, pulls⟩).1

end View

end Flowpress
