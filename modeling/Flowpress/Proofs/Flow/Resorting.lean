import Flowpress.Proofs.Flow.Contents
import Flowpress.Proofs.Flow.Sorting

/-!
# Sorting again

Sorting what has been sorted is sorting once, in the order of the second sort
with ties broken by the first. Stability is all there is to it: the second sort
leaves its ties as the first one has put them.

A flow that is sorted makes all calls before it gives an element, so two sorts of
a flow are one in this as well.
-/

namespace Flowpress

variable {ε α : Type} {first second : α → α → Ordering}

/-- A list in the second order whose ties are in the first order is in the lexicographic order. -/
theorem ordered_compareLex [Std.ReflCmp second] {values : List α}
    (ordered : values.Pairwise fun one other => (second one other).isLE)
    (ties : ∀ value, (values.filter fun other => (second value other).isEq).Pairwise
      fun one other => (first one other).isLE) :
    values.Pairwise fun one other => (compareLex second first one other).isLE := by
  rw [List.pairwise_iff_forall_sublist]
  intro one other pair
  have below : (second one other).isLE := List.pairwise_iff_forall_sublist.mp ordered pair
  rw [compareLex, Ordering.isLE_then_iff_or]
  rcases Ordering.isLE_iff_eq_lt_or_eq_eq.mp below with less | tie
  · exact .inl less
  · -- Both are among the elements that tie with the one in front.
    have tied := pair.filter fun other => (second one other).isEq
    simp only [List.filter_cons, List.filter_nil, tie, Std.ReflCmp.compare_self,
      Ordering.isEq_eq, if_true] at tied
    exact .inr ⟨tie, List.pairwise_iff_forall_sublist.mp (ties one) tied⟩

namespace StableSort

/-- The stable sort of a stable sort is stable in the lexicographic order. -/
theorem resort [Std.ReflCmp second] {source once twice : List α}
    (inner : StableSort first source once) (outer : StableSort second once twice) :
    StableSort (compareLex second first) source twice where
  perm := outer.perm.trans inner.perm
  ordered := by
    refine ordered_compareLex outer.ordered fun value => ?_
    rw [outer.stable]
    exact inner.ordered.sublist List.filter_sublist
  stable := by
    intro value
    have both (values : List α) :
        (values.filter fun other => (compareLex second first value other).isEq) =
          (values.filter fun other => (second value other).isEq).filter
            fun other => (first value other).isEq := by
      simp only [compareLex, Ordering.isEq_then, List.filter_filter, Bool.and_comm]
    rw [both, outer.stable, List.filter_comm, inner.stable, List.filter_comm, ← both]

end StableSort

/-- Sorting twice is sorting in the lexicographic order. -/
theorem sortList_sortList [Std.TransCmp first] [Std.TransCmp second] (values : List α) :
    Flow.sortList second (Flow.sortList first values) =
      Flow.sortList (compareLex second first) values :=
  ((sortList_isStable values).resort (sortList_isStable _)).unique (sortList_isStable values)

namespace Flow

theorem sortedAfter_eq (order : α → α → Ordering) (taken : List α) (flow : Flow ε α) :
    sortedAfter order taken flow =
      afterCalls flow.trace fun _ => ofList (sortList order (taken.reverse ++ flow.items)) := by
  induction flow generalizing taken with
  | done => simp [sortedAfter, trace, items, afterCalls]
  | call event rest inductionHypothesis =>
      simp [sortedAfter, trace, items, afterCalls, inductionHypothesis]
  | yield value rest inductionHypothesis =>
      simp [sortedAfter, trace, items, inductionHypothesis]

/-- A sort makes all calls of the flow first, and then gives its elements in order. -/
theorem sorted_eq (order : α → α → Ordering) (flow : Flow ε α) :
    flow.sorted order = afterCalls flow.trace fun _ => ofList (sortList order flow.items) :=
  sortedAfter_eq order [] flow

theorem trace_sorted (order : α → α → Ordering) (flow : Flow ε α) :
    (flow.sorted order).trace = flow.trace := by
  rw [sorted_eq, trace_afterCalls, trace_ofList, List.append_nil]

/-- A flow that is sorted twice is sorted in the lexicographic order. -/
theorem sorted_sorted [Std.TransCmp first] [Std.TransCmp second] (flow : Flow ε α) :
    (flow.sorted first).sorted second = flow.sorted (compareLex second first) := by
  simp only [sorted_eq, trace_afterCalls, items_afterCalls, trace_ofList, items_ofList,
    List.append_nil, sortList_sortList]

end Flow

end Flowpress
