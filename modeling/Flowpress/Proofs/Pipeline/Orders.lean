import Flowpress.Proofs.Elements
import Flowpress.Proofs.Flow.Resorting
import Flowpress.Proofs.Flow.SortedSets
import Flowpress.Proofs.Pipeline.Appending
import Flowpress.Proofs.Pipeline.Stages

/-!
# Sorting views

A view may be sorted by one order and then by another, which sorts it by the
second with ties broken by the first. It may be sorted in the natural order and
lose its copies, and it does not matter which comes first, because elements tie
in the natural order exactly if they are copies of each other.
-/

namespace Flowpress

variable {ε : Type} {type : ElementType}

namespace View

/-- Collecting a view of a list gives the list, without a call. -/
theorem collect_items (values : List type.Carrier) :
    (ofSource (.items values) : View ε type).collect = .silent values := by
  have opened : (ofSource (.items values) : View ε type).start = .silent fun _ => .ofList values :=
    rfl
  rw [collect, terminate, opened, Traced.bind, Flow.collect_eq]
  simp [Traced.silent]

/-- Collecting a view with one action more, which is no skip. -/
theorem collect_append (view : View ε type) {action : Action ε type.Carrier}
    (other : action.kind ≠ .skip) :
    (view.append action).collect =
      ⟨view.start.calls ++ (action.apply (fun _ => view.flow) ()).trace,
        (action.apply (fun _ => view.flow) ()).items⟩ := by
  rw [collect_eq, start_calls_append, flow_append view other]

theorem collect_append_sorted (view : View ε type)
    (order : Option (type.Carrier → type.Carrier → Ordering)) :
    (view.append (.sorted order)).collect =
      view.collect.map (Flow.sortList (order.getD Element.order)) := by
  have sorted : (view.append (.sorted order)).collect = _ := view.collect_append nofun
  rw [sorted, collect_eq]
  simp only [Action.apply, Flow.trace_sorted, Flow.items_sorted, Traced.map]

theorem collect_append_distinct (view : View ε type) :
    (view.append .distinct).collect = view.collect.map List.eraseDups := by
  have distinct : (view.append .distinct).collect = _ := view.collect_append nofun
  rw [distinct, collect_eq]
  simp only [Action.apply, Flow.trace_distinct, Flow.items_distinct, Traced.map]

/-! ## Sorting twice -/

/-- Whatever consumes a view that is sorted twice may as well consume it sorted once, in the
lexicographic order. -/
theorem start_sorted_sorted (view : View ε type)
    (first second : type.Carrier → type.Carrier → Ordering)
    [Std.TransCmp first] [Std.TransCmp second] :
    ((view.append (.sorted (some first))).append (.sorted (some second))).start =
      (view.append (.sorted (some (compareLex second first)))).start := by
  have appended (view : View ε type) (order : Option (type.Carrier → type.Carrier → Ordering)) :
      (view.append (.sorted order)).start = view.start.map (Action.sorted order).apply :=
    view.start_append nofun
  rw [appended, appended, appended]
  simp only [Traced.map, Action.apply, Option.getD_some, Flow.sorted_sorted]

/-- Sorting a view by one order and then by another is sorting it by the second with ties broken by
the first: every consumer gets the same from both, and what is collected is the stable sort in the
lexicographic order of what the view gives. Elements that tie in both orders stay in the order in
which the view gives them. Both sorts are in the optimized plan. -/
theorem collect_sorted_sorted (view : View ε type)
    (first second : type.Carrier → type.Carrier → Ordering)
    [Std.TransCmp first] [Std.TransCmp second] :
    let twice := (view.append (.sorted (some first))).append (.sorted (some second))
    let once := view.append (.sorted (some (compareLex second first)))
    twice.collect = once.collect ∧
    (∀ (ρ : Type) (consumer : (Unit → Flow ε type.Carrier) → Traced ε ρ),
      twice.terminate consumer = once.terminate consumer) ∧
    twice.collect.calls = view.collect.calls ∧
    StableSort (compareLex second first) view.collect.value twice.collect.value ∧
    (∀ value,
      (twice.collect.value.filter fun other =>
          (first value other).isEq && (second value other).isEq) =
        view.collect.value.filter fun other =>
          (first value other).isEq && (second value other).isEq) ∧
    Plan.optimize twice.actions =
      Plan.optimize view.actions ++ [.sorted (some first), .sorted (some second)] := by
  intro twice once
  have opened : twice.start = once.start := view.start_sorted_sorted first second
  have collected : twice.collect = once.collect := by
    rw [collect, collect, terminate, terminate, opened]
  have sorted : twice.collect = view.collect.map (Flow.sortList (compareLex second first)) :=
    collected.trans (view.collect_append_sorted _)
  have stable : StableSort (compareLex second first) view.collect.value twice.collect.value := by
    rw [sorted]
    exact sortList_isStable _
  refine ⟨collected, fun ρ consumer => ?_, ?_, stable, fun value => ?_, ?_⟩
  · rw [terminate, terminate, opened]
  · rw [sorted]
    rfl
  · simpa only [compareLex, Ordering.isEq_then, Bool.and_comm] using stable.stable value
  · show Plan.optimize (view.actions ++ [_] ++ [_]) = _
    rw [Plan.optimize_append_sorted, Plan.optimize_append_sorted, List.append_assoc]
    rfl

/-- The order of even numbers in front of odd ones. -/
def byParity (first second : Int32) : Ordering :=
  compare (first.toInt % 2) (second.toInt % 2)

instance transCmp_byParity : Std.TransCmp byParity :=
  transCmp_compare_key fun value : Int32 => value.toInt % 2

instance transCmp_byMagnitude : Std.TransCmp byMagnitude :=
  transCmp_compare_key fun value : Int32 => (value.toInt.natAbs : Int)

/-- Integers in the order of their magnitudes, and then the even ones in front. Three and its
negative tie in both orders, and the one that comes first stays in front. -/
theorem evenInFront_collected :
    Std.TransCmp byMagnitude ∧ Std.TransCmp byParity ∧
    (((ofSource (.items [3, -4, -3, 2, 5, 4]) : View String .int).append
        (.sorted (some byMagnitude))).append (.sorted (some byParity))).collect.value =
      ([2, -4, 4, 3, -3, 5] : List Int32) := by
  obtain ⟨-, -, -, stable, -⟩ := collect_sorted_sorted
    (ofSource (.items [3, -4, -3, 2, 5, 4]) : View String .int) byMagnitude byParity
  rw [collect_items] at stable
  refine ⟨inferInstance, inferInstance, stable.unique ?_⟩
  have sorted : stableSort (compareLex byParity byMagnitude) [3, -4, -3, 2, 5, 4] =
      [2, -4, 4, 3, -3, 5] := by decide
  exact sorted ▸ stableSort_isStable _

/-! ## Sorting and removing copies -/

end View

end Flowpress
