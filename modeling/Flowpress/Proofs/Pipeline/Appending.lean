import Flowpress.Proofs.Pipeline.NormalForms

/-!
# Appending an action

An action that is appended to a view is applied to what the view gives, although
it may be merged with the last action of the optimized plan. Skips are left out
here: the sum of two skips may be cut off.
-/

namespace Flowpress

variable {ε α : Type} {type : ElementType}

namespace Plan

/-- A sort is never merged with what is in front of it. -/
theorem optimize_append_sorted (actions : List (Action ε α))
    (order : Option (α → α → Ordering)) :
    optimize (actions ++ [.sorted order]) = optimize actions ++ [.sorted order] := by
  have single : (Action.sorted order : Action ε α).kind ∉ mergedKinds := by
    simp [Action.kind, mergedKinds]
  have parts := optimize_append_barrier single actions []
  rwa [List.append_nil, optimize_nil, List.append_nil] at parts

variable [Element α] [DecidableEq α]

/-- A plan that is optimized with one action more, which is no skip, applies this action to what the
optimized plan gives. -/
theorem applyAll_optimize_append (actions : List (Action ε α)) {action : Action ε α}
    (other : action.kind ≠ .skip) (flow : Unit → Flow ε α) :
    Action.applyAll (optimize (actions ++ [action])) flow =
      action.apply (Action.applyAll (optimize actions) flow) := by
  rw [optimize_append_singleton]
  rcases List.eq_nil_or_concat (optimize actions) with none | ⟨others, last, split⟩
  · rw [none]
    rfl
  · rw [split, List.concat_eq_append, List.reverse_append, List.reverse_singleton,
      List.singleton_append, push, Action.applyAll_append]
    cases fits : merge last action with
    | none =>
        rw [List.reverse_cons, List.reverse_cons, List.reverse_reverse, List.append_assoc,
          Action.applyAll_append]
        rfl
    | some merged =>
        obtain ⟨held, added⟩ := merge_kind fits
        have dropsNothing {one : Action ε α} (same : one.kind = merged.kind) : dropped one = 0 := by
          cases one <;> first | rfl | exact absurd (added.trans same.symm) other
        have uncut : dropped last + dropped action ≤ maximalCount := by
          rw [dropsNothing held, dropsNothing added]
          exact Nat.zero_le _
        rw [List.reverse_cons, List.reverse_reverse, Action.applyAll_append]
        exact merge_apply fits _ (.inr uncut)

/-- A plan that is optimized with a skip more makes the calls of the optimized plan. -/
theorem trace_applyAll_optimize_append_skip (actions : List (Action ε α)) (count : Nat)
    (flow : Unit → Flow ε α) :
    (Action.applyAll (optimize (actions ++ [.skip count])) flow ()).trace =
      (Action.applyAll (optimize actions) flow ()).trace := by
  rw [optimize_append_singleton]
  rcases List.eq_nil_or_concat (optimize actions) with none | ⟨others, last, split⟩
  · rw [none]
    exact Flow.trace_skip count _
  · rw [split]
    cases last <;>
      simp [push, merge, Action.applyAll_append, Action.apply, Flow.trace_skip]

end Plan

namespace View

/-- A view with one action more, which is no skip, opens as the view does, and applies the action to
what the view gives. -/
theorem start_append (view : View ε type) {action : Action ε type.Carrier}
    (other : action.kind ≠ .skip) :
    (view.append action).start = view.start.map action.apply := by
  have plan := Plan.applyAll_optimize_append view.actions other (view.feed.run []).value
  rw [start, start, append, Feed.run_eq, Feed.run_eq view.feed (Plan.optimize view.actions)]
  exact congrArg (Traced.mk _) plan

theorem flow_append (view : View ε type) {action : Action ε type.Carrier}
    (other : action.kind ≠ .skip) :
    (view.append action).flow = action.apply (fun _ => view.flow) () := by
  rw [flow, start_append view other]
  rfl

/-- A skip more is no call more or less. -/
theorem trace_append_skip (view : View ε type) (count : Nat) :
    (view.append (.skip count)).flow.trace = view.flow.trace := by
  rw [flow_eq, flow_eq]
  exact Plan.trace_applyAll_optimize_append_skip view.actions count _

theorem start_calls_append (view : View ε type) (action : Action ε type.Carrier) :
    (view.append action).start.calls = view.start.calls := by
  rw [start_calls, start_calls]
  rfl

end View

end Flowpress
