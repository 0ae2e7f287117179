import Flowpress.Pipeline.View
import Flowpress.Proofs.Flow.Merging

/-!
# What a view runs

A feed that is asked to apply a plan opens its source, with the calls of that,
and gives the flow of the plan over the flow of the source; what an indexed
source absorbs of the plan makes no difference. Every terminal operation of a
view is then a consumer of the one flow `View.flow`.
-/

namespace Flowpress

variable {ε α : Type} {type : ElementType}

namespace Action

variable [Element α] [DecidableEq α]

@[simp] theorem applyAll_nil (flow : Unit → Flow ε α) : applyAll [] flow = flow := rfl

@[simp] theorem applyAll_cons (action : Action ε α) (actions : List (Action ε α))
    (flow : Unit → Flow ε α) :
    applyAll (action :: actions) flow = applyAll actions (action.apply flow) := rfl

theorem applyAll_append (first second : List (Action ε α)) (flow : Unit → Flow ε α) :
    applyAll (first ++ second) flow = applyAll second (applyAll first flow) := by
  simp [applyAll]

end Action

namespace Source

/-- Skipping in an indexed source is starting later. -/
theorem skip_ofFunction (dropped : Nat) (element : Nat → α) (size start : Nat) :
    (Flow.ofFunction element size start : Flow ε α).skip dropped =
      .ofFunction element (size - dropped) (start + dropped) := by
  induction size generalizing dropped start with
  | zero => simp [Flow.ofFunction, Flow.skip]
  | succ size inductionHypothesis =>
      cases dropped with
      | zero => rfl
      | succ dropped =>
          simp [Flow.ofFunction, Flow.skip, inductionHypothesis, Nat.add_right_comm start 1 dropped,
            Nat.add_assoc]

/-- Limiting an indexed source is ending earlier. -/
theorem limit_ofFunction (width : Nat) (element : Nat → α) (size start : Nat) :
    (Flow.limit width fun _ => (Flow.ofFunction element size start : Flow ε α)) =
      .ofFunction element (min size width) start := by
  cases width with
  | zero => simp [Flow.limit, Flow.ofFunction]
  | succ more =>
      show Flow.takeMore more (Flow.ofFunction element size start) = _
      induction size generalizing more start with
      | zero => simp [Flow.ofFunction, Flow.takeMore]
      | succ size inductionHypothesis =>
          cases more with
          | zero => simp [Flow.ofFunction, Flow.takeMore]
          | succ more =>
              rw [Nat.add_min_add_right]
              simp [Flow.ofFunction, Flow.takeMore, inductionHypothesis]

variable [Element α] [DecidableEq α]

/-- What an indexed source absorbs of a plan it does as the plan would. -/
theorem absorb_start (source : Source ε α) (plan : List (Action ε α)) :
    (source.absorb plan).1.start.map (Action.applyAll (source.absorb plan).2) =
      source.start.map (Action.applyAll plan) := by
  fun_induction absorb source plan with
  | case1 start size element count rest inductionHypothesis =>
      rw [inductionHypothesis]
      simp [Source.start, Traced.silent, Traced.map, Action.apply, skip_ofFunction]
  | case2 start size element count rest inductionHypothesis =>
      rw [inductionHypothesis]
      simp [Source.start, Traced.silent, Traced.map, Action.apply, limit_ofFunction]
  | case3 => rfl

end Source

namespace Feed

/-- A source that is asked to apply a plan opens and applies all of it. -/
theorem run_source (origin : Source ε type.Carrier) (plan : List (Action ε type.Carrier)) :
    (Feed.source origin).run plan = origin.start.map (Action.applyAll plan) :=
  origin.absorb_start plan

/-- A feed makes the same calls when it is opened whatever the plan, and applies the plan to what
it gives without one. -/
theorem run_eq (feed : Feed ε type) (plan : List (Action ε type.Carrier)) :
    feed.run plan = (feed.run []).map (Action.applyAll plan) := by
  cases feed with
  | source origin =>
      rw [run_source, run_source]
      rfl
  | stage feed actions mapper => rfl

/-- The calls of asking the source of a feed for its elements. -/
def opening : {type : ElementType} → Feed ε type → List ε
  | _, .source origin => origin.start.calls
  | _, .stage feed _ _ => feed.opening

/-- Opening a feed asks its source for the elements, and makes no other call. -/
theorem calls_run (feed : Feed ε type) (plan : List (Action ε type.Carrier)) :
    (feed.run plan).calls = feed.opening := by
  induction feed with
  | source origin =>
      rw [run_source]
      rfl
  | stage feed actions mapper inductionHypothesis =>
      rw [run]
      exact inductionHypothesis (Plan.optimize actions)

end Feed

namespace View

/-- What a consumer of the view can pull. -/
def flow (view : View ε type) : Flow ε type.Carrier := view.start.value ()

/-- The flow of a view is its optimized plan over what its feed gives. -/
theorem flow_eq (view : View ε type) :
    view.flow = Action.applyAll (Plan.optimize view.actions) (view.feed.run []).value () := by
  rw [flow, start, Feed.run_eq]
  rfl

/-- The calls of opening a view are those of its feed. -/
theorem start_calls (view : View ε type) : view.start.calls = (view.feed.run []).calls := by
  rw [start, Feed.run_eq]
  rfl

/-- A map into another element type maps the flow of the view. -/
theorem start_mapTo (view : View ε type) {outer : ElementType}
    (mapper : type.Carrier → Traced ε outer.Carrier) :
    (view.mapTo mapper).start = ⟨view.start.calls, fun _ => view.flow.map mapper⟩ := rfl

theorem flow_mapTo (view : View ε type) {outer : ElementType}
    (mapper : type.Carrier → Traced ε outer.Carrier) :
    (view.mapTo mapper).flow = view.flow.map mapper := rfl

/-- Collecting opens the view and pulls its flow to the end. -/
theorem collect_eq (view : View ε type) :
    view.collect = ⟨view.start.calls ++ view.flow.trace, view.flow.items⟩ := by
  rw [collect, terminate, Traced.bind, Flow.collect_eq]
  rfl

theorem calls_collect (view : View ε type) :
    view.collect.calls = view.start.calls ++ view.flow.trace := by
  rw [collect_eq]

/-- The first element of a view is the first element of its flow. -/
theorem first_eq (view : View ε type) :
    view.first = ⟨view.start.calls ++ view.flow.callsWithin 1, view.flow.items.head?⟩ := by
  rw [first, terminate, Traced.bind, Flow.first_eq]
  rfl

theorem first_value (view : View ε type) : view.first.value = view.collect.value.head? := by
  rw [first_eq, collect_eq]

/-- A visitor sees the elements of the flow as they arrive. -/
theorem forEach_eq (view : View ε type) (visitor : type.Carrier → List ε) :
    view.forEach visitor =
      ⟨view.start.calls ++ (view.flow.peek visitor).trace, view.flow.items⟩ := by
  rw [forEach, terminate, Traced.bind, Flow.collect_eq, Flow.items_peek]
  rfl

end View

end Flowpress
