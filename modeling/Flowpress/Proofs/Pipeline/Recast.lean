import Flowpress.Proofs.Flow.Recast
import Flowpress.Proofs.Pipeline.Running

/-!
# Recasting the calls of a pipeline

Recasting the calls of every function of a view recasts the calls that collecting
it makes and changes nothing else: no plan looks at a call, and no adaptor does. So
a call can be labelled by the action that makes it, or left out, before the view
runs or after.
-/

namespace Flowpress

variable {ε δ ζ α : Type}

namespace Action

/-- The action with its calls recast. -/
def recast (change : ε → List δ) : Action ε α → Action δ α
  | .filter predicate => .filter fun value => (predicate value).recast change
  | .map operator => .map fun value => (operator value).recast change
  | .flatMap expander => .flatMap fun value => (expander value).recast change
  | .peek observer => .peek fun value => (observer value).flatMap change
  | .sorted order => .sorted order
  | .distinct => .distinct
  | .limit count => .limit count
  | .skip count => .skip count

@[simp] theorem kind_recast (change : ε → List δ) (action : Action ε α) :
    (action.recast change).kind = action.kind := by
  cases action <;> rfl

@[simp] theorem info_recast [Element α] (change : ε → List δ) (action : Action ε α) :
    (action.recast change).info = action.info := by
  simp [info]

theorem recast_recast (first : ε → List δ) (second : δ → List ζ) (action : Action ε α) :
    (action.recast first).recast second =
      action.recast fun event => (first event).flatMap second := by
  cases action <;> simp [recast, Traced.recast_recast, List.flatMap_assoc]

variable [Element α] [DecidableEq α]

/-- An action passes recast calls on and recasts its own. -/
theorem apply_recast (change : ε → List δ) (action : Action ε α) (flow : Unit → Flow ε α) :
    ((action.recast change).apply fun _ => (flow ()).recast change) =
      fun _ => (action.apply flow ()).recast change := by
  cases action with
  | filter predicate => simp [recast, apply, Flow.recast_filter]
  | map operator => simp [recast, apply, Flow.recast_map]
  | flatMap expander => simp [recast, apply, Flow.recast_flatMap]
  | peek observer => simp [recast, apply, Flow.recast_peek]
  | sorted order => simp [recast, apply, Flow.recast_sorted]
  | distinct => simp [recast, apply, Flow.recast_distinct]
  | limit count => simp [recast, apply, Flow.recast_limit]
  | skip count => simp [recast, apply, Flow.recast_skip]

theorem applyAll_recast (change : ε → List δ) (actions : List (Action ε α))
    (flow : Unit → Flow ε α) :
    (applyAll (actions.map (recast change)) fun _ => (flow ()).recast change) =
      fun _ => (applyAll actions flow ()).recast change := by
  induction actions generalizing flow with
  | nil => rfl
  | cons action actions inductionHypothesis =>
      rw [List.map_cons, applyAll_cons, apply_recast, applyAll_cons, inductionHypothesis]

end Action

/-! ## Plans -/

namespace Plan

variable {β : Type}

/-- A change of actions that no plan can tell: it keeps what two neighbours merge into, which
actions inspect and watch, which ones matter to a count, and what they make of a number of
elements. -/
structure Unseen (change : Action ε α → Action δ β) : Prop where
  merge (first second : Action ε α) :
    merge (change first) (change second) = (merge first second).map change
  inspects (action : Action ε α) : inspects (change action) = inspects action
  isPeek (action : Action ε α) : isPeek (change action) = isPeek action
  matters (watched : Bool) (action : Action ε α) :
    matters watched (change action) = matters watched action
  countAfter (length : Nat) (action : Action ε α) :
    countAfter length (change action) = countAfter length action

namespace Unseen

variable {change : Action ε α → Action δ β}

theorem push (unseen : Unseen change) (optimized : List (Action ε α)) (action : Action ε α) :
    push (optimized.map change) (change action) = (push optimized action).map change := by
  cases optimized with
  | nil => rfl
  | cons last others =>
      rw [List.map_cons, Plan.push, unseen.merge, Plan.push]
      cases Plan.merge last action <;> rfl

theorem foldl_push (unseen : Unseen change) (optimized actions : List (Action ε α)) :
    (actions.map change).foldl Plan.push (optimized.map change) =
      (actions.foldl Plan.push optimized).map change := by
  induction actions generalizing optimized with
  | nil => rfl
  | cons action actions inductionHypothesis =>
      rw [List.map_cons, List.foldl_cons, unseen.push, inductionHypothesis, List.foldl_cons]

theorem optimize (unseen : Unseen change) (actions : List (Action ε α)) :
    optimize (actions.map change) = (optimize actions).map change := by
  have folded := unseen.foldl_push [] actions
  rw [List.map_nil] at folded
  rw [Plan.optimize, folded, Plan.optimize, List.map_reverse]

theorem inspectedLength (unseen : Unseen change) (actions : List (Action ε α)) :
    inspectedLength (actions.map change) = inspectedLength actions := by
  induction actions with
  | nil => rfl
  | cons action actions inductionHypothesis =>
      simp [Plan.inspectedLength, inductionHypothesis, unseen.inspects]

theorem stripForCount (unseen : Unseen change) (actions : List (Action ε α))
    (watchedBefore : Bool) :
    stripForCount (actions.map change) watchedBefore =
      (stripForCount actions watchedBefore).map change := by
  simp [Plan.stripForCount, unseen.inspectedLength, unseen.isPeek, unseen.matters,
    ← List.map_take, ← List.map_drop, List.filter_map, Function.comp_def]

theorem knownCount (unseen : Unseen change) (length : Nat) (actions : List (Action ε α)) :
    knownCount length (actions.map change) = knownCount length actions := by
  simp [Plan.knownCount, List.foldlM_map, unseen.countAfter]

end Unseen

/-- No plan can tell that calls are recast. -/
theorem unseen_recast (change : ε → List δ) :
    Unseen (Action.recast change : Action ε α → Action δ α) where
  merge first second := by
    have silenced (value : Bool) :
        (Traced.silent value : Traced ε Bool).recast change = .silent value := rfl
    cases first <;> cases second <;>
      simp [merge, Action.recast, Traced.recast_bind, apply_ite (Traced.recast change), silenced]
  inspects action := by cases action <;> rfl
  isPeek action := by cases action <;> rfl
  matters watched action := by cases action <;> rfl
  countAfter length action := by cases action <;> rfl

end Plan

/-! ## Sources, feeds and views -/

namespace Source

/-- The source with its calls recast. -/
def recast (change : ε → List δ) : Source ε α → Source δ α
  | .items values => .items values
  | .indexed start size element => .indexed start size element
  | .generated calls elements =>
    .generated (calls.flatMap change) fun _ => (elements ()).recast change

theorem recast_recast (first : ε → List δ) (second : δ → List ζ) (source : Source ε α) :
    (source.recast first).recast second =
      source.recast fun event => (first event).flatMap second := by
  cases source <;> simp [recast, List.flatMap_assoc, Flow.recast_recast]

theorem start_recast (change : ε → List δ) (source : Source ε α) :
    (source.recast change).start =
      ⟨source.start.calls.flatMap change, fun _ => (source.start.value ()).recast change⟩ := by
  cases source <;> simp [recast, start, Traced.silent, Flow.ofFunction_eq_ofList]

end Source

namespace Feed

variable {type : ElementType}

/-- The feed with its calls recast. -/
def recast (change : ε → List δ) : {type : ElementType} → Feed ε type → Feed δ type
  | _, .source origin => .source (origin.recast change)
  | _, .stage feed actions mapper =>
    .stage (feed.recast change) (actions.map (Action.recast change)) fun value =>
      (mapper value).recast change

/-- Recasting twice is recasting once. -/
theorem recast_recast (first : ε → List δ) (second : δ → List ζ) (feed : Feed ε type) :
    (feed.recast first).recast second =
      feed.recast fun event => (first event).flatMap second := by
  induction feed with
  | source origin => simp [recast, Source.recast_recast]
  | stage feed actions mapper inductionHypothesis =>
      simp [recast, inductionHypothesis, Action.recast_recast, Traced.recast_recast,
        Function.comp_def]

/-- A recast feed makes recast calls when it is opened, and gives a recast flow. -/
theorem run_recast (change : ε → List δ) (feed : Feed ε type)
    (plan : List (Action ε type.Carrier)) :
    (feed.recast change).run (plan.map (Action.recast change)) =
      ⟨(feed.run plan).calls.flatMap change,
        fun _ => ((feed.run plan).value ()).recast change⟩ := by
  induction feed with
  | source origin =>
      rw [recast, run_source, run_source, Source.start_recast, Traced.map,
        Action.applyAll_recast]
      rfl
  | stage feed actions mapper inductionHypothesis =>
      have inner := inductionHypothesis (Plan.optimize actions)
      rw [← (Plan.unseen_recast change).optimize] at inner
      have outer := Action.applyAll_recast change plan
        fun _ => ((feed.run (Plan.optimize actions)).value ()).map mapper
      simp only [recast, run, inner, Traced.map, ← Flow.recast_map, outer]

end Feed

namespace View

variable {type : ElementType}

/-- The view with its calls recast. -/
def recast (change : ε → List δ) (view : View ε type) : View δ type :=
  ⟨view.feed.recast change, view.actions.map (Action.recast change)⟩

theorem recast_recast (first : ε → List δ) (second : δ → List ζ) (view : View ε type) :
    (view.recast first).recast second =
      view.recast fun event => (first event).flatMap second := by
  simp [recast, Feed.recast_recast, Action.recast_recast, Function.comp_def]

theorem recast_append (change : ε → List δ) (view : View ε type)
    (action : Action ε type.Carrier) :
    (view.append action).recast change = (view.recast change).append (action.recast change) := by
  simp [recast, append]

theorem start_recast (change : ε → List δ) (view : View ε type) :
    (view.recast change).start =
      ⟨view.start.calls.flatMap change, fun _ => view.flow.recast change⟩ := by
  rw [start, recast, (Plan.unseen_recast change).optimize, Feed.run_recast]
  rfl

theorem flow_recast (change : ε → List δ) (view : View ε type) :
    (view.recast change).flow = view.flow.recast change := by
  rw [flow, start_recast]

/-- Recasting the calls of a view recasts the calls of collecting it. -/
theorem collect_recast (change : ε → List δ) (view : View ε type) :
    (view.recast change).collect = view.collect.recast change := by
  rw [collect_eq, collect_eq, flow_recast, start_recast]
  simp [Traced.recast]

end View

end Flowpress
