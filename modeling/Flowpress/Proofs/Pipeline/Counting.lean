import Flowpress.Proofs.Pipeline.Optimize

/-!
# Counting without collecting

The plan that `View.count` runs leaves maps and sorts behind the last inspection
out. None of them changes how many elements there are, so the count is the length
of the list that collecting gives. Over a list, with nothing in the plan that
inspects an element, the number is known without running anything.
-/

namespace Flowpress

variable {ε δ α β : Type} {type : ElementType}

namespace Plan

/-! ## Kinds -/

theorem Merges.ne_nil {group : List (Action ε α)} {merged : Action ε α}
    (merges : Merges group merged) : group ≠ [] := by
  cases merges <;> simp

/-- The kinds of an optimized plan are those of the plan. -/
theorem mem_kinds_optimize (kind : ActionKind) (actions : List (Action ε α)) :
    kind ∈ (optimize actions).map Action.kind ↔ kind ∈ actions.map Action.kind := by
  obtain ⟨groups, split, optimized, merges⟩ := optimize_groups actions
  rw [optimized, split]
  simp only [List.mem_map, List.mem_flatMap]
  constructor
  · rintro ⟨_, ⟨⟨group, merged⟩, found, rfl⟩, rfl⟩
    obtain ⟨action, member⟩ := List.exists_mem_of_ne_nil _ (merges _ found).ne_nil
    exact ⟨action, ⟨_, found, member⟩, (merges _ found).kind_eq action member⟩
  · rintro ⟨action, ⟨⟨group, merged⟩, found, member⟩, rfl⟩
    exact ⟨merged, ⟨_, found, rfl⟩, ((merges _ found).kind_eq action member).symm⟩

/-- What the kinds of a plan have in common the kinds of the optimized plan have in common. -/
theorem forall_kind_optimize {property : ActionKind → Prop} {actions : List (Action ε α)}
    (common : ∀ action ∈ actions, property action.kind) :
    ∀ action ∈ optimize actions, property action.kind := by
  intro action member
  obtain ⟨original, found, same⟩ := List.mem_map.mp
    ((mem_kinds_optimize action.kind actions).mp (List.mem_map_of_mem member))
  exact same ▸ common original found

/-- Whether an action inspects its elements is a matter of its kind. -/
theorem inspects_iff (action : Action ε α) :
    inspects action = true ↔ action.kind ∈ [.filter, .flatMap, .peek, .distinct] := by
  cases action <;> simp [inspects, Action.kind]

theorem isPeek_iff (action : Action ε α) : isPeek action = true ↔ action.kind = .peek := by
  cases action <;> simp [isPeek, Action.kind]

/-! ## The last inspection -/

/-- No action from some index on inspects its elements if and only if all that do lie in front. -/
theorem inspectedLength_le_iff (actions : List (Action ε α)) (index : Nat) :
    inspectedLength actions ≤ index ↔
      ∀ action ∈ actions.drop index, inspects action = false := by
  induction actions generalizing index with
  | nil => simp [inspectedLength]
  | cons action actions inductionHypothesis =>
      cases index with
      | zero =>
          have behind := inductionHypothesis 0
          simp only [List.drop_zero, Nat.le_zero] at behind
          rw [List.drop_zero, List.forall_mem_cons, ← behind, inspectedLength]
          cases inspectedLength actions <;> cases inspects action <;> simp
      | succ index =>
          rw [List.drop_succ_cons, ← inductionHypothesis, inspectedLength]
          cases inspectedLength actions <;> cases inspects action <;> simp

/-- The actions behind the last inspection do not inspect. -/
theorem not_inspects_of_mem_drop {actions : List (Action ε α)} {action : Action ε α}
    (member : action ∈ actions.drop (inspectedLength actions)) : inspects action = false :=
  (inspectedLength_le_iff actions _).mp Nat.le.refl action member

/-- A plan without inspections loses all that does not matter to a count. -/
theorem stripForCount_eq_filter {actions : List (Action ε α)}
    (free : ∀ action ∈ actions, inspects action = false) (watchedBefore : Bool) :
    stripForCount actions watchedBefore = actions.filter (matters watchedBefore) := by
  have nothing : inspectedLength actions = 0 :=
    Nat.le_zero.mp ((inspectedLength_le_iff actions 0).mpr (by simpa using free))
  simp [stripForCount, nothing]

/-! ## How many elements there are -/

/-- How many elements an action that does not inspect them leaves. -/
def lengthBehind (length : Nat) : Action ε α → Nat
  | .limit count => min length count
  | .skip count => length - count
  | _ => length

theorem lengthBehind_of_not_matters {watched : Bool} {action : Action ε α}
    (free : matters watched action = false) (length : Nat) :
    lengthBehind length action = length := by
  cases action <;> simp_all [matters, lengthBehind]

/-- Dropping what does not matter to a count does not change it. -/
theorem foldl_lengthBehind_filter (watched : Bool) (actions : List (Action ε α)) (length : Nat) :
    (actions.filter (matters watched)).foldl lengthBehind length =
      actions.foldl lengthBehind length := by
  induction actions generalizing length with
  | nil => rfl
  | cons action actions inductionHypothesis =>
      rw [List.filter_cons, List.foldl_cons]
      cases decided : matters watched action with
      | true => exact inductionHypothesis _
      | false =>
          rw [lengthBehind_of_not_matters decided]
          exact inductionHypothesis _

theorem countAfter_eq_some {length total : Nat} {action : Action ε α}
    (known : countAfter length action = some total) :
    inspects action = false ∧ lengthBehind length action = total := by
  cases action <;> simp_all [countAfter, inspects, lengthBehind]

/-- A number of elements that is known is the one the actions leave. -/
theorem knownCount_eq_some {length total : Nat} {actions : List (Action ε α)}
    (known : knownCount length actions = some total) :
    (∀ action ∈ actions, inspects action = false) ∧
      actions.foldl lengthBehind length = total := by
  induction actions generalizing length with
  | nil => simpa [knownCount] using known
  | cons action actions inductionHypothesis =>
      obtain ⟨behind, first, rest⟩ := Option.bind_eq_some_iff.mp known
      obtain ⟨free, rfl⟩ := countAfter_eq_some first
      obtain ⟨freeRest, total⟩ := inductionHypothesis rest
      exact ⟨List.forall_mem_cons.mpr ⟨free, freeRest⟩, total⟩

/-- Limits and skips alone tell how many elements there are. -/
theorem knownCount_isSome {actions : List (Action ε α)}
    (plain : ∀ action ∈ actions, action.kind ∈ [.limit, .skip]) (length : Nat) :
    ∃ total, knownCount length actions = some total := by
  induction actions generalizing length with
  | nil => exact ⟨length, rfl⟩
  | cons action actions inductionHypothesis =>
      obtain ⟨first, rest⟩ := List.forall_mem_cons.mp plain
      have step : ∃ behind, countAfter length action = some behind := by
        cases action <;> simp_all [Action.kind, countAfter]
      obtain ⟨behind, step⟩ := step
      obtain ⟨total, known⟩ := inductionHypothesis rest behind
      exact ⟨total, Option.bind_eq_some_iff.mpr ⟨behind, step, known⟩⟩

variable [Element α] [DecidableEq α]

/-- The number of elements behind an action that does not inspect them follows from the number in
front of it. -/
theorem length_apply {action : Action ε α} (free : inspects action = false)
    (flow : Unit → Flow ε α) :
    (action.apply flow ()).items.length = lengthBehind (flow ()).items.length action := by
  cases action with
  | map operator => simp [Action.apply, lengthBehind, Flow.items_map]
  | sorted order => simp [Action.apply, lengthBehind, Flow.items_sorted, Flow.sortList]
  | limit count => simp [Action.apply, lengthBehind, Flow.items_limit, Nat.min_comm]
  | skip count => simp [Action.apply, lengthBehind, Flow.items_skip]
  | _ => cases free

theorem length_applyAll {actions : List (Action ε α)}
    (free : ∀ action ∈ actions, inspects action = false) (flow : Unit → Flow ε α) :
    (Action.applyAll actions flow ()).items.length =
      actions.foldl lengthBehind (flow ()).items.length := by
  induction actions generalizing flow with
  | nil => rfl
  | cons action actions inductionHypothesis =>
      obtain ⟨first, rest⟩ := List.forall_mem_cons.mp free
      rw [Action.applyAll_cons, inductionHypothesis rest, length_apply first, List.foldl_cons]

/-- Skips and limits, which alone tell how many elements there are, make no calls. -/
theorem trace_applyAll_of_known {length total : Nat} {actions : List (Action ε α)}
    (known : knownCount length actions = some total) {flow : Unit → Flow ε α}
    (silent : (flow ()).trace = []) : (Action.applyAll actions flow ()).trace = [] := by
  induction actions generalizing length flow with
  | nil => exact silent
  | cons action actions inductionHypothesis =>
      obtain ⟨behind, first, rest⟩ := Option.bind_eq_some_iff.mp known
      refine inductionHypothesis rest ?_
      cases action with
      | limit count =>
          have early := (flow ()).callsWithin_isPrefix_trace count
          rw [silent] at early
          exact (Flow.trace_limit count flow).trans (List.prefix_nil.mp early)
      | skip count => exact (Flow.trace_skip count _).trans silent
      | _ => cases first

/-- Stripping a plan does not change how many elements it gives. -/
theorem length_stripForCount (actions : List (Action ε α)) (watchedBefore : Bool)
    (flow : Unit → Flow ε α) :
    (Action.applyAll (stripForCount actions watchedBefore) flow ()).items.length =
      (Action.applyAll actions flow ()).items.length := by
  have free : ∀ action ∈ actions.drop (inspectedLength actions), inspects action = false :=
    fun action => not_inspects_of_mem_drop
  have split : Action.applyAll actions flow =
      Action.applyAll (actions.drop (inspectedLength actions))
        (Action.applyAll (actions.take (inspectedLength actions)) flow) := by
    rw [← Action.applyAll_append, List.take_append_drop]
  rw [split, length_applyAll free, stripForCount, Action.applyAll_append, length_applyAll,
    foldl_lengthBehind_filter]
  exact fun action member => free action (List.mem_filter.mp member).1

end Plan

/-! ## Actions without their functions -/

/-- What is left of an action if nothing is known about its functions: the kind, and the count of a
limit or a skip. -/
def Action.outline : Action ε α → Action Empty Unit
  | .filter _ => .filter fun _ => .silent true
  | .map _ => .map fun _ => .silent ()
  | .flatMap _ => .flatMap fun _ => .silent []
  | .peek _ => .peek fun _ => []
  | .sorted _ => .sorted none
  | .distinct => .distinct
  | .limit count => .limit count
  | .skip count => .skip count

/-- No plan can tell what the functions of an action are. -/
theorem Plan.unseen_outline : Unseen (Action.outline : Action ε α → Action Empty Unit) where
  merge first second := by
    cases first <;> cases second <;> rfl
  inspects action := by cases action <;> rfl
  isPeek action := by cases action <;> rfl
  matters watched action := by cases action <;> rfl
  countAfter length action := by cases action <;> rfl

/-! ## Views -/

namespace Feed

/-- Only a list has a known length, and that is how many elements it gives. -/
theorem knownLength_eq_some {feed : Feed ε type} {length : Nat}
    (known : feed.knownLength = some length) :
    ∃ values : List type.Carrier, feed = .source (.items values) ∧ values.length = length ∧
      ((feed.run []).value ()).items.length = length := by
  cases feed with
  | source origin =>
      cases origin with
      | items values =>
          refine ⟨values, rfl, Option.some.inj known, ?_⟩
          rw [run_source]
          simpa [Source.start, Traced.silent] using Option.some.inj known
      | _ => cases known
  | stage feed actions mapper => cases known

end Feed

namespace View

/-- What counting the view pulls, if it pulls anything. -/
def countFlow (view : View ε type) : Flow ε type.Carrier :=
  Action.applyAll view.countPlan (view.feed.run []).value ()

/-- A count that is not known is found by pulling a flow to its end. -/
theorem count_of_unknown {view : View ε type}
    (unknown : (view.feed.knownLength.bind fun length =>
      Plan.knownCount length view.countPlan) = none) :
    view.count = ⟨view.start.calls ++ view.countFlow.trace, view.countFlow.items.length⟩ := by
  rw [count, unknown, Feed.run_eq, start_calls]
  simp [Traced.bind, Traced.map, Flow.count_eq, countFlow]

/-- A count that is known is found without a call. -/
theorem count_of_known {view : View ε type} {total : Nat}
    (known : (view.feed.knownLength.bind fun length =>
      Plan.knownCount length view.countPlan) = some total) :
    view.count = .silent total := by
  rw [count, known]

/-- A count that is known is the one that pulling would find. -/
theorem length_countFlow_of_known {view : View ε type} {total : Nat}
    (known : (view.feed.knownLength.bind fun length =>
      Plan.knownCount length view.countPlan) = some total) :
    view.countFlow.items.length = total := by
  obtain ⟨length, knownLength, knownCount⟩ := Option.bind_eq_some_iff.mp known
  obtain ⟨values, -, -, given⟩ := Feed.knownLength_eq_some knownLength
  obtain ⟨free, total⟩ := Plan.knownCount_eq_some knownCount
  rw [countFlow, Plan.length_applyAll free, given, total]

/-- A count that is known is found by pulling as well, and without a call. -/
theorem count_eq (view : View ε type) :
    view.count = ⟨view.start.calls ++ view.countFlow.trace, view.countFlow.items.length⟩ := by
  cases decided : view.feed.knownLength.bind fun length =>
      Plan.knownCount length view.countPlan with
  | none => exact count_of_unknown decided
  | some total =>
      obtain ⟨length, knownLength, knownCount⟩ := Option.bind_eq_some_iff.mp decided
      obtain ⟨values, origin, -, -⟩ := Feed.knownLength_eq_some knownLength
      have opened : view.feed.run [] = .silent fun _ => .ofList values := by
        rw [origin, Feed.run_source]
        rfl
      have silent : view.countFlow.trace = [] := by
        refine Plan.trace_applyAll_of_known knownCount ?_
        rw [opened]
        exact Flow.trace_ofList values
      rw [count_of_known decided, length_countFlow_of_known decided, silent, start_calls, opened]
      rfl

/-- The flow that is counted has as many elements as the one that is collected. -/
theorem length_countFlow (view : View ε type) :
    view.countFlow.items.length = view.flow.items.length := by
  rw [countFlow, countPlan, Plan.length_stripForCount, flow_eq]

theorem count_value (view : View ε type) : view.count.value = view.collect.value.length := by
  rw [count_eq, collect_eq, length_countFlow]

/-- A view over a list tells its count from the length of the list and from what its actions are
without their functions. -/
theorem known_of_items {view : View ε type} {values : List type.Carrier}
    (origin : view.feed = .source (.items values)) :
    (view.feed.knownLength.bind fun length => Plan.knownCount length view.countPlan) =
      Plan.knownCount values.length
        (Plan.stripForCount (Plan.optimize (view.actions.map Action.outline)) false) := by
  rw [Plan.unseen_outline.optimize, Plan.unseen_outline.stripForCount,
    Plan.unseen_outline.knownCount, countPlan, origin]
  rfl

/-- If no action of a view over a list inspects its elements, the count is known. -/
theorem exists_known_of_items {view : View ε type} {values : List type.Carrier}
    (origin : view.feed = .source (.items values))
    (plain : ∀ action ∈ view.actions, action.kind ∈ [.map, .sorted, .limit, .skip]) :
    ∃ total, (view.feed.knownLength.bind fun length =>
      Plan.knownCount length view.countPlan) = some total := by
  have optimized : ∀ action ∈ Plan.optimize view.actions,
      action.kind ∈ [.map, .sorted, .limit, .skip] :=
    Plan.forall_kind_optimize plain
  have free : ∀ action ∈ Plan.optimize view.actions, Plan.inspects action = false := by
    intro action member
    have kind := optimized action member
    cases action <;> simp_all [Action.kind, Plan.inspects]
  rw [origin]
  refine Plan.knownCount_isSome ?_ values.length
  rw [countPlan, Plan.stripForCount_eq_filter free, origin]
  intro action member
  obtain ⟨member, kept⟩ := List.mem_filter.mp member
  have kind := optimized action member
  cases action <;>
    simp_all [Action.kind, Plan.matters, Feed.hasSideEffects, Feed.steps]

/-- Counting a view gives the length of the list that collecting it gives. If the view is over a
list, and all its actions are maps, sorts, limits and skips, then the number is known before the
source is opened: any view over as many elements comes to it without a call, whatever the elements
are and whatever functions stand in its actions. -/
theorem count_eq_length (view : View ε type) :
    view.count.value = view.collect.value.length ∧
    ∀ values : List type.Carrier, view.feed = .source (.items values) →
      (∀ action ∈ view.actions, action.kind ∈ [.map, .sorted, .limit, .skip]) →
      ∃ total,
        (view.feed.knownLength.bind fun length => Plan.knownCount length view.countPlan) =
          some total ∧
        ∀ (δ : Type) (other : ElementType) (otherView : View δ other)
          (others : List other.Carrier), otherView.feed = .source (.items others) →
          others.length = values.length →
          otherView.actions.map Action.outline = view.actions.map Action.outline →
          otherView.count = .silent total := by
  refine ⟨count_value view, fun values origin plain => ?_⟩
  obtain ⟨total, known⟩ := exists_known_of_items origin plain
  refine ⟨total, known, ?_⟩
  intro δ other otherView others otherOrigin sameLength sameOutline
  apply count_of_known
  rw [known_of_items otherOrigin, sameLength, sameOutline, ← known_of_items origin, known]

/-- A list that is mapped, sorted and cut at both ends. -/
def middleOfList : View String .int :=
  ⟨.source (.items [4, 1, 3, 2]),
    [.map fun value => ⟨["double"], value * 2⟩, .sorted none, .skip 1, .limit 2]⟩

theorem middleOfList_counted :
    middleOfList.count = .silent 2 ∧ middleOfList.collect.value.length = 2 := by
  obtain ⟨agrees, known⟩ := count_eq_length middleOfList
  obtain ⟨total, found, silent⟩ := known [4, 1, 3, 2] rfl (by decide)
  have two : total = 2 := Option.some.inj (found.symm.trans rfl)
  have counted : middleOfList.count = .silent 2 :=
    two ▸ silent String .int middleOfList [4, 1, 3, 2] rfl rfl rfl
  exact ⟨counted, by rw [← agrees, counted, Traced.silent]⟩

end View

end Flowpress
