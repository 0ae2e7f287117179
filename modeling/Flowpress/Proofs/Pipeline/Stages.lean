import Flowpress.Proofs.Flow.Sorting
import Flowpress.Proofs.Pipeline.Appending

/-!
# Stage by stage

What a view holds can be said without plans, flows and pulls: `View.stages`
applies every step of the view to a whole list, one after another. Running the
view gives that list, as long as every order that is given for a sort is a total
preorder and no list on the way has more elements than a count can hold.
-/

namespace Flowpress

variable {ε α : Type} {type origin : ElementType}

/-! ## Steps on whole lists -/

namespace Action

variable [Element α] [DecidableEq α]

/-- The list behind an action over a whole list. -/
def stage (values : List α) : Action ε α → List α
  | .filter predicate => values.filter fun value => (predicate value).value
  | .map operator => values.map fun value => (operator value).value
  | .flatMap expander => values.flatMap fun value => (expander value).value
  | .peek _ => values
  | .sorted order => stableSort (order.getD Element.order) values
  | .distinct => values.eraseDups
  | .limit count => values.take count
  | .skip count => values.drop count

/-- The list behind all actions, one complete stage after another. -/
def stages (actions : List (Action ε α)) (values : List α) : List α := actions.foldl stage values

omit [Element α] [DecidableEq α] in
/-- Every order that is given for a sort is a total preorder. -/
def Preordered (actions : List (Action ε α)) : Prop :=
  ∀ order, .sorted (some order) ∈ actions → Std.TransCmp order

/-- No list that reaches one of the actions has more elements than a count can hold. -/
def Short : List (Action ε α) → List α → Prop
  | [], _ => True
  | action :: actions, values =>
    values.length ≤ Plan.maximalCount ∧ Short actions (action.stage values)

theorem short_append (first second : List (Action ε α)) (values : List α) :
    Short (first ++ second) values ↔ Short first values ∧ Short second (stages first values) := by
  induction first generalizing values with
  | nil => simp [Short, stages]
  | cons action first inductionHypothesis =>
      rw [List.cons_append, Short, inductionHypothesis, Short, and_assoc]
      rfl

end Action

/-- All elements of a source. -/
def Source.elements : Source ε α → List α
  | .items values => values
  | .indexed start size element => (List.range' start size).map element
  | .generated _ elements => (elements ()).items

namespace Feed

/-- The list behind all steps of a feed. -/
def stages : {type : ElementType} → Feed ε type → List type.Carrier
  | _, .source origin => origin.elements
  | _, .stage feed actions mapper =>
    (Action.stages actions feed.stages).map fun value => (mapper value).value

/-- Every order that is given for a sort of the feed is a total preorder. -/
def Preordered : {type : ElementType} → Feed ε type → Prop
  | _, .source _ => True
  | _, .stage feed actions _ => feed.Preordered ∧ Action.Preordered actions

/-- No list that reaches an action of the feed has more elements than a count can hold. -/
def Short : {type : ElementType} → Feed ε type → Prop
  | _, .source _ => True
  | _, .stage feed actions _ => feed.Short ∧ Action.Short actions feed.stages

end Feed

namespace View

/-- The list behind all steps of a view: every step takes the whole list that the step in front of
it gives, the first one the elements of the source. -/
def stages (view : View ε type) : List type.Carrier := Action.stages view.actions view.feed.stages

/-- Every order that is given for a sort of the view is a total preorder. -/
def Preordered (view : View ε type) : Prop :=
  view.feed.Preordered ∧ Action.Preordered view.actions

/-- No list that reaches an action of the view has more elements than a count can hold. -/
def Short (view : View ε type) : Prop :=
  view.feed.Short ∧ Action.Short view.actions view.feed.stages

end View

/-! ## Flows hold what the stages say -/

namespace Action

variable [Element α] [DecidableEq α] [Std.TransCmp (Element.order : α → α → Ordering)]

omit [DecidableEq α] in
/-- The order that a sort uses is a total preorder. -/
theorem Preordered.transCmp {actions : List (Action ε α)} (lawful : Preordered actions)
    {order : Option (α → α → Ordering)} (member : .sorted order ∈ actions) :
    Std.TransCmp (order.getD Element.order) := by
  cases order with
  | none => assumption
  | some order => exact lawful order member

/-- An action gives a flow of the elements that its stage gives. -/
theorem items_apply {action : Action ε α} (lawful : Preordered [action])
    (flow : Unit → Flow ε α) :
    (action.apply flow ()).items = action.stage (flow ()).items := by
  cases action with
  | filter predicate => exact Flow.items_filter predicate _
  | map operator => exact Flow.items_map operator _
  | flatMap expander => exact Flow.items_flatMap expander _
  | peek observer => exact Flow.items_peek observer _
  | sorted order =>
      have trans := lawful.transCmp List.mem_cons_self
      exact (Flow.items_sorted _ _).trans (sortList_eq_stableSort _)
  | distinct => exact Flow.items_distinct _
  | limit count => exact Flow.items_limit count flow
  | skip count => exact Flow.items_skip count _

/-- Actions give a flow of the elements that their stages give. -/
theorem items_applyAll {actions : List (Action ε α)} (lawful : Preordered actions)
    (flow : Unit → Flow ε α) :
    (applyAll actions flow ()).items = stages actions (flow ()).items := by
  induction actions generalizing flow with
  | nil => rfl
  | cons action actions inductionHypothesis =>
      have head : Preordered [action] := fun order member =>
        lawful order (List.mem_singleton.mp member ▸ List.mem_cons_self)
      have tail : Preordered actions := fun order member =>
        lawful order (List.mem_cons_of_mem _ member)
      rw [applyAll_cons, inductionHypothesis tail, items_apply head]
      rfl

/-- Short stages leave no sum of skips to be cut off. -/
theorem skipsFit_of_short {actions : List (Action ε α)} {flow : Unit → Flow ε α}
    (lawful : Preordered actions) (short : Short actions (flow ()).items) :
    Plan.SkipsFit actions flow := by
  intro before run after split _ _
  cases run with
  | nil => exact .inl (Nat.zero_le _)
  | cons first run =>
      have lawfulBefore : Preordered before := fun order member =>
        lawful order (by simp [split, member])
      rw [split, List.append_assoc, short_append] at short
      rw [items_applyAll lawfulBefore]
      exact .inr short.2.1

/-- An optimized plan gives a flow of the elements that the stages of the plan give. -/
theorem items_applyAll_optimize {actions : List (Action ε α)} {flow : Unit → Flow ε α}
    (lawful : Preordered actions) (short : Short actions (flow ()).items) :
    (applyAll (Plan.optimize actions) flow ()).items = stages actions (flow ()).items := by
  rw [Plan.applyAll_optimize (skipsFit_of_short lawful short), items_applyAll lawful]

end Action

/-- Opening a source gives a flow of its elements. -/
theorem Source.items_start (source : Source ε α) :
    (source.start.value ()).items = source.elements := by
  cases source <;>
    simp [start, elements, Traced.silent, Flow.ofFunction_eq_ofList]

/-- Opening a feed gives a flow of the elements that its stages give. -/
theorem Feed.items_run {feed : Feed ε type} (lawful : feed.Preordered) (short : feed.Short) :
    ((feed.run []).value ()).items = feed.stages := by
  induction feed with
  | source origin =>
      rw [run_source]
      exact origin.items_start
  | stage feed actions mapper inductionHypothesis =>
      have inner := inductionHypothesis lawful.1 short.1
      have items : ((feed.run (Plan.optimize actions)).value ()).items =
          Action.stages actions feed.stages := by
        rw [run_eq, Traced.value_map,
          Action.items_applyAll_optimize lawful.2 (inner ▸ short.2), inner]
      simp only [run, Traced.value_map, Action.applyAll_nil, Flow.items_map, items, stages]

namespace View

/-- The flow of a view holds the elements that its stages give. -/
theorem items_flow {view : View ε type} (lawful : view.Preordered) (short : view.Short) :
    view.flow.items = view.stages := by
  have inner := Feed.items_run lawful.1 short.1
  rw [flow_eq, Action.items_applyAll_optimize lawful.2 (inner ▸ short.2), inner, stages]

end View

/-! ## Continuing a view -/

/-- What is done to a view after it is made: actions are appended, and the element type is
changed. -/
inductive Derivation (ε : Type) : ElementType → ElementType → Type where
  | here {type : ElementType} : Derivation ε type type
  | append {origin type : ElementType} (prior : Derivation ε origin type)
      (action : Action ε type.Carrier) : Derivation ε origin type
  | mapTo {origin type outer : ElementType} (prior : Derivation ε origin type)
      (mapper : type.Carrier → Traced ε outer.Carrier) : Derivation ε origin outer

/-- The view that a derivation leads to. -/
def View.derive (view : View ε origin) : {type : ElementType} → Derivation ε origin type →
    View ε type
  | _, .here => view
  | _, .append prior action => (view.derive prior).append action
  | _, .mapTo prior mapper => (view.derive prior).mapTo mapper

namespace Derivation

/-- The list behind all steps of a derivation over a whole list. -/
def stages (values : List origin.Carrier) : {type : ElementType} → Derivation ε origin type →
    List type.Carrier
  | _, .here => values
  | _, .append prior action => action.stage (prior.stages values)
  | _, .mapTo prior mapper => (prior.stages values).map fun value => (mapper value).value

/-- Every order that is given for a sort of the derivation is a total preorder. -/
def Preordered : {type : ElementType} → Derivation ε origin type → Prop
  | _, .here => True
  | _, .append prior action => prior.Preordered ∧ Action.Preordered [action]
  | _, .mapTo prior _ => prior.Preordered

/-- No list that reaches an action of the derivation has more elements than a count can hold. -/
def Short (values : List origin.Carrier) : {type : ElementType} → Derivation ε origin type → Prop
  | _, .here => True
  | _, .append prior _ =>
    prior.Short values ∧ (prior.stages values).length ≤ Plan.maximalCount
  | _, .mapTo prior _ => prior.Short values

/-- The view that the derivation leads to from a list. -/
def fromList (rest : Derivation ε origin type) (values : List origin.Carrier) : View ε type :=
  (View.ofSource (.items values)).derive rest

/-- Continuing a view does not change how it is opened. -/
theorem start_calls_derive (view : View ε origin) (rest : Derivation ε origin type) :
    (view.derive rest).start.calls = view.start.calls := by
  induction rest with
  | here => rfl
  | append prior action inductionHypothesis =>
      rw [View.derive, View.start_calls_append, inductionHypothesis]
  | mapTo prior mapper inductionHypothesis =>
      rw [View.derive, View.start_mapTo, inductionHypothesis]

theorem start_calls_fromList (rest : Derivation ε origin type) (values : List origin.Carrier) :
    (rest.fromList values).start.calls = [] :=
  start_calls_derive _ rest

/-- Continuing a view continues its stages. -/
theorem stages_derive (view : View ε origin) (rest : Derivation ε origin type) :
    (view.derive rest).stages = rest.stages view.stages := by
  induction rest with
  | here => rfl
  | append prior action inductionHypothesis =>
      rw [View.derive, stages, ← inductionHypothesis]
      simp [View.append, View.stages, Action.stages]
  | mapTo prior mapper inductionHypothesis =>
      rw [View.derive, stages, ← inductionHypothesis]
      rfl

theorem preordered_derive (view : View ε origin) (rest : Derivation ε origin type) :
    (view.derive rest).Preordered ↔ view.Preordered ∧ rest.Preordered := by
  induction rest with
  | here => simp [View.derive, Preordered]
  | append prior action inductionHypothesis =>
      have actions : (view.derive (prior.append action)).Preordered ↔
          (view.derive prior).Preordered ∧ Action.Preordered [action] := by
        simp only [View.derive, View.append, View.Preordered, Action.Preordered,
          List.mem_append, or_imp, forall_and, and_assoc]
      rw [actions, inductionHypothesis, Preordered, and_assoc]
  | mapTo prior mapper inductionHypothesis =>
      have actions : (view.derive (prior.mapTo mapper)).Preordered ↔
          (view.derive prior).Preordered := by
        simp [View.derive, View.mapTo, View.Preordered, Feed.Preordered, Action.Preordered]
      rw [actions, inductionHypothesis, Preordered]

theorem short_derive (view : View ε origin) (rest : Derivation ε origin type) :
    (view.derive rest).Short ↔ view.Short ∧ rest.Short view.stages := by
  induction rest with
  | here => simp [View.derive, Short]
  | append prior action inductionHypothesis =>
      have actions : (view.derive (prior.append action)).Short ↔ (view.derive prior).Short ∧
          (view.derive prior).stages.length ≤ Plan.maximalCount := by
        simp only [View.derive, View.append, View.Short, Action.short_append, Action.Short,
          and_true, and_assoc, View.stages]
      rw [actions, inductionHypothesis, Short, stages_derive, and_assoc]
  | mapTo prior mapper inductionHypothesis =>
      have actions : (view.derive (prior.mapTo mapper)).Short ↔ (view.derive prior).Short := by
        simp [View.derive, View.mapTo, View.Short, Feed.Short, Action.Short]
      rw [actions, inductionHypothesis, Short]

end Derivation

/-! ## Terminal operations -/

/-- A visitor with marks of its own is shown the elements of a flow in their order. -/
theorem Flow.visits_peek (flow : Flow ε α) :
    ((flow.recast fun event => [Sum.inl event]).peek fun value => [Sum.inr value]).trace.filterMap
      Sum.getRight? = flow.items := by
  induction flow with
  | done => rfl
  | call event rest inductionHypothesis =>
      simpa [recast, afterCalls, peek, map, trace, items, List.filterMap_cons] using
        inductionHypothesis ()
  | yield value rest inductionHypothesis =>
      simpa [recast, afterCalls, peek, map, precede, trace, items, List.filterMap_cons] using
        inductionHypothesis ()

namespace View

theorem collect_value {view : View ε type} (lawful : view.Preordered) (short : view.Short) :
    view.collect.value = view.stages := by
  rw [collect_eq, items_flow lawful short]

/-- Collecting a view half way and going on from the list gives what the whole view gives. -/
theorem collect_cut {front : View ε origin} {rest : Derivation ε origin type}
    (lawful : (front.derive rest).Preordered) (short : (front.derive rest).Short) :
    ((View.ofSource (.items front.collect.value)).derive rest : View ε type).collect.value =
      (front.derive rest).collect.value := by
  obtain ⟨lawfulFront, lawfulRest⟩ := (Derivation.preordered_derive front rest).mp lawful
  obtain ⟨shortFront, shortRest⟩ := (Derivation.short_derive front rest).mp short
  rw [collect_value lawful short, collect_value lawfulFront shortFront]
  have half : (View.ofSource (.items front.stages) : View ε origin).stages = front.stages := rfl
  have lawfulHalf : (View.ofSource (.items front.stages) : View ε origin).Preordered :=
    ⟨trivial, fun order member => absurd member List.not_mem_nil⟩
  have shortHalf : (View.ofSource (.items front.stages) : View ε origin).Short :=
    ⟨trivial, trivial⟩
  rw [collect_value ((Derivation.preordered_derive _ rest).mpr ⟨lawfulHalf, lawfulRest⟩)
      ((Derivation.short_derive _ rest).mpr ⟨shortHalf, half ▸ shortRest⟩),
    Derivation.stages_derive, Derivation.stages_derive, half]

/-- The calls of a visitor, told apart from all others, are one for each element in turn. -/
theorem visits_forEach (view : View ε type) :
    ((view.recast fun event => [Sum.inl event]).forEach
      fun value => [Sum.inr value]).calls.filterMap Sum.getRight? = view.flow.items := by
  have others (calls : List ε) :
      (calls.flatMap fun event => [(Sum.inl event : ε ⊕ type.Carrier)]).filterMap
        Sum.getRight? = [] := by
    simp [List.filterMap_flatMap]
  rw [forEach_eq, flow, start_recast, List.filterMap_append, others, List.nil_append]
  exact Flow.visits_peek view.flow

/-- Running a view lazily, with optimized plans, gives what its stages give on whole lists.
Collecting gives their list, visiting shows it element by element, and the first element is the
head of it. The list may as well be collected at any point of the way and continued from there. -/
theorem collect_eq_stages (view : View ε type) (lawful : view.Preordered) (short : view.Short) :
    view.collect.value = view.stages ∧
    (∀ visitor, (view.forEach visitor).value = view.stages) ∧
    ((view.recast fun event => [Sum.inl event]).forEach
      fun value => [Sum.inr value]).calls.filterMap Sum.getRight? = view.stages ∧
    view.first.value = view.stages.head? ∧
    ∀ (origin : ElementType) (front : View ε origin) (rest : Derivation ε origin type),
      view = front.derive rest →
        ((View.ofSource (.items front.collect.value)).derive rest : View ε type).collect.value =
          view.collect.value := by
  refine ⟨collect_value lawful short, fun visitor => ?_, ?_, ?_, ?_⟩
  · rw [forEach_eq, items_flow lawful short]
  · rw [visits_forEach, items_flow lawful short]
  · rw [first_eq, items_flow lawful short]
  · rintro origin front rest rfl
    exact collect_cut lawful short

/-- The order of the magnitudes. -/
def byMagnitude (first second : Int32) : Ordering :=
  compare (first.toInt.natAbs : Int) second.toInt.natAbs

/-- Integers in the order of their magnitudes, widened; each value is kept once. -/
def widenedByMagnitude : View String .long :=
  let source : Source String Int32 := .items [5, -3, 3, 5, 8]
  let ordered : View String .int := (ofSource source).append (.sorted (some byMagnitude))
  let widened : View String .long :=
    ordered.mapTo fun value => ⟨["widen"], ElementType.convert .int .long value⟩
  (widened.append .distinct).append (.limit 3)

theorem widenedByMagnitude_preordered : widenedByMagnitude.Preordered := by
  refine ⟨⟨trivial, fun order member => ?_⟩, fun order member => ?_⟩
  · have given : order = byMagnitude := Option.some.inj
      (Action.sorted.inj (List.mem_singleton.mp member))
    exact given ▸ transCmp_compare_key fun value : Int32 => (value.toInt.natAbs : Int)
  · rcases List.mem_cons.mp member with distinct | member
    · cases distinct
    · cases List.mem_singleton.mp member

theorem widenedByMagnitude_short : widenedByMagnitude.Short :=
  ⟨⟨trivial, by decide, trivial⟩, by decide, by decide, trivial⟩

theorem widenedByMagnitude_collected :
    widenedByMagnitude.Preordered ∧ widenedByMagnitude.Short ∧
      widenedByMagnitude.collect.value = ([-3, 3, 5] : List Int64) :=
  ⟨widenedByMagnitude_preordered, widenedByMagnitude_short,
    (collect_eq_stages widenedByMagnitude widenedByMagnitude_preordered
      widenedByMagnitude_short).1.trans (by decide)⟩

end View

end Flowpress
