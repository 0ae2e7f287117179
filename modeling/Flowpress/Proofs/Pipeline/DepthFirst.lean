import Flowpress.Proofs.Pipeline.Demand
import Flowpress.Proofs.Pipeline.Stages

/-!
# Depth first

A filter, a map, an expansion and a peek keep nothing between two elements. A view
that does nothing else follows every element of its source down to the consumer, with
all that comes of it, before it asks for the next one. So its result and its calls over
a list are put together of those over the parts of the list.

`Action.follow` says what one element causes from an action on downwards, if what the
elements behind the action cause is known. An expansion follows each of its elements to
the end before the next: breadth first, the values would be the same.
-/

namespace Flowpress

variable {ε α β γ : Type} {origin type : ElementType}

namespace Traced

/-- One list behind the other, with the calls of both. -/
def append (first second : Traced ε (List α)) : Traced ε (List α) :=
  ⟨first.calls ++ second.calls, first.value ++ second.value⟩

/-- The element itself, without a call. -/
def single (value : α) : Traced ε (List α) := .silent [value]

/-- What the elements of a list cause, one after another. -/
def followAll (next : α → Traced ε (List β)) (values : List α) : Traced ε (List β) :=
  ⟨values.flatMap fun value => (next value).calls, values.flatMap fun value => (next value).value⟩

theorem followAll_append (next : α → Traced ε (List β)) (first second : List α) :
    followAll next (first ++ second) = (followAll next first).append (followAll next second) := by
  simp [followAll, append]

theorem followAll_cons (next : α → Traced ε (List β)) (value : α) (values : List α) :
    followAll next (value :: values) = (next value).append (followAll next values) := by
  simp [followAll, append]

end Traced

namespace Flow

/-- What a flow causes that is pulled to its end, if every element is followed by what `next` says
it causes. -/
def follow (next : α → Traced ε (List β)) : Flow ε α → Traced ε (List β)
  | .done => .silent []
  | .call event rest => .append ⟨[event], []⟩ ((rest ()).follow next)
  | .yield value rest => (next value).append ((rest ()).follow next)

theorem follow_afterCalls (next : α → Traced ε (List β)) (calls : List ε)
    (rest : Unit → Flow ε α) :
    (afterCalls calls rest).follow next = .append ⟨calls, []⟩ ((rest ()).follow next) := by
  induction calls with
  | nil => simp [afterCalls, Traced.append]
  | cons event events inductionHypothesis =>
      simp [afterCalls, follow, inductionHypothesis, Traced.append]

theorem follow_afterItems (next : α → Traced ε (List β)) (values : List α)
    (rest : Unit → Flow ε α) :
    (afterItems values rest).follow next =
      (Traced.followAll next values).append ((rest ()).follow next) := by
  induction values with
  | nil => simp [afterItems, Traced.append, Traced.followAll]
  | cons value values inductionHypothesis =>
      simp [afterItems, follow, inductionHypothesis, Traced.followAll, Traced.append]

/-- The elements of a list are followed one after another. -/
theorem follow_ofList (next : α → Traced ε (List β)) (values : List α) :
    (ofList values).follow next = Traced.followAll next values := by
  induction values with
  | nil => rfl
  | cons value values inductionHypothesis =>
      rw [ofList, follow, inductionHypothesis, Traced.followAll_cons]

/-- A flow whose elements cause nothing further is collected. -/
theorem follow_single (flow : Flow ε α) : flow.follow Traced.single = flow.collect := by
  rw [collect_eq]
  induction flow with
  | done => rfl
  | call event rest inductionHypothesis =>
      simp [follow, inductionHypothesis, Traced.append, trace, items]
  | yield value rest inductionHypothesis =>
      simp [follow, inductionHypothesis, Traced.append, Traced.single, Traced.silent, trace, items]

/-! ## Adaptors that keep nothing -/

theorem follow_filter (predicate : α → Traced ε Bool) (next : α → Traced ε (List β))
    (flow : Flow ε α) :
    (flow.filter predicate).follow next =
      flow.follow fun value =>
        (predicate value).bind fun passed => if passed then next value else .silent [] := by
  induction flow with
  | done => rfl
  | call event rest inductionHypothesis =>
      rw [filter, follow, inductionHypothesis, follow]
  | yield value rest inductionHypothesis =>
      cases accepted : (predicate value).value <;>
        simp [filter, precede_eq_afterCalls, follow_afterCalls, follow, accepted,
          inductionHypothesis, Traced.append, Traced.bind]

theorem follow_map (operator : α → Traced ε β) (next : β → Traced ε (List γ)) (flow : Flow ε α) :
    (flow.map operator).follow next = flow.follow fun value => (operator value).bind next := by
  induction flow with
  | done => rfl
  | call event rest inductionHypothesis => rw [map, follow, inductionHypothesis, follow]
  | yield value rest inductionHypothesis =>
      simp [map, precede_eq_afterCalls, follow_afterCalls, follow, inductionHypothesis,
        Traced.append, Traced.bind]

/-- Every element of an expansion is followed to the end before the next one. -/
theorem follow_flatMap (expander : α → Traced ε (List β)) (next : β → Traced ε (List γ))
    (flow : Flow ε α) :
    (flow.flatMap expander).follow next =
      flow.follow fun value => (expander value).bind (Traced.followAll next) := by
  induction flow with
  | done => rfl
  | call event rest inductionHypothesis => rw [flatMap, follow, inductionHypothesis, follow]
  | yield value rest inductionHypothesis =>
      simp [flatMap, precede_eq_afterCalls, supply_eq_afterItems, follow_afterCalls,
        follow_afterItems, follow, inductionHypothesis, Traced.append, Traced.bind]

end Flow

/-! ## Following an element down a view -/

namespace Action

/-- What an element causes that reaches the action, if what an element behind the action causes is
known. For an action that depends on more than the current element there is nothing to say. -/
def follow (next : α → Traced ε (List β)) : Action ε α → α → Traced ε (List β)
  | .filter predicate, value =>
    (predicate value).bind fun passed => if passed then next value else .silent []
  | .map operator, value => (operator value).bind next
  | .flatMap expander, value => (expander value).bind (Traced.followAll next)
  | .peek observer, value => .append ⟨observer value, []⟩ (next value)
  | _, value => next value

/-- An action that depends on the current element alone follows one element after another. -/
theorem follow_apply [Element α] [DecidableEq α] {action : Action ε α}
    (stateless : action.kind.isStateful = false) (next : α → Traced ε (List β))
    (flow : Unit → Flow ε α) :
    (action.apply flow ()).follow next = (flow ()).follow (action.follow next) := by
  cases action with
  | filter predicate => exact Flow.follow_filter predicate next _
  | map operator => exact Flow.follow_map operator next _
  | flatMap expander => exact Flow.follow_flatMap expander next _
  | peek observer => exact Flow.follow_map (fun value => ⟨observer value, value⟩) next _
  | _ => cases stateless

end Action

namespace Derivation

/-- Every action depends on the current element alone. -/
def Stateless : {type : ElementType} → Derivation ε origin type → Prop
  | _, .here => True
  | _, .append prior action => prior.Stateless ∧ action.kind.isStateful = false
  | _, .mapTo prior _ => prior.Stateless

/-- What an element of the origin causes, down to the consumer. -/
def follow : {type : ElementType} → Derivation ε origin type →
    (type.Carrier → Traced ε (List β)) → origin.Carrier → Traced ε (List β)
  | _, .here, next => next
  | _, .append prior action, next => prior.follow (action.follow next)
  | _, .mapTo prior mapper, next => prior.follow fun value => (mapper value).bind next

/-- A view that is continued without state follows the elements of the view one after another. -/
theorem follow_derive (view : View ε origin) {rest : Derivation ε origin type}
    (stateless : rest.Stateless) (next : type.Carrier → Traced ε (List β)) :
    (view.derive rest).flow.follow next = view.flow.follow (rest.follow next) := by
  induction rest with
  | here => rfl
  | append prior action inductionHypothesis =>
      obtain ⟨statelessPrior, statelessAction⟩ := stateless
      have other : action.kind ≠ .skip := by
        intro skips
        rw [skips] at statelessAction
        cases statelessAction
      rw [View.derive, View.flow_append _ other, Action.follow_apply statelessAction,
        inductionHypothesis statelessPrior]
      rfl
  | mapTo prior mapper inductionHypothesis =>
      rw [View.derive, View.flow_mapTo, Flow.follow_map, inductionHypothesis stateless]
      rfl

/-- Collecting without state over a list follows its elements one after another. -/
theorem collect_fromList {rest : Derivation ε origin type} (stateless : rest.Stateless)
    (values : List origin.Carrier) :
    (rest.fromList values).collect = Traced.followAll (rest.follow Traced.single) values := by
  have source : (View.ofSource (.items values) : View ε origin).flow = .ofList values := rfl
  rw [View.collect_eq, start_calls_fromList, List.nil_append, ← Flow.collect_eq,
    ← Flow.follow_single, fromList, follow_derive _ stateless, source, Flow.follow_ofList]

/-- Filters, maps, expansions and peeks, and maps into other element types, run one element of the
source at a time. Collecting over a list gives the results over its parts, one behind the other, and
makes their calls in this order. All that an element causes, through every step and with every
element it is expanded to followed to the end before the next, comes before anything that the next
element of the source causes, and it is what the element causes as the only one. So does every chain
that may stand for the view: it has these results and calls and no others. -/
theorem stateless_depth_first {rest : Derivation ε origin type} (stateless : rest.Stateless) :
    (∀ first second : List origin.Carrier, (rest.fromList (first ++ second)).collect =
      (rest.fromList first).collect.append (rest.fromList second).collect) ∧
    (∀ values : List origin.Carrier,
      (rest.fromList values).collect = Traced.followAll (rest.follow Traced.single) values) ∧
    (∀ value : origin.Carrier, rest.follow Traced.single value = (rest.fromList [value]).collect) ∧
    ∀ values : List origin.Carrier,
      let view := rest.fromList values
      ∀ opened, view.feed.Opens opened → ∀ calls results,
        (view.chain opened).Collects (view.chain opened).initial calls results ↔
          Traced.followAll (rest.follow Traced.single) values = ⟨calls, results⟩ := by
  refine ⟨fun first second => ?_, collect_fromList stateless, fun value => ?_, fun values => ?_⟩
  · rw [collect_fromList stateless, Traced.followAll_append, collect_fromList stateless,
      collect_fromList stateless]
  · rw [collect_fromList stateless]
    simp [Traced.followAll]
  · intro view opened opens calls results
    rw [View.collects_chain_iff opens, start_calls_fromList, List.nil_append,
      collect_fromList stateless]

/-- Pairs of neighbours, widened, and each of them twice unless it is even. -/
def doubledNeighbours : Derivation String .int .long :=
  let paired : Derivation String .int .int :=
    Derivation.here.append (.flatMap fun value => ⟨["pair"], [value, value + 1]⟩)
  let widened : Derivation String .int .long :=
    paired.mapTo fun value => ⟨["widen"], ElementType.convert .int .long value⟩
  let odd : Derivation String .int .long :=
    widened.append (.filter fun value : Int64 => ⟨["test"], value % 2 != 0⟩)
  (odd.append (.flatMap fun value => ⟨["double"], [value, value]⟩)).append (.peek fun _ => ["show"])

/-- The second neighbour is met when all is done that the first has caused. -/
theorem doubledNeighbours_depth_first :
    doubledNeighbours.Stateless ∧
    (doubledNeighbours.fromList [1, 2]).collect =
      (⟨["pair", "widen", "test", "double", "show", "show", "widen", "test",
        "pair", "widen", "test", "widen", "test", "double", "show", "show"],
        ([1, 1, 3, 3] : List Int64)⟩ : Traced String (List Int64)) := by
  have stateless : doubledNeighbours.Stateless :=
    ⟨⟨⟨⟨trivial, rfl⟩, rfl⟩, rfl⟩, rfl⟩
  obtain ⟨parts, -⟩ := stateless_depth_first stateless
  exact ⟨stateless, (parts [1] [2]).trans (by decide)⟩

end Derivation

end Flowpress
