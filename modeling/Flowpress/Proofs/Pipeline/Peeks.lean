import Flowpress.Proofs.Flow.Resorting
import Flowpress.Proofs.Pipeline.Labels
import Flowpress.Proofs.Pipeline.Limits
import Flowpress.Proofs.Pipeline.Stages

/-!
# Peeks keep their position

A peek sees what passes its place and nothing else: the elements that collecting what
lies in front of it would give, in their order, as far as somebody pulls them. What
lies behind it can only end that early, and while the view is collected nothing but a
limit does. A filter, an expansion, a skip, the removal of copies and a sort pull until
nothing is left, however their plans are merged.

To say what a peek has seen, `View.watched` puts marks of its own in place of the
calls of the observer. Any observer is had back by recasting the marks, so that the
marks show where between the other calls the observer is called.
-/

namespace Flowpress

variable {ε δ ζ α : Type} {origin type : ElementType}

/-! ## Actions without calls -/

namespace Action

variable [Element α] [DecidableEq α]

/-- An action without calls of its own passes on all calls of the flow, unless it is a limit. -/
theorem trace_apply_silent {action : Action ε α} (unlimited : action.kind ≠ .limit)
    (flow : Unit → Flow δ α) :
    ((action.recast fun _ => []).apply flow ()).trace = (flow ()).trace := by
  cases action with
  | filter predicate => exact Flow.trace_filter_of_silent (fun value => by simp) _
  | map operator => exact Flow.trace_map_of_silent (fun value => by simp) _
  | flatMap expander => exact Flow.trace_flatMap_of_silent (fun value => by simp) _
  | peek observer => exact Flow.trace_map_of_silent (fun value => by simp) _
  | sorted order => exact Flow.trace_sorted _ _
  | distinct => exact Flow.trace_distinct _
  | limit count => exact absurd rfl unlimited
  | skip count => exact Flow.trace_skip count _

end Action

namespace View

/-- An action without calls of its own, added to a view, leaves the calls as they are. -/
theorem trace_append_silent (view : View δ type) {action : Action ε type.Carrier}
    (unlimited : action.kind ≠ .limit) :
    (view.append (action.recast fun _ => [])).flow.trace = view.flow.trace := by
  by_cases skips : action.kind = .skip
  · obtain ⟨count, rfl⟩ := Plan.exists_skip skips
    exact view.trace_append_skip count
  · rw [view.flow_append (by simpa using skips)]
    exact Action.trace_apply_silent unlimited fun _ => view.flow

theorem calls_collect_append_silent (view : View δ type) {action : Action ε type.Carrier}
    (unlimited : action.kind ≠ .limit) :
    (view.append (action.recast fun _ => [])).collect.calls = view.collect.calls := by
  rw [calls_collect, calls_collect, start_calls_append, trace_append_silent view unlimited]

/-- A limit can end the calls early. -/
theorem calls_collect_append_silent_isPrefix (view : View δ type)
    (action : Action ε type.Carrier) :
    (view.append (action.recast fun _ => [])).collect.calls <+: view.collect.calls := by
  by_cases limited : action.kind = .limit
  · obtain ⟨count, rfl⟩ : ∃ count, action = .limit count := by
      cases action <;> simp_all [Action.kind]
    rw [Action.recast, collect_append_limit]
    exact view.calls_pulls_isPrefix count
  · exact (view.calls_collect_append_silent limited).symm ▸ List.prefix_rfl

theorem calls_collect_mapTo_silent (view : View δ origin)
    (mapper : origin.Carrier → Traced ε type.Carrier) :
    (view.mapTo fun value => (mapper value).recast fun _ => []).collect.calls =
      view.collect.calls := by
  rw [calls_collect, calls_collect, flow_mapTo, start_mapTo,
    Flow.trace_map_of_silent fun value => by simp]

end View

/-! ## Continuing a view without calls -/

namespace Derivation

/-- The derivation with its calls recast. -/
def recast (change : ε → List δ) : {type : ElementType} → Derivation ε origin type →
    Derivation δ origin type
  | _, .here => .here
  | _, .append prior action => (prior.recast change).append (action.recast change)
  | _, .mapTo prior mapper =>
    (prior.recast change).mapTo fun value => (mapper value).recast change

/-- None of the actions is a limit. -/
def Unlimited : {type : ElementType} → Derivation ε origin type → Prop
  | _, .here => True
  | _, .append prior action => prior.Unlimited ∧ action.kind ≠ .limit
  | _, .mapTo prior _ => prior.Unlimited

/-- Recasting twice is recasting once. -/
theorem recast_recast (first : ε → List δ) (second : δ → List ζ)
    (rest : Derivation ε origin type) :
    (rest.recast first).recast second =
      rest.recast fun event => (first event).flatMap second := by
  induction rest with
  | here => rfl
  | append prior action inductionHypothesis =>
      rw [recast, recast, inductionHypothesis, Action.recast_recast, recast]
  | mapTo prior mapper inductionHypothesis =>
      simp [recast, inductionHypothesis, Traced.recast_recast]

/-- Recasting every call as itself changes nothing. -/
theorem recast_self (rest : Derivation ε origin type) :
    (rest.recast fun event => [event]) = rest := by
  induction rest with
  | here => rfl
  | append prior action inductionHypothesis =>
      rw [recast, inductionHypothesis, Action.recast_self]
  | mapTo prior mapper inductionHypothesis =>
      simp [recast, inductionHypothesis, Traced.recast_self]

/-- Recasting a view that has been continued recasts it and what it is continued by. -/
theorem recast_derive (change : ε → List δ) (view : View ε origin)
    (rest : Derivation ε origin type) :
    (view.derive rest).recast change = (view.recast change).derive (rest.recast change) := by
  induction rest with
  | here => rfl
  | append prior action inductionHypothesis =>
      rw [View.derive, View.recast_append, inductionHypothesis]
      rfl
  | mapTo prior mapper inductionHypothesis =>
      rw [recast, View.derive, View.derive, ← inductionHypothesis]
      rfl

/-- Continuing a view without calls can end the calls early, and does nothing else to them. -/
theorem calls_collect_derive_isPrefix (view : View δ origin) (rest : Derivation ε origin type) :
    (view.derive (rest.recast fun _ => [])).collect.calls <+: view.collect.calls := by
  induction rest with
  | here => exact List.prefix_refl _
  | append prior action inductionHypothesis =>
      exact (View.calls_collect_append_silent_isPrefix _ action).trans inductionHypothesis
  | mapTo prior mapper inductionHypothesis =>
      rw [recast, View.derive, View.calls_collect_mapTo_silent]
      exact inductionHypothesis

/-- Continuing a view without calls and without a limit leaves the calls as they are. -/
theorem calls_collect_derive (view : View δ origin) {rest : Derivation ε origin type}
    (unlimited : rest.Unlimited) :
    (view.derive (rest.recast fun _ => [])).collect.calls = view.collect.calls := by
  induction rest with
  | here => rfl
  | append prior action inductionHypothesis =>
      rw [recast, View.derive, View.calls_collect_append_silent _ unlimited.2,
        inductionHypothesis unlimited.1]
  | mapTo prior mapper inductionHypothesis =>
      rw [recast, View.derive, View.calls_collect_mapTo_silent, inductionHypothesis unlimited]

end Derivation

/-! ## What a peek has seen -/

/-- The elements that are marked among some calls. -/
def sighted (calls : List (ε ⊕ α)) : List α := calls.filterMap Sum.getRight?

theorem sighted_append (first second : List (ε ⊕ α)) :
    sighted (first ++ second) = sighted first ++ sighted second :=
  List.filterMap_append

/-- Looking for the marks is recasting every other call as none. -/
theorem sighted_eq_flatMap (calls : List (ε ⊕ α)) :
    sighted calls = calls.flatMap fun call => call.getRight?.toList :=
  List.filterMap_eq_flatMap_toList _ _

/-- Every pull shows one element, until nothing is left. -/
theorem Flow.sighted_callsWithin_peek (count : Nat) (flow : Flow ε α) :
    sighted (((flow.recast fun event => [Sum.inl event]).peek fun value =>
      [Sum.inr value]).callsWithin count) = flow.items.take count := by
  induction flow generalizing count with
  | done => simp [recast, peek, map, items, sighted]
  | call event rest inductionHypothesis =>
      cases count with
      | zero => simp [sighted]
      | succ count =>
          simpa [recast, afterCalls, peek, map, items, sighted, List.filterMap_cons] using
            inductionHypothesis () (count + 1)
  | yield value rest inductionHypothesis =>
      cases count with
      | zero => simp [sighted]
      | succ count =>
          simpa [recast, afterCalls, peek, map, precede, items, sighted, List.filterMap_cons] using
            inductionHypothesis () count

namespace View

/-- A view that is continued behind a peek. In place of the calls of an observer it has marks of the
elements the peek is shown. -/
def watched (front : View ε origin) (rest : Derivation ε origin type) :
    View (ε ⊕ origin.Carrier) type :=
  ((front.recast fun event => [.inl event]).append (.peek fun value => [.inr value])).derive
    (rest.recast fun event => [.inl event])

/-- The marks stand where the observer is called. -/
theorem recast_watched (front : View ε origin) (rest : Derivation ε origin type)
    (observer : origin.Carrier → List ε) :
    (front.watched rest).recast (Sum.elim (fun event => [event]) observer) =
      (front.append (.peek observer)).derive rest := by
  rw [watched, Derivation.recast_derive, recast_append, recast_recast, Derivation.recast_recast]
  simp [recast_self, Derivation.recast_self, Action.recast]

/-- Collecting a view behind a peek is showing every element to a visitor. -/
theorem collect_append_peek (view : View ε type) (observer : type.Carrier → List ε) :
    (view.append (.peek observer)).collect = view.forEach observer := by
  have shown : (view.append (.peek observer)).start = view.start.map (Action.peek observer).apply :=
    view.start_append nofun
  rw [collect, terminate, shown]
  rfl

/-- A peek at the end of a view is shown all that the view gives. -/
theorem sighted_watched_here (front : View ε origin) :
    sighted (front.watched .here).collect.calls = front.collect.value := by
  have marks : (front.watched .here).collect = _ := collect_append_peek _ _
  rw [marks, collect_eq]
  exact front.visits_forEach

/-- What a peek has seen is what it calls when nothing else makes calls. -/
theorem sighted_watched (front : View ε origin) (rest : Derivation ε origin type) :
    sighted (front.watched rest).collect.calls =
      (((front.watched .here).recast fun call => call.getRight?.toList).derive
        (rest.recast fun _ => [])).collect.calls := by
  rw [sighted_eq_flatMap, ← Traced.calls_recast, ← collect_recast, watched,
    Derivation.recast_derive, Derivation.recast_recast]
  rfl

/-- What follows a peek can only end early what it sees. -/
theorem sighted_isPrefix (front : View ε origin) (rest : Derivation ε origin type) :
    sighted (front.watched rest).collect.calls <+: front.collect.value := by
  have early := Derivation.calls_collect_derive_isPrefix
    ((front.watched .here).recast fun call => call.getRight?.toList) rest
  rwa [← sighted_watched, collect_recast, Traced.calls_recast, ← sighted_eq_flatMap,
    sighted_watched_here] at early

/-- Without a limit behind it, a peek sees everything. -/
theorem sighted_eq (front : View ε origin) {rest : Derivation ε origin type}
    (unlimited : rest.Unlimited) :
    sighted (front.watched rest).collect.calls = front.collect.value := by
  rw [sighted_watched, Derivation.calls_collect_derive _ unlimited, collect_recast,
    Traced.calls_recast, ← sighted_eq_flatMap, sighted_watched_here]

/-- Opening the view shows the peek nothing. -/
theorem sighted_start_watched (front : View ε origin) (rest : Derivation ε origin type) :
    sighted (front.watched rest).start.calls = [] := by
  rw [watched, Derivation.start_calls_derive, start_calls_append, start_recast]
  simp [sighted, List.filterMap_flatMap]

/-- A peek at the end of a view is shown an element by each pull, until nothing is left. -/
theorem sighted_pulls_watched_here (front : View ε origin) (count : Nat) :
    sighted ((front.watched .here).pulls count).calls = front.collect.value.take count := by
  have shown : (front.watched .here).flow = _ := flow_append _ nofun
  rw [pulls_eq, sighted_append, sighted_start_watched, List.nil_append, shown, flow_recast,
    collect_eq]
  exact Flow.sighted_callsWithin_peek count front.flow

/-- No consumer of a view makes a call that collecting it would not make. -/
theorem calls_consume_isPrefix {ρ σ : Type} (view : View ε type)
    (step : σ → type.Carrier → Except ρ σ) (initial : σ) :
    (view.terminate fun flow => (flow ()).consume step initial).calls <+: view.collect.calls := by
  rw [terminate, Traced.calls_bind]
  exact view.calls_isPrefix_collect (Flow.calls_consume_isPrefix step initial _)

theorem calls_first_isPrefix (view : View ε type) : view.first.calls <+: view.collect.calls := by
  rw [first_eq]
  exact view.calls_isPrefix_collect (Flow.callsWithin_isPrefix_trace _ 1)

/-- A peek sees exactly what passes its place. Collecting a view that goes on behind the peek shows
it the first of the elements that collecting what lies in front of it gives, in their order; and all
of them if no limit follows. Asking for the first element, pulling any number of times, and every
other consumer that takes one element after another, show it the first of these elements as well:
one for each pull, if nothing follows the peek. So do pulls on every chain that the view may stand
for. Nothing depends on the observer: its calls stand in place of the marks. -/
theorem peek_sees_front (front : View ε origin) (rest : Derivation ε origin type) :
    let watched := front.watched rest
    (∀ observer, watched.recast (Sum.elim (fun event => [event]) observer) =
      (front.append (.peek observer)).derive rest) ∧
    sighted watched.collect.calls <+: front.collect.value ∧
    (rest.Unlimited → sighted watched.collect.calls = front.collect.value) ∧
    sighted watched.first.calls <+: front.collect.value ∧
    (∀ (ρ σ : Type) (step : σ → type.Carrier → Except ρ σ) (initial : σ),
      sighted (watched.terminate fun flow => (flow ()).consume step initial).calls <+:
        front.collect.value) ∧
    (∀ count, sighted ((front.watched .here).pulls count).calls = front.collect.value.take count) ∧
    ∀ count, sighted (watched.pulls count).calls <+: front.collect.value ∧
      ∀ opened, watched.feed.Opens opened → ∀ calls answers last,
        (watched.chain opened).Pulls count (watched.chain opened).initial calls answers last →
          sighted calls <+: front.collect.value := by
  intro watched
  have whole : sighted watched.collect.calls <+: front.collect.value := front.sighted_isPrefix rest
  refine ⟨front.recast_watched rest, whole, front.sighted_eq, ?_, fun ρ σ step initial => ?_,
    front.sighted_pulls_watched_here, fun count => ?_⟩
  · exact ((calls_first_isPrefix _).filterMap _).trans whole
  · exact ((calls_consume_isPrefix _ step initial).filterMap _).trans whole
  · have pulled : sighted (watched.pulls count).calls <+: front.collect.value :=
      ((calls_pulls_isPrefix _ count).filterMap _).trans whole
    refine ⟨pulled, fun opened opens calls answers last pulls => ?_⟩
    have same := (pulls_chain_iff opens count calls answers).mp ⟨last, pulls⟩
    have silent : sighted watched.start.calls = [] := front.sighted_start_watched rest
    rwa [same, sighted_append, silent, List.nil_append] at pulled

/-- Numbers and their successors, behind the producer of the numbers. -/
def expandedNumbers : View String .int :=
  let produced : View String .int := ofSource (.produced ["open"] [2, 1, 3])
  produced.append (.flatMap fun value => ⟨["expand"], [value, value + 1]⟩)

/-- Copies and one element more are left out, and what is left is widened and sorted. -/
def sortedWidening : Derivation String .int .long :=
  let dropped : Derivation String .int .int := (Derivation.here.append .distinct).append (.skip 1)
  let widened : Derivation String .int .long :=
    dropped.mapTo fun value => ⟨["widen"], ElementType.convert .int .long value⟩
  widened.append (.sorted none)

theorem expandedNumbers_sighted :
    sortedWidening.Unlimited ∧
    sighted (expandedNumbers.watched sortedWidening).collect.calls =
      ([2, 3, 1, 2, 3, 4] : List Int32) := by
  have unlimited : sortedWidening.Unlimited := ⟨⟨⟨trivial, nofun⟩, nofun⟩, nofun⟩
  obtain ⟨-, -, all, -⟩ := peek_sees_front expandedNumbers sortedWidening
  exact ⟨unlimited, (all unlimited).trans (by decide)⟩

end View

end Flowpress
