import Flowpress.Proofs.Flow.Demand

/-!
# Recasting calls

`Flow.recast` puts a list of calls in place of every recorded call: one call
with a label on it, or none where a call is to be left out. What a flow does
never depends on what its calls are, so recasting passes through every adaptor:
the calls of a recast flow are the recast calls of the flow.
-/

namespace Flowpress

variable {ε δ ζ α β : Type}

namespace Traced

/-- Puts a list of calls in place of every recorded call. -/
def recast (change : ε → List δ) (traced : Traced ε α) : Traced δ α :=
  ⟨traced.calls.flatMap change, traced.value⟩

@[simp] theorem calls_recast (change : ε → List δ) (traced : Traced ε α) :
    (traced.recast change).calls = traced.calls.flatMap change := rfl

@[simp] theorem value_recast (change : ε → List δ) (traced : Traced ε α) :
    (traced.recast change).value = traced.value := rfl

/-- Recasting twice is recasting once. -/
theorem recast_recast (first : ε → List δ) (second : δ → List ζ) (traced : Traced ε α) :
    (traced.recast first).recast second =
      traced.recast fun event => (first event).flatMap second := by
  simp [recast, List.flatMap_assoc]

/-- Recasting every call as itself changes nothing. -/
theorem recast_self (traced : Traced ε α) : (traced.recast fun event => [event]) = traced := by
  simp [recast]

theorem recast_bind (change : ε → List δ) (traced : Traced ε α) (next : α → Traced ε β) :
    (traced.bind next).recast change =
      (traced.recast change).bind fun value => (next value).recast change := by
  simp [recast, bind]

end Traced

namespace Flow

/-- Puts a list of calls in place of every recorded call. -/
def recast (change : ε → List δ) : Flow ε α → Flow δ α
  | .done => .done
  | .call event rest => afterCalls (change event) fun _ => recast change (rest ())
  | .yield value rest => .yield value fun _ => recast change (rest ())

@[simp] theorem recast_done (change : ε → List δ) :
    (done : Flow ε α).recast change = .done := rfl

@[simp] theorem recast_call (change : ε → List δ) (event : ε) (rest : Unit → Flow ε α) :
    (call event rest).recast change =
      afterCalls (change event) fun _ => (rest ()).recast change := rfl

@[simp] theorem recast_yield (change : ε → List δ) (value : α) (rest : Unit → Flow ε α) :
    (yield value rest).recast change = .yield value fun _ => (rest ()).recast change := rfl

/-! ## What a recast flow holds -/

@[simp] theorem items_recast (change : ε → List δ) (flow : Flow ε α) :
    (flow.recast change).items = flow.items := by
  induction flow with
  | done => rfl
  | call event rest inductionHypothesis => simp [items, inductionHypothesis]
  | yield value rest inductionHypothesis => simp [items, inductionHypothesis]

@[simp] theorem trace_recast (change : ε → List δ) (flow : Flow ε α) :
    (flow.recast change).trace = flow.trace.flatMap change := by
  induction flow with
  | done => rfl
  | call event rest inductionHypothesis => simp [trace, inductionHypothesis]
  | yield value rest inductionHypothesis => simp [trace, inductionHypothesis]

/-! ## Recasting and building -/

theorem recast_afterCalls (change : ε → List δ) (calls : List ε) (rest : Unit → Flow ε α) :
    (afterCalls calls rest).recast change =
      afterCalls (calls.flatMap change) fun _ => (rest ()).recast change := by
  induction calls with
  | nil => rfl
  | cons event events inductionHypothesis =>
      simp [afterCalls, inductionHypothesis, afterCalls_append]

/-- Recasting twice is recasting once. -/
theorem recast_recast (first : ε → List δ) (second : δ → List ζ) (flow : Flow ε α) :
    (flow.recast first).recast second =
      flow.recast fun event => (first event).flatMap second := by
  induction flow with
  | done => rfl
  | call event rest inductionHypothesis =>
      simp [recast_afterCalls, inductionHypothesis]
  | yield value rest inductionHypothesis => simp [inductionHypothesis]

/-- Recasting every call as itself changes nothing. -/
theorem recast_self (flow : Flow ε α) : (flow.recast fun event => [event]) = flow := by
  induction flow with
  | done => rfl
  | call event rest inductionHypothesis => simp [afterCalls, inductionHypothesis]
  | yield value rest inductionHypothesis => simp [inductionHypothesis]

theorem recast_afterItems (change : ε → List δ) (values : List α) (rest : Unit → Flow ε α) :
    (afterItems values rest).recast change =
      afterItems values fun _ => (rest ()).recast change := by
  induction values with
  | nil => rfl
  | cons value values inductionHypothesis => simp [afterItems, inductionHypothesis]

@[simp] theorem recast_ofList (change : ε → List δ) (values : List α) :
    (ofList values : Flow ε α).recast change = ofList values := by
  induction values with
  | nil => rfl
  | cons value values inductionHypothesis => simp [ofList, inductionHypothesis]

/-! ## Recasting and adaptors -/

theorem recast_filter (change : ε → List δ) (predicate : α → Traced ε Bool) (flow : Flow ε α) :
    (flow.filter predicate).recast change =
      (flow.recast change).filter fun value => (predicate value).recast change := by
  induction flow with
  | done => rfl
  | call event rest inductionHypothesis =>
      simp [filter, filter_afterCalls, inductionHypothesis]
  | yield value rest inductionHypothesis =>
      cases accepted : (predicate value).value <;>
        simp [filter, precede_eq_afterCalls, recast_afterCalls, accepted, inductionHypothesis]

theorem recast_map (change : ε → List δ) (operator : α → Traced ε β) (flow : Flow ε α) :
    (flow.map operator).recast change =
      (flow.recast change).map fun value => (operator value).recast change := by
  induction flow with
  | done => rfl
  | call event rest inductionHypothesis =>
      simp [map, map_afterCalls, inductionHypothesis]
  | yield value rest inductionHypothesis =>
      simp [map, precede_eq_afterCalls, recast_afterCalls, inductionHypothesis]

theorem recast_flatMap (change : ε → List δ) (expander : α → Traced ε (List β))
    (flow : Flow ε α) :
    (flow.flatMap expander).recast change =
      (flow.recast change).flatMap fun value => (expander value).recast change := by
  induction flow with
  | done => rfl
  | call event rest inductionHypothesis =>
      simp [flatMap, flatMap_afterCalls, inductionHypothesis]
  | yield value rest inductionHypothesis =>
      simp [flatMap, precede_eq_afterCalls, supply_eq_afterItems, recast_afterCalls,
        recast_afterItems, inductionHypothesis]

theorem recast_peek (change : ε → List δ) (observer : α → List ε) (flow : Flow ε α) :
    (flow.peek observer).recast change =
      (flow.recast change).peek fun value => (observer value).flatMap change := by
  rw [peek, recast_map]
  rfl

theorem recast_distinct [DecidableEq α] (change : ε → List δ) (flow : Flow ε α) :
    flow.distinct.recast change = (flow.recast change).distinct := by
  show (distinctAfter [] flow).recast change = distinctAfter [] (flow.recast change)
  generalize ([] : List α) = seen
  induction flow generalizing seen with
  | done => rfl
  | call event rest inductionHypothesis =>
      simp [distinctAfter, distinctAfter_afterCalls, inductionHypothesis]
  | yield value rest inductionHypothesis =>
      by_cases known : value ∈ seen <;>
        simp [distinctAfter, known, inductionHypothesis]

theorem recast_sorted (change : ε → List δ) (order : α → α → Ordering) (flow : Flow ε α) :
    (flow.sorted order).recast change = (flow.recast change).sorted order := by
  show (sortedAfter order [] flow).recast change = sortedAfter order [] (flow.recast change)
  generalize ([] : List α) = taken
  induction flow generalizing taken with
  | done => simp [sortedAfter]
  | call event rest inductionHypothesis =>
      simp [sortedAfter, sortedAfter_afterCalls, inductionHypothesis]
  | yield value rest inductionHypothesis => simp [sortedAfter, inductionHypothesis]

theorem recast_limit (change : ε → List δ) (width : Nat) (flow : Unit → Flow ε α) :
    (limit width flow).recast change = limit width fun _ => (flow ()).recast change := by
  cases width with
  | zero => rfl
  | succ more =>
      show (takeMore more (flow ())).recast change = takeMore more ((flow ()).recast change)
      generalize flow () = inner
      induction inner generalizing more with
      | done => rfl
      | call event rest inductionHypothesis =>
          simp [takeMore, takeMore_afterCalls, inductionHypothesis]
      | yield value rest inductionHypothesis =>
          cases more with
          | zero => rfl
          | succ more => simp [takeMore, inductionHypothesis]

theorem recast_skip (change : ε → List δ) (dropped : Nat) (flow : Flow ε α) :
    (flow.skip dropped).recast change = (flow.recast change).skip dropped := by
  induction flow generalizing dropped with
  | done => rfl
  | call event rest inductionHypothesis =>
      simp [skip, skip_afterCalls, inductionHypothesis]
  | yield value rest inductionHypothesis =>
      cases dropped with
      | zero => rfl
      | succ dropped => simp [skip, inductionHypothesis]

end Flow

end Flowpress
