import Flowpress.Flow

/-!
# What flows hold

`Flow.trace` and `Flow.items` are what is left of a flow once it is pulled to
its end. Here both are followed through every adaptor, and the consumers that
pull to the end are expressed by them. Neither says when a call happens; that is
the matter of `Flowpress.Proofs.Flow.Demand`.
-/

namespace Flowpress

variable {ε α β σ : Type}

namespace Traced

@[simp] theorem calls_silent (value : α) : (silent value : Traced ε α).calls = [] := rfl

@[simp] theorem value_silent (value : α) : (silent value : Traced ε α).value = value := rfl

@[simp] theorem value_map (change : α → β) (traced : Traced ε α) :
    (traced.map change).value = change traced.value := rfl

@[simp] theorem calls_bind (traced : Traced ε α) (next : α → Traced ε β) :
    (traced.bind next).calls = traced.calls ++ (next traced.value).calls := rfl

@[simp] theorem value_bind (traced : Traced ε α) (next : α → Traced ε β) :
    (traced.bind next).value = (next traced.value).value := rfl

/-- Another value in place of the value comes with the same calls. -/
theorem map_eq_iff {change : α → β} {traced : Traced ε α} {calls : List ε} {value : β} :
    traced.map change = ⟨calls, value⟩ ↔
      ∃ before, traced = ⟨calls, before⟩ ∧ change before = value := by
  cases traced
  simp only [map, mk.injEq, and_assoc, exists_and_left, exists_eq_left']

end Traced

namespace Flow

/-! ## Building flows -/

@[simp] theorem trace_afterCalls (calls : List ε) (rest : Unit → Flow ε α) :
    (afterCalls calls rest).trace = calls ++ (rest ()).trace := by
  induction calls with
  | nil => rfl
  | cons event events inductionHypothesis => simp [afterCalls, trace, inductionHypothesis]

@[simp] theorem items_afterCalls (calls : List ε) (rest : Unit → Flow ε α) :
    (afterCalls calls rest).items = (rest ()).items := by
  induction calls with
  | nil => rfl
  | cons event events inductionHypothesis => simp [afterCalls, items, inductionHypothesis]

@[simp] theorem items_afterItems (values : List α) (rest : Unit → Flow ε α) :
    (afterItems values rest).items = values ++ (rest ()).items := by
  induction values with
  | nil => rfl
  | cons value values inductionHypothesis => simp [afterItems, items, inductionHypothesis]

@[simp] theorem trace_ofList (values : List α) : (ofList values : Flow ε α).trace = [] := by
  induction values with
  | nil => rfl
  | cons value values inductionHypothesis => simpa [ofList, trace] using inductionHypothesis

@[simp] theorem trace_afterItems (values : List α) (rest : Unit → Flow ε α) :
    (afterItems values rest).trace = (rest ()).trace := by
  induction values with
  | nil => rfl
  | cons value values inductionHypothesis => simp [afterItems, trace, inductionHypothesis]

@[simp] theorem items_ofList (values : List α) : (ofList values : Flow ε α).items = values := by
  induction values with
  | nil => rfl
  | cons value values inductionHypothesis => simpa [ofList, items] using inductionHypothesis

/-- A flow of indexed elements is the flow of the list of these elements. -/
theorem ofFunction_eq_ofList (element : Nat → α) (size start : Nat) :
    (ofFunction element size start : Flow ε α) =
      ofList ((List.range' start size).map element) := by
  induction size generalizing start with
  | zero => rfl
  | succ size inductionHypothesis =>
      simp [ofFunction, List.range'_succ, ofList, inductionHypothesis]

/-! ## Calls in front of a flow

They stay in front of whatever an adaptor makes of the flow. -/

theorem afterCalls_append (first second : List ε) (rest : Unit → Flow ε α) :
    afterCalls (first ++ second) rest = afterCalls first fun _ => afterCalls second rest := by
  induction first with
  | nil => rfl
  | cons event events inductionHypothesis => simp [afterCalls, inductionHypothesis]

/-- An adaptor that passes a call on passes on all calls in front of a flow. -/
theorem passes_afterCalls {adaptor : Flow ε α → Flow ε β}
    (passes : ∀ event rest, adaptor (.call event rest) = .call event fun _ => adaptor (rest ()))
    (calls : List ε) (rest : Unit → Flow ε α) :
    adaptor (afterCalls calls rest) = afterCalls calls fun _ => adaptor (rest ()) := by
  induction calls with
  | nil => rfl
  | cons event events inductionHypothesis =>
      rw [afterCalls, passes, inductionHypothesis, afterCalls]

theorem filter_afterCalls (predicate : α → Traced ε Bool) (calls : List ε)
    (rest : Unit → Flow ε α) :
    filter predicate (afterCalls calls rest) =
      afterCalls calls fun _ => filter predicate (rest ()) :=
  passes_afterCalls (fun _ _ => rfl) calls rest

theorem map_afterCalls (operator : α → Traced ε β) (calls : List ε) (rest : Unit → Flow ε α) :
    map operator (afterCalls calls rest) = afterCalls calls fun _ => map operator (rest ()) :=
  passes_afterCalls (fun _ _ => rfl) calls rest

theorem flatMap_afterCalls (expander : α → Traced ε (List β)) (calls : List ε)
    (rest : Unit → Flow ε α) :
    flatMap expander (afterCalls calls rest) =
      afterCalls calls fun _ => flatMap expander (rest ()) :=
  passes_afterCalls (fun _ _ => rfl) calls rest

theorem distinctAfter_afterCalls [DecidableEq α] (seen : List α) (calls : List ε)
    (rest : Unit → Flow ε α) :
    distinctAfter seen (afterCalls calls rest) =
      afterCalls calls fun _ => distinctAfter seen (rest ()) :=
  passes_afterCalls (fun _ _ => rfl) calls rest

theorem sortedAfter_afterCalls (order : α → α → Ordering) (taken : List α) (calls : List ε)
    (rest : Unit → Flow ε α) :
    sortedAfter order taken (afterCalls calls rest) =
      afterCalls calls fun _ => sortedAfter order taken (rest ()) :=
  passes_afterCalls (fun _ _ => rfl) calls rest

theorem takeMore_afterCalls (more : Nat) (calls : List ε) (rest : Unit → Flow ε α) :
    takeMore more (afterCalls calls rest) = afterCalls calls fun _ => takeMore more (rest ()) :=
  passes_afterCalls (fun _ _ => rfl) calls rest

theorem skip_afterCalls (dropped : Nat) (calls : List ε) (rest : Unit → Flow ε α) :
    skip dropped (afterCalls calls rest) = afterCalls calls fun _ => skip dropped (rest ()) :=
  passes_afterCalls (fun _ _ => rfl) calls rest

/-! ## The elements behind an adaptor -/

/-- A filter keeps the elements its predicate accepts. -/
theorem items_filter (predicate : α → Traced ε Bool) (flow : Flow ε α) :
    (flow.filter predicate).items = flow.items.filter fun value => (predicate value).value := by
  induction flow with
  | done => rfl
  | call event rest inductionHypothesis => simpa [filter, items] using inductionHypothesis ()
  | yield value rest inductionHypothesis =>
      cases accepted : (predicate value).value <;>
        simp [filter, precede_eq_afterCalls, items, accepted, inductionHypothesis]

/-- A map gives the image of every element. -/
theorem items_map (operator : α → Traced ε β) (flow : Flow ε α) :
    (flow.map operator).items = flow.items.map fun value => (operator value).value := by
  induction flow with
  | done => rfl
  | call event rest inductionHypothesis => simpa [map, items] using inductionHypothesis ()
  | yield value rest inductionHypothesis =>
      simp [map, precede_eq_afterCalls, items, inductionHypothesis]

/-- An expanding map gives the expansions of all elements, one after another. -/
theorem items_flatMap (expander : α → Traced ε (List β)) (flow : Flow ε α) :
    (flow.flatMap expander).items = flow.items.flatMap fun value => (expander value).value := by
  induction flow with
  | done => rfl
  | call event rest inductionHypothesis => simpa [flatMap, items] using inductionHypothesis ()
  | yield value rest inductionHypothesis =>
      simp [flatMap, precede_eq_afterCalls, supply_eq_afterItems, items, inductionHypothesis]

/-- An observer leaves the elements as they are. -/
theorem items_peek (observer : α → List ε) (flow : Flow ε α) :
    (flow.peek observer).items = flow.items := by
  simp [peek, items_map]

theorem items_distinctAfter [DecidableEq α] (seen : List α) (flow : Flow ε α) :
    (distinctAfter seen flow).items =
      (flow.items.filter fun value => decide (value ∉ seen)).eraseDups := by
  induction flow generalizing seen with
  | done => rfl
  | call event rest inductionHypothesis =>
      simpa [distinctAfter, items] using inductionHypothesis () seen
  | yield value rest inductionHypothesis =>
      by_cases known : value ∈ seen
      · simp [distinctAfter, items, known, inductionHypothesis]
      · -- Later copies of `value` are taken out by the grown list on one side, by
        -- `eraseDups` on the other.
        simp only [distinctAfter, items, known, if_false, inductionHypothesis,
          List.filter_cons, not_false_eq_true, decide_true, if_true, List.eraseDups_cons,
          List.filter_filter]
        congr 2
        apply List.filter_congr
        intro other _
        by_cases same : other = value <;> simp [same]

theorem trace_distinctAfter [DecidableEq α] (seen : List α) (flow : Flow ε α) :
    (distinctAfter seen flow).trace = flow.trace := by
  induction flow generalizing seen with
  | done => rfl
  | call event rest inductionHypothesis => simp [distinctAfter, trace, inductionHypothesis]
  | yield value rest inductionHypothesis =>
      by_cases known : value ∈ seen <;> simp [distinctAfter, trace, known, inductionHypothesis]

/-- Removing copies makes no call of its own. -/
theorem trace_distinct [DecidableEq α] (flow : Flow ε α) : flow.distinct.trace = flow.trace :=
  trace_distinctAfter [] flow

/-- The first of equal elements is kept. -/
theorem items_distinct [DecidableEq α] (flow : Flow ε α) :
    flow.distinct.items = flow.items.eraseDups := by
  rw [distinct, items_distinctAfter, List.filter_eq_self.mpr (by simp)]

theorem items_sortedAfter (order : α → α → Ordering) (taken : List α) (flow : Flow ε α) :
    (sortedAfter order taken flow).items = sortList order (taken.reverse ++ flow.items) := by
  induction flow generalizing taken with
  | done => simp [sortedAfter, items]
  | call event rest inductionHypothesis =>
      simpa [sortedAfter, items] using inductionHypothesis () taken
  | yield value rest inductionHypothesis =>
      simpa [sortedAfter, items] using inductionHypothesis () (value :: taken)

/-- A sort gives the sorted list of the elements. -/
theorem items_sorted (order : α → α → Ordering) (flow : Flow ε α) :
    (flow.sorted order).items = sortList order flow.items := by
  simp [sorted, items_sortedAfter]

theorem items_takeMore (more : Nat) (flow : Flow ε α) :
    (takeMore more flow).items = flow.items.take (more + 1) := by
  induction flow generalizing more with
  | done => rfl
  | call event rest inductionHypothesis =>
      simpa [takeMore, items] using inductionHypothesis () more
  | yield value rest inductionHypothesis =>
      cases more with
      | zero => simp [takeMore, items]
      | succ more => simpa [takeMore, items] using inductionHypothesis () more

/-- A limit keeps the first elements. -/
theorem items_limit (count : Nat) (flow : Unit → Flow ε α) :
    (limit count flow).items = (flow ()).items.take count := by
  cases count with
  | zero => rfl
  | succ more => exact items_takeMore more (flow ())

/-- A skip drops the first elements. -/
theorem items_skip (count : Nat) (flow : Flow ε α) :
    (flow.skip count).items = flow.items.drop count := by
  induction flow generalizing count with
  | done => simp [skip, items]
  | call event rest inductionHypothesis => simpa [skip, items] using inductionHypothesis () count
  | yield value rest inductionHypothesis =>
      cases count with
      | zero => rfl
      | succ count => simpa [skip, items] using inductionHypothesis () count

/-! ## Adaptors without calls of their own -/

/-- A filter whose predicate calls nothing passes on the calls of the flow. -/
theorem trace_filter_of_silent {predicate : α → Traced ε Bool}
    (quiet : ∀ value, (predicate value).calls = []) (flow : Flow ε α) :
    (flow.filter predicate).trace = flow.trace := by
  induction flow with
  | done => rfl
  | call event rest inductionHypothesis => simp [filter, trace, inductionHypothesis]
  | yield value rest inductionHypothesis =>
      cases accepted : (predicate value).value <;>
        simp [filter, precede_eq_afterCalls, trace, quiet, accepted, inductionHypothesis]

theorem trace_map_of_silent {operator : α → Traced ε β}
    (quiet : ∀ value, (operator value).calls = []) (flow : Flow ε α) :
    (flow.map operator).trace = flow.trace := by
  induction flow with
  | done => rfl
  | call event rest inductionHypothesis => simp [map, trace, inductionHypothesis]
  | yield value rest inductionHypothesis =>
      simp [map, precede_eq_afterCalls, trace, quiet, inductionHypothesis]

theorem trace_flatMap_of_silent {expander : α → Traced ε (List β)}
    (quiet : ∀ value, (expander value).calls = []) (flow : Flow ε α) :
    (flow.flatMap expander).trace = flow.trace := by
  induction flow with
  | done => rfl
  | call event rest inductionHypothesis => simp [flatMap, trace, inductionHypothesis]
  | yield value rest inductionHypothesis =>
      simp [flatMap, precede_eq_afterCalls, supply_eq_afterItems, trace, quiet,
        inductionHypothesis]

/-- Dropping elements drops none of the calls that give them. -/
theorem trace_skip (count : Nat) (flow : Flow ε α) : (flow.skip count).trace = flow.trace := by
  induction flow generalizing count with
  | done => rfl
  | call event rest inductionHypothesis => simp [skip, trace, inductionHypothesis]
  | yield value rest inductionHypothesis =>
      cases count with
      | zero => rfl
      | succ count => simp [skip, trace, inductionHypothesis]

/-! ## Consumers that pull to the end -/

theorem consumeAfter_collect (taken : List α) (calls : List ε) (flow : Flow ε α) :
    flow.consumeAfter (fun taken value => (.ok (value :: taken) : Except Empty (List α)))
        taken calls =
      ⟨calls.reverse ++ flow.trace, .ok (flow.items.reverse ++ taken)⟩ := by
  induction flow generalizing taken calls with
  | done => simp [consumeAfter, trace, items]
  | call event rest inductionHypothesis =>
      simp [consumeAfter, trace, items, inductionHypothesis]
  | yield value rest inductionHypothesis =>
      simp [consumeAfter, trace, items, inductionHypothesis]

/-- Collecting gives all elements and makes all calls. -/
theorem collect_eq (flow : Flow ε α) : flow.collect = ⟨flow.trace, flow.items⟩ := by
  simp [collect, consume, consumeAfter_collect, Traced.map]

theorem consumeAfter_count (counted : Nat) (calls : List ε) (flow : Flow ε α) :
    flow.consumeAfter (fun count _ => (.ok (count + 1) : Except Empty Nat)) counted calls =
      ⟨calls.reverse ++ flow.trace, .ok (counted + flow.items.length)⟩ := by
  induction flow generalizing counted calls with
  | done => simp [consumeAfter, trace, items]
  | call event rest inductionHypothesis =>
      simp [consumeAfter, trace, items, inductionHypothesis]
  | yield value rest inductionHypothesis =>
      simp [consumeAfter, trace, items, inductionHypothesis, Nat.add_assoc, Nat.add_comm]

/-- Counting gives the number of elements and makes all calls. -/
theorem count_eq (flow : Flow ε α) : flow.count = ⟨flow.trace, flow.items.length⟩ := by
  simp [count, consume, consumeAfter_count, Traced.map]

end Flow

end Flowpress
