import Flowpress.Proofs.Flow.Contents

/-!
# What a pull causes

A consumer that pulls `count` times makes the calls `Flow.callsWithin count` and
no others. How this number of pulls is passed on upstream is what the laziness of
an adaptor means: a limit passes on no more than it is wide, a skip adds what it
drops, and a sort passes on everything as soon as it is pulled at all. How often a
consumer pulls is a matter of the elements it takes before it stops.
-/

namespace Flowpress.Flow

variable {ε α β ρ σ : Type}

/-- The calls of a consumer that pulls `count` times. They end at the element of the last pull, or
with the flow. -/
def callsWithin : Nat → Flow ε α → List ε
  | 0, _ => []
  | _ + 1, .done => []
  | count + 1, .call event rest => event :: callsWithin (count + 1) (rest ())
  | count + 1, .yield _ rest => callsWithin count (rest ())

/-- The answers to `count` pulls on a sequence that stays exhausted once it is. -/
def answersWithin (count : Nat) (values : List α) : List (Option α) :=
  (values.take count).map some ++ List.replicate (count - values.length) none

@[simp] theorem callsWithin_zero (flow : Flow ε α) : flow.callsWithin 0 = [] := by
  cases flow <;> rfl

@[simp] theorem callsWithin_done (count : Nat) : (done : Flow ε α).callsWithin count = [] := by
  cases count <;> rfl

@[simp] theorem callsWithin_call (count : Nat) (event : ε) (rest : Unit → Flow ε α) :
    (call event rest).callsWithin (count + 1) = event :: (rest ()).callsWithin (count + 1) := by
  simp [callsWithin]

@[simp] theorem callsWithin_yield (count : Nat) (value : α) (rest : Unit → Flow ε α) :
    (yield value rest).callsWithin (count + 1) = (rest ()).callsWithin count := by
  simp [callsWithin]

@[simp] theorem callsWithin_afterCalls (count : Nat) (calls : List ε) (rest : Unit → Flow ε α) :
    (afterCalls calls rest).callsWithin (count + 1) =
      calls ++ (rest ()).callsWithin (count + 1) := by
  induction calls with
  | nil => rfl
  | cons event events inductionHypothesis => simp [afterCalls, inductionHypothesis]

/-! ## More pulls, more calls -/

/-- A consumer that pulls more makes the same calls first. -/
theorem callsWithin_isPrefix_add (flow : Flow ε α) (count more : Nat) :
    flow.callsWithin count <+: flow.callsWithin (count + more) := by
  induction flow generalizing count with
  | done => simp
  | call event rest inductionHypothesis =>
      cases count with
      | zero => simp
      | succ count =>
          simpa [Nat.add_right_comm count 1 more] using inductionHypothesis () (count + 1)
  | yield value rest inductionHypothesis =>
      cases count with
      | zero => simp
      | succ count =>
          simpa [Nat.add_right_comm count 1 more] using inductionHypothesis () count

theorem callsWithin_isPrefix_of_le (flow : Flow ε α) {count wider : Nat} (least : count ≤ wider) :
    flow.callsWithin count <+: flow.callsWithin wider := by
  obtain ⟨more, rfl⟩ := Nat.exists_eq_add_of_le least
  exact flow.callsWithin_isPrefix_add count more

/-- One pull more than there are elements reaches the end. -/
theorem callsWithin_eq_trace (flow : Flow ε α) {count : Nat} (enough : flow.items.length < count) :
    flow.callsWithin count = flow.trace := by
  induction flow generalizing count with
  | done => simp [trace]
  | call event rest inductionHypothesis =>
      obtain ⟨count, rfl⟩ := Nat.exists_eq_add_one_of_ne_zero (Nat.ne_zero_of_lt enough)
      simpa [trace] using inductionHypothesis () enough
  | yield value rest inductionHypothesis =>
      obtain ⟨count, rfl⟩ := Nat.exists_eq_add_one_of_ne_zero (Nat.ne_zero_of_lt enough)
      simpa [trace] using inductionHypothesis () (by simpa [items] using enough)

/-- No number of pulls makes a call that collecting would not make. -/
theorem callsWithin_isPrefix_trace (flow : Flow ε α) (count : Nat) :
    flow.callsWithin count <+: flow.trace := by
  have enough : flow.items.length < count + (flow.items.length + 1) := by omega
  rw [← flow.callsWithin_eq_trace enough]
  exact flow.callsWithin_isPrefix_add count _

/-! ## Adaptors -/

/-- The first pull on an adaptor passes on at least one pull. -/
theorem callsWithin_one_isPrefix {adaptor : Flow ε α → Flow ε β}
    (passes : ∀ event rest, adaptor (.call event rest) = .call event fun _ => adaptor (rest ()))
    (flow : Flow ε α) : flow.callsWithin 1 <+: (adaptor flow).callsWithin 1 := by
  induction flow with
  | done => simp
  | call event rest inductionHypothesis =>
      rw [passes]
      simpa using inductionHypothesis ()
  | yield value rest inductionHypothesis => simp

/-- A limit passes on no more pulls than it is wide. -/
theorem callsWithin_limit (width count : Nat) (flow : Unit → Flow ε α) :
    (limit width flow).callsWithin count = (flow ()).callsWithin (min count width) := by
  cases width with
  | zero => simp [limit]
  | succ more =>
      show (takeMore more (flow ())).callsWithin count = _
      generalize flow () = inner
      induction inner generalizing more count with
      | done => simp [takeMore]
      | call event rest inductionHypothesis =>
          cases count with
          | zero => simp
          | succ count =>
              rw [Nat.add_min_add_right]
              simpa [takeMore] using inductionHypothesis () (count + 1) more
      | yield value rest inductionHypothesis =>
          cases count with
          | zero => simp
          | succ count =>
              cases more with
              | zero => simp [takeMore]
              | succ more =>
                  rw [Nat.add_min_add_right]
                  simpa [takeMore] using inductionHypothesis () count more

/-- All calls of a limited flow are those of as many pulls as the limit is wide. -/
theorem trace_limit (width : Nat) (flow : Unit → Flow ε α) :
    (limit width flow).trace = (flow ()).callsWithin width := by
  have short : (limit width flow).items.length < width + 1 := by
    rw [items_limit, List.length_take]
    omega
  rw [← callsWithin_eq_trace _ short, callsWithin_limit, Nat.min_eq_right (Nat.le_succ width)]

/-- The first pull on a skip passes on the pulls for all elements it drops as well. -/
theorem callsWithin_skip (dropped count : Nat) (flow : Flow ε α) :
    (flow.skip dropped).callsWithin (count + 1) = flow.callsWithin (dropped + count + 1) := by
  induction flow generalizing dropped with
  | done => simp [skip]
  | call event rest inductionHypothesis => simp [skip, inductionHypothesis]
  | yield value rest inductionHypothesis =>
      cases dropped with
      | zero => simp [skip]
      | succ dropped =>
          simp [skip, inductionHypothesis, Nat.add_right_comm dropped 1 count]

theorem callsWithin_ofList (count : Nat) (values : List α) :
    (ofList values : Flow ε α).callsWithin count = [] := by
  have none : (ofList values : Flow ε α).callsWithin count <+: [] := by
    simpa using (ofList values : Flow ε α).callsWithin_isPrefix_trace count
  exact List.prefix_nil.mp none

/-- A sort is a barrier: its first pull makes all calls of its input, and no later pull makes
any. -/
theorem callsWithin_sorted (order : α → α → Ordering) (count : Nat) (flow : Flow ε α) :
    (flow.sorted order).callsWithin (count + 1) = flow.trace := by
  show (sortedAfter order [] flow).callsWithin (count + 1) = flow.trace
  generalize ([] : List α) = taken
  induction flow generalizing taken with
  | done => exact callsWithin_ofList _ _
  | call event rest inductionHypothesis => simp [sortedAfter, trace, inductionHypothesis]
  | yield value rest inductionHypothesis => simp [sortedAfter, trace, inductionHypothesis]

/-- A map without calls of its own passes every pull on as it is. -/
theorem callsWithin_map_of_silent {operator : α → Traced ε β}
    (quiet : ∀ value, (operator value).calls = []) (count : Nat) (flow : Flow ε α) :
    (flow.map operator).callsWithin count = flow.callsWithin count := by
  induction flow generalizing count with
  | done => simp [map]
  | call event rest inductionHypothesis =>
      cases count with
      | zero => simp
      | succ count => simp [map, inductionHypothesis]
  | yield value rest inductionHypothesis =>
      cases count with
      | zero => simp
      | succ count => simp [map, precede_eq_afterCalls, afterCalls, quiet, inductionHypothesis]

/-! ## Consumers that stop -/

theorem calls_consumeAfter_isPrefix (step : σ → α → Except ρ σ) (state : σ) (calls : List ε)
    (flow : Flow ε α) :
    (flow.consumeAfter step state calls).calls <+: calls.reverse ++ flow.trace := by
  induction flow generalizing state calls with
  | done => simp [consumeAfter, trace]
  | call event rest inductionHypothesis =>
      simpa [consumeAfter, trace] using inductionHypothesis () state (event :: calls)
  | yield value rest inductionHypothesis =>
      rw [consumeAfter]
      cases step state value with
      | error result => exact List.prefix_append _ _
      | ok state => exact inductionHypothesis () state calls

/-- No consumer makes a call that collecting would not make. -/
theorem calls_consume_isPrefix (step : σ → α → Except ρ σ) (initial : σ) (flow : Flow ε α) :
    (flow.consume step initial).calls <+: flow.trace :=
  calls_consumeAfter_isPrefix step initial [] flow

/-- What a consumer of a given number of pulls does with an element: it keeps the answer, and stops
if it was the last one. -/
def answerPull (state : Nat × List (Option α)) (value : α) :
    Except (List (Option α)) (Nat × List (Option α)) :=
  match state.1 with
  | 0 => .error (some value :: state.2).reverse
  | left + 1 => .ok (left, some value :: state.2)

theorem consumeAfter_answerPull (left : Nat) (answers : List (Option α)) (calls : List ε)
    (flow : Flow ε α) :
    flow.consumeAfter answerPull (left, answers) calls =
      ⟨calls.reverse ++ flow.callsWithin (left + 1),
        if left < flow.items.length then
          .error (answers.reverse ++ (flow.items.take (left + 1)).map some)
        else .ok (left - flow.items.length, (flow.items.map some).reverse ++ answers)⟩ := by
  induction flow generalizing left answers calls with
  | done => simp [consumeAfter, items]
  | call event rest inductionHypothesis =>
      simp [consumeAfter, items, inductionHypothesis]
  | yield value rest inductionHypothesis =>
      cases left with
      | zero => simp [consumeAfter, answerPull, items]
      | succ left => simp [consumeAfter, answerPull, items, inductionHypothesis]

/-- The answers of a consumer that has stopped, or has met the end. -/
def allAnswers : Except (List (Option α)) (Nat × List (Option α)) → List (Option α)
  | .error answers => answers
  | .ok (left, answers) => answers.reverse ++ List.replicate (left + 1) none

theorem pulls_succ (left : Nat) (flow : Unit → Flow ε α) :
    pulls (left + 1) flow = ((flow ()).consume answerPull (left, [])).map allAnswers := rfl

/-- A consumer that pulls `count` times gets the elements in turn and then none, and makes the
calls that `callsWithin` says. -/
theorem pulls_eq (count : Nat) (flow : Unit → Flow ε α) :
    pulls count flow =
      ⟨(flow ()).callsWithin count, answersWithin count (flow ()).items⟩ := by
  cases count with
  | zero => simp [pulls, answersWithin, Traced.silent]
  | succ left =>
      rw [pulls_succ, consume, consumeAfter_answerPull, Traced.map, answersWithin]
      by_cases more : left < (flow ()).items.length
      · simp [more, allAnswers, Nat.sub_eq_zero_of_le (Nat.succ_le_of_lt more)]
      · have least : (flow ()).items.length ≤ left := Nat.le_of_not_lt more
        simp [more, allAnswers, List.take_of_length_le, Nat.le_succ_of_le least,
          Nat.succ_sub least]

/-- How many elements a consumer takes before the one it stops at; all of them if it does not
stop. -/
def accepted (step : σ → α → Except ρ σ) (state : σ) : List α → Nat
  | [] => 0
  | value :: values =>
    match step state value with
    | .error _ => 0
    | .ok state => accepted step state values + 1

/-- A consumer pulls once more than it takes elements, and its result is that of its run over the
list of the elements. -/
theorem consumeAfter_eq (step : σ → α → Except ρ σ) (state : σ) (calls : List ε)
    (flow : Flow ε α) :
    flow.consumeAfter step state calls =
      ⟨calls.reverse ++ flow.callsWithin (accepted step state flow.items + 1),
        flow.items.foldlM step state⟩ := by
  induction flow generalizing state calls with
  | done => simp [consumeAfter, items, pure, Except.pure]
  | call event rest inductionHypothesis => simp [consumeAfter, items, inductionHypothesis]
  | yield value rest inductionHypothesis =>
      cases taken : step state value with
      | error result => simp [consumeAfter, items, accepted, taken, bind, Except.bind]
      | ok next =>
          simp [consumeAfter, items, accepted, taken, bind, Except.bind, inductionHypothesis]

theorem consume_eq (step : σ → α → Except ρ σ) (initial : σ) (flow : Flow ε α) :
    flow.consume step initial =
      ⟨flow.callsWithin (accepted step initial flow.items + 1), flow.items.foldlM step initial⟩ :=
  consumeAfter_eq step initial [] flow

/-- The first element is the answer to one pull. -/
theorem first_eq (flow : Flow ε α) : flow.first = ⟨flow.callsWithin 1, flow.items.head?⟩ := by
  simp only [first, consume_eq, Traced.map]
  cases flow.items <;> rfl

/-! ## Folds -/

/-- What a fold of a partial operation does with an element. -/
def advance (operation : σ → α → Option σ) (state : σ) (value : α) : Except Unit σ :=
  match operation state value with
  | some state => .ok state
  | none => .error ()

theorem advance_some {operation : σ → α → Option σ} {state next : σ} {value : α}
    (defined : operation state value = some next) : advance operation state value = .ok next := by
  rw [advance, defined]

theorem advance_none {operation : σ → α → Option σ} {state : σ} {value : α}
    (undefined : operation state value = none) : advance operation state value = .error () := by
  rw [advance, undefined]

/-- The run of a fold over a list is the fold of the list. -/
theorem toOption_foldlM_advance (operation : σ → α → Option σ) (state : σ) (values : List α) :
    (values.foldlM (advance operation) state).toOption = values.foldlM operation state := by
  induction values generalizing state with
  | nil => rfl
  | cons value values inductionHypothesis =>
      rw [List.foldlM_cons, List.foldlM_cons]
      cases defined : operation state value with
      | none =>
          rw [advance_none defined]
          rfl
      | some next =>
          rw [advance_some defined]
          exact inductionHypothesis next

theorem foldWhile_eq (operation : σ → α → Option σ) (initial : σ) (flow : Flow ε α) :
    flow.foldWhile operation initial =
      ⟨flow.callsWithin (accepted (advance operation) initial flow.items + 1),
        flow.items.foldlM operation initial⟩ := by
  rw [← toOption_foldlM_advance]
  show (flow.consume (advance operation) initial).map Except.toOption = _
  rw [consume_eq]
  rfl

/-- A fold that is defined on the front part of a list takes that part. -/
theorem accepted_append {operation : σ → α → Option σ} {state reached : σ} {front : List α}
    (defined : front.foldlM operation state = some reached) (rest : List α) :
    accepted (advance operation) state (front ++ rest) =
      front.length + accepted (advance operation) reached rest := by
  induction front generalizing state with
  | nil =>
      obtain rfl := Option.some.inj defined
      simp
  | cons value front inductionHypothesis =>
      rw [List.foldlM_cons] at defined
      obtain ⟨next, first, others⟩ := Option.bind_eq_some_iff.mp defined
      rw [List.cons_append, accepted, advance_some first, List.length_cons]
      simp only [inductionHypothesis others]
      omega

/-- A fold that is defined on all elements pulls to the end. -/
theorem foldWhile_of_some {operation : σ → α → Option σ} {initial result : σ} {flow : Flow ε α}
    (defined : flow.items.foldlM operation initial = some result) :
    flow.foldWhile operation initial = ⟨flow.trace, some result⟩ := by
  have all := accepted_append defined []
  rw [List.append_nil, accepted] at all
  rw [foldWhile_eq, defined, all, callsWithin_eq_trace]
  exact Nat.lt_succ_self _

/-- A fold that is not defined on some element pulls up to this one. -/
theorem foldWhile_of_none {operation : σ → α → Option σ} {initial reached : σ} {flow : Flow ε α}
    {front rest : List α} {last : α} (split : flow.items = front ++ last :: rest)
    (defined : front.foldlM operation initial = some reached)
    (undefined : operation reached last = none) :
    flow.foldWhile operation initial = ⟨flow.callsWithin (front.length + 1), none⟩ := by
  have stops : accepted (advance operation) reached (last :: rest) = 0 := by
    rw [accepted, advance_none undefined]
  rw [foldWhile_eq, split, accepted_append defined, stops, List.foldlM_append, defined,
    Option.bind_eq_bind, Option.bind_some, List.foldlM_cons, undefined]
  rfl

end Flowpress.Flow
