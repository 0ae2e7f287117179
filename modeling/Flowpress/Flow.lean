/-!
# Flows

A `Flow` is what a consumer meets when it pulls elements one after another: calls
of the functions of a pipeline, recorded as events, and elements, each in its
turn, until nothing is left. What comes after an event or an element is only
computed when it is asked for, so a flow says exactly which calls a pull causes.

Every adaptor is a function on flows. None of them looks at more of its input
than the next pull needs, with two exceptions: `sorted` takes its whole input
before its first element, and a flow that is never pulled is never started,
which is why the adaptor `limit` and all consumers take a flow that has not
started, `Unit → Flow`.

`Flow.consume` runs a consumer over a flow. All others, from `collect` to
`pulls`, are consumers of that kind.
-/

namespace Flowpress

/-- A value and the calls that were recorded while it was computed, in order. -/
structure Traced (ε α : Type) where
  calls : List ε
  value : α
deriving DecidableEq, Repr

namespace Traced

variable {ε α β : Type}

/-- A value computed without a recorded call. -/
def silent (value : α) : Traced ε α := ⟨[], value⟩

/-- The same calls with another value. -/
def map (change : α → β) (traced : Traced ε α) : Traced ε β := ⟨traced.calls, change traced.value⟩

/-- The calls of both, first those that gave the value the second depends on. -/
def bind (traced : Traced ε α) (next : α → Traced ε β) : Traced ε β :=
  let after := next traced.value
  ⟨traced.calls ++ after.calls, after.value⟩

end Traced

/-- A finite run of recorded calls and elements, started only as far as it is pulled. -/
inductive Flow (ε α : Type) where
  | done
  | call (event : ε) (rest : Unit → Flow ε α)
  | yield (value : α) (rest : Unit → Flow ε α)

namespace Flow

variable {ε α β ρ σ : Type}

/-! ## What a flow holds -/

/-- All calls of a flow that is pulled to its end. -/
def trace : Flow ε α → List ε
  | .done => []
  | .call event rest => event :: (rest ()).trace
  | .yield _ rest => (rest ()).trace

/-- All elements of a flow that is pulled to its end. -/
def items : Flow ε α → List α
  | .done => []
  | .call _ rest => (rest ()).items
  | .yield value rest => value :: (rest ()).items

/-! ## Building flows -/

/-- The elements of a list, without calls. -/
def ofList : List α → Flow ε α
  | [] => .done
  | value :: values => .yield value fun _ => ofList values

/-- The elements `element start`, `element (start + 1)` and so on, `size` of them. -/
def ofFunction (element : Nat → α) : Nat → Nat → Flow ε α
  | 0, _ => .done
  | size + 1, start => .yield (element start) fun _ => ofFunction element size (start + 1)

/-- Puts calls in front of a flow. -/
def afterCalls : List ε → (Unit → Flow ε α) → Flow ε α
  | [], rest => rest ()
  | event :: events, rest => .call event fun _ => afterCalls events rest

/-- Puts elements in front of a flow. -/
def afterItems : List α → (Unit → Flow ε α) → Flow ε α
  | [], rest => rest ()
  | value :: values, rest => .yield value fun _ => afterItems values rest

/-- Puts calls in front of a flow; the same as `afterCalls`, without a detour if there are none. -/
@[inline]
def precede (calls : List ε) (rest : Unit → Flow ε α) : Flow ε α :=
  match calls with
  | [] => rest ()
  | event :: events => .call event fun _ => afterCalls events rest

/-- Puts elements in front of a flow; the same as `afterItems`, without a detour if there are
none. -/
@[inline]
def supply (values : List α) (rest : Unit → Flow ε α) : Flow ε α :=
  match values with
  | [] => rest ()
  | value :: values => .yield value fun _ => afterItems values rest

theorem precede_eq_afterCalls (calls : List ε) (rest : Unit → Flow ε α) :
    precede calls rest = afterCalls calls rest := by
  cases calls <;> rfl

theorem supply_eq_afterItems (values : List α) (rest : Unit → Flow ε α) :
    supply values rest = afterItems values rest := by
  cases values <;> rfl

/-! ## Adaptors -/

/-- Keeps the elements of which the predicate holds. -/
def filter (predicate : α → Traced ε Bool) : Flow ε α → Flow ε α
  | .done => .done
  | .call event rest => .call event fun _ => filter predicate (rest ())
  | .yield value rest =>
    let answer := predicate value
    precede answer.calls fun _ =>
      if answer.value then .yield value fun _ => filter predicate (rest ())
      else filter predicate (rest ())

/-- The image of every element. -/
def map (operator : α → Traced ε β) : Flow ε α → Flow ε β
  | .done => .done
  | .call event rest => .call event fun _ => map operator (rest ())
  | .yield value rest =>
    let answer := operator value
    precede answer.calls fun _ => .yield answer.value fun _ => map operator (rest ())

/-- The expansion of every element, one after another. -/
def flatMap (expander : α → Traced ε (List β)) : Flow ε α → Flow ε β
  | .done => .done
  | .call event rest => .call event fun _ => flatMap expander (rest ())
  | .yield value rest =>
    let answer := expander value
    precede answer.calls fun _ => supply answer.value fun _ => flatMap expander (rest ())

/-- Shows every element to an observer as it passes. -/
def peek (observer : α → List ε) : Flow ε α → Flow ε α :=
  map fun value => ⟨observer value, value⟩

/-- Keeps the first of equal elements; those in `seen` have passed already. -/
def distinctAfter [DecidableEq α] (seen : List α) : Flow ε α → Flow ε α
  | .done => .done
  | .call event rest => .call event fun _ => distinctAfter seen (rest ())
  | .yield value rest =>
    if value ∈ seen then distinctAfter seen (rest ())
    else .yield value fun _ => distinctAfter (value :: seen) (rest ())

/-- Keeps the first of equal elements. -/
def distinct [DecidableEq α] : Flow ε α → Flow ε α := distinctAfter []

/-- A list in the given order; elements that tie stay in their order. -/
def sortList (order : α → α → Ordering) (values : List α) : List α :=
  values.mergeSort fun first second => (order first second).isLE

/-- The calls of the rest of a flow, and then its elements in order together with those taken
before, of which the last one comes first. -/
def sortedAfter (order : α → α → Ordering) (taken : List α) : Flow ε α → Flow ε α
  | .done => ofList (sortList order taken.reverse)
  | .call event rest => .call event fun _ => sortedAfter order taken (rest ())
  | .yield value rest => sortedAfter order (value :: taken) (rest ())

/-- All elements in order. Elements that tie stay in their order. -/
def sorted (order : α → α → Ordering) : Flow ε α → Flow ε α := sortedAfter order []

/-- The first `more + 1` elements. The last of them is not followed by another pull. -/
def takeMore (more : Nat) : Flow ε α → Flow ε α
  | .done => .done
  | .call event rest => .call event fun _ => takeMore more (rest ())
  | .yield value rest =>
    match more with
    | 0 => .yield value fun _ => .done
    | more + 1 => .yield value fun _ => takeMore more (rest ())

/-- The first `count` elements; a flow of which none is wanted is not started. -/
def limit (count : Nat) (flow : Unit → Flow ε α) : Flow ε α :=
  match count with
  | 0 => .done
  | more + 1 => takeMore more (flow ())

/-- Drops the first `count` elements, but not the calls that give them. -/
def skip (count : Nat) : Flow ε α → Flow ε α
  | .done => .done
  | .call event rest => .call event fun _ => skip count (rest ())
  | .yield value rest =>
    match count with
    | 0 => .yield value rest
    | count + 1 => skip count (rest ())

/-! ## Consumers -/

/-- Feeds the elements to `step` until it stops with a result or the flow ends. `calls` holds the
calls recorded so far, the last one first. -/
def consumeAfter (step : σ → α → Except ρ σ) (state : σ) (calls : List ε) :
    Flow ε α → Traced ε (Except ρ σ)
  | .done => ⟨calls.reverse, .ok state⟩
  | .call event rest => consumeAfter step state (event :: calls) (rest ())
  | .yield value rest =>
    match step state value with
    | .error result => ⟨calls.reverse, .error result⟩
    | .ok state => consumeAfter step state calls (rest ())

/-- Feeds the elements to `step` until it stops with a result or the flow ends. -/
def consume (step : σ → α → Except ρ σ) (initial : σ) (flow : Flow ε α) : Traced ε (Except ρ σ) :=
  consumeAfter step initial [] flow

/-- All elements. -/
def collect (flow : Flow ε α) : Traced ε (List α) :=
  let take (taken : List α) (value : α) : Except Empty (List α) := .ok (value :: taken)
  (flow.consume take []).map fun
    | .ok taken => taken.reverse
    | .error never => never.elim

/-- How many elements there are. -/
def count (flow : Flow ε α) : Traced ε Nat :=
  let increase (count : Nat) (_ : α) : Except Empty Nat := .ok (count + 1)
  (flow.consume increase 0).map fun
    | .ok count => count
    | .error never => never.elim

/-- The first element, if there is one. -/
def first (flow : Flow ε α) : Traced ε (Option α) :=
  (flow.consume (fun _ value => .error value) ()).map fun
    | .error value => some value
    | .ok _ => none

/-- The fold of a partial operation from `initial`; it stops where the operation has no result. -/
def foldWhile (operation : σ → α → Option σ) (initial : σ) (flow : Flow ε α) :
    Traced ε (Option σ) :=
  (flow.consume (fun state value =>
    match operation state value with
    | some state => .ok state
    | none => .error ()) initial).map Except.toOption

/-- Answers to `count` pulls, one after another: elements, and none once nothing is left. The first
pull starts the flow. -/
def pulls (count : Nat) (flow : Unit → Flow ε α) : Traced ε (List (Option α)) :=
  match count with
  | 0 => .silent []
  | more + 1 =>
    ((flow ()).consume (fun (state : Nat × List (Option α)) value =>
      match state.1 with
      | 0 => .error (some value :: state.2).reverse
      | left + 1 => .ok (left, some value :: state.2)) (more, [])).map fun
        | .error answers => answers
        | .ok (left, answers) => answers.reverse ++ List.replicate (left + 1) none

end Flow

end Flowpress
