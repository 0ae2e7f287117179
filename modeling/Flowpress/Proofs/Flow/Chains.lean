import Flowpress.Proofs.Flow.Demand
import Flowpress.Proofs.Flow.Merging

/-!
# Chains of pulled stages

A `Chain` is a flow as a machine holds it: a state, and a step that looks no
further than it has to. One pull is one step or several; an adaptor keeps a state
of its own beside that of the chain it pulls on. Nothing keeps a chain from going
on after it has answered that there is nothing left, so whether it does is a
question about every adaptor.

`Chain.Holds` says that a state gives the calls and elements of a flow, comes to
an end with it and stays there. Every adaptor hands this on: a chain over a source
that stays exhausted stays exhausted, and answers any number of pulls as the flow
of the same adaptors does.
-/

namespace Flowpress

variable {ε α β : Type}

/-- A step on the way to the answer to a pull. -/
inductive Chain.Step (ε α σ : Type) where
  /-- The answer is that nothing is left. -/
  | done (next : σ)
  /-- Some calls are made and the pull goes on. -/
  | skip (calls : List ε) (next : σ)
  /-- Some calls are made and the answer is an element. -/
  | yield (calls : List ε) (value : α) (next : σ)

/-- Something to pull on. -/
structure Chain (ε α : Type) where
  State : Type
  initial : State
  step : State → Chain.Step ε α State

namespace Chain

/-! ## Pulling -/

/-- A pull makes its steps up to the first one that answers it. -/
inductive Pull (chain : Chain ε α) :
    chain.State → List ε → Option α → chain.State → Prop where
  | done {state next} (ended : chain.step state = .done next) : Pull chain state [] none next
  | skip {state between next calls later answer}
      (silent : chain.step state = .skip calls between)
      (rest : Pull chain between later answer next) : Pull chain state (calls ++ later) answer next
  | yield {state next calls value} (given : chain.step state = .yield calls value next) :
      Pull chain state calls (some value) next

/-- A number of pulls, whatever their answers are. -/
inductive Pulls (chain : Chain ε α) :
    Nat → chain.State → List ε → List (Option α) → chain.State → Prop where
  | zero {state} : Pulls chain 0 state [] [] state
  | succ {count state between next calls later answer answers}
      (first : Pull chain state calls answer between)
      (rest : Pulls chain count between later answers next) :
      Pulls chain (count + 1) state (calls ++ later) (answer :: answers) next

/-- Pulls up to the first one that gives no element. -/
inductive Collects (chain : Chain ε α) : chain.State → List ε → List α → Prop where
  | done {state next calls} (last : Pull chain state calls none next) :
      Collects chain state calls []
  | yield {state next calls later value values}
      (first : Pull chain state calls (some value) next)
      (rest : Collects chain next later values) :
      Collects chain state (calls ++ later) (value :: values)

/-- A pull has one outcome. -/
theorem Pull.unique {chain : Chain ε α} {state next other : chain.State} {calls others : List ε}
    {answer second : Option α} (pull : chain.Pull state calls answer next)
    (again : chain.Pull state others second other) :
    calls = others ∧ answer = second ∧ next = other := by
  induction pull generalizing others second other with
  | done ended =>
      cases again with
      | done same => exact ⟨rfl, rfl, Step.done.inj (ended.symm.trans same)⟩
      | skip silent rest => cases ended.symm.trans silent
      | yield given => cases ended.symm.trans given
  | skip silent rest inductionHypothesis =>
      cases again with
      | done ended => cases silent.symm.trans ended
      | skip same rest =>
          obtain ⟨rfl, rfl⟩ := Step.skip.inj (silent.symm.trans same)
          obtain ⟨rfl, rfl, rfl⟩ := inductionHypothesis rest
          exact ⟨rfl, rfl, rfl⟩
      | yield given => cases silent.symm.trans given
  | yield given =>
      cases again with
      | done ended => cases given.symm.trans ended
      | skip silent rest => cases given.symm.trans silent
      | yield same =>
          obtain ⟨rfl, rfl, rfl⟩ := Step.yield.inj (given.symm.trans same)
          exact ⟨rfl, rfl, rfl⟩

/-- A number of pulls has one outcome. -/
theorem Pulls.unique {chain : Chain ε α} {count : Nat} {state next other : chain.State}
    {calls others : List ε} {answers second : List (Option α)}
    (pulls : chain.Pulls count state calls answers next)
    (again : chain.Pulls count state others second other) :
    calls = others ∧ answers = second := by
  induction pulls generalizing others second other with
  | zero => cases again; exact ⟨rfl, rfl⟩
  | succ first rest inductionHypothesis =>
      cases again with
      | succ firstAgain restAgain =>
          obtain ⟨rfl, rfl, rfl⟩ := first.unique firstAgain
          obtain ⟨rfl, rfl⟩ := inductionHypothesis restAgain
          exact ⟨rfl, rfl⟩

/-- Collecting has one outcome. -/
theorem Collects.unique {chain : Chain ε α} {state : chain.State} {calls others : List ε}
    {values second : List α} (collects : chain.Collects state calls values)
    (again : chain.Collects state others second) : calls = others ∧ values = second := by
  induction collects generalizing others second with
  | done last =>
      cases again with
      | done same => exact ⟨(last.unique same).1, rfl⟩
      | yield first rest => cases (last.unique first).2.1
  | yield first rest inductionHypothesis =>
      cases again with
      | done last => cases (first.unique last).2.1
      | yield firstAgain restAgain =>
          obtain ⟨rfl, same, rfl⟩ := first.unique firstAgain
          obtain ⟨rfl, rfl⟩ := inductionHypothesis restAgain
          exact ⟨rfl, Option.some.inj same ▸ rfl⟩

/-! ## Chains that end -/

/-- However often the state is pulled, nothing is left and no call is made. -/
def Spent (chain : Chain ε α) (state : chain.State) : Prop :=
  ∃ ended : chain.State → Prop,
    ended state ∧ ∀ state, ended state → ∃ next, chain.step state = .done next ∧ ended next

/-- The state gives the calls and elements of a flow, comes to its end and stays there. -/
inductive Holds (chain : Chain ε α) : chain.State → Flow ε α → Prop where
  | done {state next} (ended : chain.step state = .done next) (spent : chain.Spent next) :
      Holds chain state .done
  | skip {state next calls rest} (silent : chain.step state = .skip calls next)
      (holds : Holds chain next (rest ())) : Holds chain state (.afterCalls calls rest)
  | yield {state next calls value rest} (given : chain.step state = .yield calls value next)
      (holds : Holds chain next (rest ())) :
      Holds chain state (.afterCalls calls fun _ => .yield value rest)

theorem Spent.of_fixed {chain : Chain ε α} {state : chain.State}
    (ended : chain.step state = .done state) : chain.Spent state :=
  ⟨(· = state), rfl, fun _ same => ⟨state, same ▸ ended, rfl⟩⟩

/-- An adaptor that ends with the chain it pulls on stays at its end with it. -/
theorem Spent.lift (inner : Chain ε α) (outer : Chain ε β) (embed : inner.State → outer.State)
    (ends : ∀ state next, inner.step state = .done next →
      outer.step (embed state) = .done (embed next))
    {state : inner.State} (spent : inner.Spent state) : outer.Spent (embed state) := by
  obtain ⟨ended, here, closed⟩ := spent
  refine ⟨fun outerState => ∃ state, embed state = outerState ∧ ended state,
    ⟨state, rfl, here⟩, ?_⟩
  rintro _ ⟨state, rfl, here⟩
  obtain ⟨next, step, there⟩ := closed state here
  exact ⟨embed next, ends state next step, next, rfl, there⟩

/-- A spent state answers every pull with nothing. -/
theorem Spent.pulls {chain : Chain ε α} {state : chain.State} (spent : chain.Spent state)
    (count : Nat) : ∃ last, chain.Pulls count state [] (List.replicate count none) last := by
  obtain ⟨ended, here, closed⟩ := spent
  induction count generalizing state with
  | zero => exact ⟨state, .zero⟩
  | succ count inductionHypothesis =>
      obtain ⟨next, step, there⟩ := closed state here
      obtain ⟨last, pulls⟩ := inductionHypothesis there
      exact ⟨last, .succ (.done step) pulls⟩

/-- A step without an answer only adds its calls to the pulls that follow it. -/
theorem Pulls.skip {chain : Chain ε α} {count : Nat} {state between last : chain.State}
    {calls later : List ε} {answers : List (Option α)}
    (silent : chain.step state = .skip calls between)
    (pulls : chain.Pulls (count + 1) between later answers last) :
    chain.Pulls (count + 1) state (calls ++ later) answers last := by
  cases pulls with
  | succ first rest =>
      rw [← List.append_assoc]
      exact .succ (.skip silent first) rest

theorem Collects.skip {chain : Chain ε α} {state between : chain.State} {calls later : List ε}
    {values : List α} (silent : chain.step state = .skip calls between)
    (collects : chain.Collects between later values) :
    chain.Collects state (calls ++ later) values := by
  cases collects with
  | done last => exact .done (.skip silent last)
  | yield first rest =>
      rw [← List.append_assoc]
      exact .yield (.skip silent first) rest

namespace Holds

variable {chain : Chain ε α} {state : chain.State} {flow : Flow ε α}

/-- A state that holds a flow answers any number of pulls as the flow does. -/
theorem pulls (holds : chain.Holds state flow) (count : Nat) :
    ∃ last, chain.Pulls count state (flow.callsWithin count)
      (Flow.answersWithin count flow.items) last := by
  induction holds generalizing count with
  | done ended spent =>
      cases count with
      | zero => exact ⟨_, by simpa [Flow.answersWithin] using .zero⟩
      | succ count =>
          obtain ⟨last, pulls⟩ := spent.pulls count
          refine ⟨last, ?_⟩
          simpa [Flow.answersWithin, Flow.items, List.replicate_succ] using
            Pulls.succ (.done ended) pulls
  | skip silent holds inductionHypothesis =>
      cases count with
      | zero => exact ⟨_, by simpa [Flow.answersWithin] using .zero⟩
      | succ count =>
          obtain ⟨last, pulls⟩ := inductionHypothesis (count + 1)
          rw [Flow.callsWithin_afterCalls, Flow.items_afterCalls]
          exact ⟨last, pulls.skip silent⟩
  | yield given holds inductionHypothesis =>
      cases count with
      | zero => exact ⟨_, by simpa [Flow.answersWithin] using .zero⟩
      | succ count =>
          obtain ⟨last, pulls⟩ := inductionHypothesis count
          refine ⟨last, ?_⟩
          simpa [Flow.answersWithin, Flow.items] using Pulls.succ (.yield given) pulls

/-- Collecting from a state that holds a flow gives the flow's elements with all its calls. -/
theorem collects (holds : chain.Holds state flow) :
    chain.Collects state flow.trace flow.items := by
  induction holds with
  | done ended spent => exact .done (.done ended)
  | skip silent holds inductionHypothesis =>
      rw [Flow.trace_afterCalls, Flow.items_afterCalls]
      exact inductionHypothesis.skip silent
  | yield given holds inductionHypothesis =>
      rw [Flow.trace_afterCalls, Flow.items_afterCalls]
      exact .yield (.yield given) inductionHypothesis

/-- A step may make one call. -/
theorem call {event : ε} {next : chain.State} {rest : Unit → Flow ε α}
    (silent : chain.step state = .skip [event] next) (holds : chain.Holds next (rest ())) :
    chain.Holds state (.call event rest) :=
  .skip silent holds

/-- A step may make no call at all. -/
theorem quiet {next : chain.State} (silent : chain.step state = .skip [] next)
    (holds : chain.Holds next flow) : chain.Holds state flow :=
  @Holds.skip _ _ chain state next [] (fun _ => flow) silent holds

/-- An element may come without a call. -/
theorem element {value : α} {next : chain.State} {rest : Unit → Flow ε α}
    (given : chain.step state = .yield [] value next) (holds : chain.Holds next (rest ())) :
    chain.Holds state (.yield value rest) :=
  .yield given holds

end Holds

/-! ## Chains of flows -/

/-- The chain of a flow: a call is a step, and an element answers a pull. -/
def ofFlow (flow : Flow ε α) : Chain ε α where
  State := Flow ε α
  initial := flow
  step
    | .done => .done .done
    | .call event rest => .skip [event] (rest ())
    | .yield value rest => .yield [] value (rest ())

theorem holds_ofFlow (origin flow : Flow ε α) : (ofFlow origin).Holds flow flow := by
  induction flow with
  | done => exact .done rfl (.of_fixed rfl)
  | call event rest inductionHypothesis => exact .call rfl (inductionHypothesis ())
  | yield value rest inductionHypothesis => exact .element rfl (inductionHypothesis ())

/-! ## Adaptors -/

/-- Pulls on until the predicate holds of an element. -/
def filter (chain : Chain ε α) (predicate : α → Traced ε Bool) : Chain ε α where
  State := chain.State
  initial := chain.initial
  step state :=
    match chain.step state with
    | .done next => .done next
    | .skip calls next => .skip calls next
    | .yield calls value next =>
      let answer := predicate value
      if answer.value then .yield (calls ++ answer.calls) value next
      else .skip (calls ++ answer.calls) next

/-- Gives the image of the element that is pulled. -/
def map (chain : Chain ε α) (operator : α → Traced ε β) : Chain ε β where
  State := chain.State
  initial := chain.initial
  step state :=
    match chain.step state with
    | .done next => .done next
    | .skip calls next => .skip calls next
    | .yield calls value next =>
      let answer := operator value
      .yield (calls ++ answer.calls) answer.value next

/-- Shows the element that is pulled to an observer. -/
def peek (chain : Chain ε α) (observer : α → List ε) : Chain ε α :=
  chain.map fun value => ⟨observer value, value⟩

/-- Gives the expansion of one element after another. The chain it pulls on is let go once nothing
is left of it. -/
def flatMap (chain : Chain ε α) (expander : α → Traced ε (List β)) : Chain ε β where
  State := List β × Option chain.State
  initial := ([], some chain.initial)
  step
    | (value :: values, inner) => .yield [] value (values, inner)
    | ([], none) => .done ([], none)
    | ([], some state) =>
      match chain.step state with
      | .done _ => .done ([], none)
      | .skip calls next => .skip calls ([], some next)
      | .yield calls value next =>
        let answer := expander value
        .skip (calls ++ answer.calls) (answer.value, some next)

/-- Pulls on while the element has been given before. -/
def distinct [DecidableEq α] (chain : Chain ε α) : Chain ε α where
  State := List α × chain.State
  initial := ([], chain.initial)
  step
    | (seen, state) =>
      match chain.step state with
      | .done next => .done (seen, next)
      | .skip calls next => .skip calls (seen, next)
      | .yield calls value next =>
        if value ∈ seen then .skip calls (seen, next) else .yield calls value (value :: seen, next)

/-- The state of a sort: it takes all elements, the last one first, and then gives them. -/
inductive SortState (α σ : Type) where
  | taking (taken : List α) (inner : σ)
  | giving (values : List α)

/-- Takes all elements at the first pull and gives them in order. The chain it pulls on is let go
once nothing is left of it. -/
def sorted (chain : Chain ε α) (order : α → α → Ordering) : Chain ε α where
  State := SortState α chain.State
  initial := .taking [] chain.initial
  step
    | .giving [] => .done (.giving [])
    | .giving (value :: values) => .yield [] value (.giving values)
    | .taking taken state =>
      match chain.step state with
      | .done _ => .skip [] (.giving (Flow.sortList order taken.reverse))
      | .skip calls next => .skip calls (.taking taken next)
      | .yield calls value next => .skip calls (.taking (value :: taken) next)

/-- Passes on as many pulls as are left, whatever their answers are. -/
def limit (chain : Chain ε α) (width : Nat) : Chain ε α where
  State := Nat × chain.State
  initial := (width, chain.initial)
  step
    | (0, state) => .done (0, state)
    | (left + 1, state) =>
      match chain.step state with
      | .done next => .done (left, next)
      | .skip calls next => .skip calls (left + 1, next)
      | .yield calls value next => .yield calls value (left, next)

/-- Pulls on for as many elements as are left to drop. They are forgotten at the first pull, even if
nothing is left of the chain before. -/
def skip (chain : Chain ε α) (dropped : Nat) : Chain ε α where
  State := Nat × chain.State
  initial := (dropped, chain.initial)
  step
    | (left, state) =>
      match chain.step state with
      | .done next => .done (0, next)
      | .skip calls next => .skip calls (left, next)
      | .yield calls value next =>
        match left with
        | 0 => .yield calls value (0, next)
        | left + 1 => .skip calls (left, next)

/-! ## Adaptors hold what the adaptors of flows give -/

namespace Holds

variable {chain : Chain ε α} {state : chain.State} {flow : Flow ε α}

theorem filter (holds : chain.Holds state flow) (predicate : α → Traced ε Bool) :
    (chain.filter predicate).Holds state (flow.filter predicate) := by
  have ends (state next : chain.State) (ended : chain.step state = .done next) :
      (chain.filter predicate).step state = .done next := by
    simp [Chain.filter, ended]
  induction holds with
  | done ended spent =>
      exact .done (ends _ _ ended)
        (Spent.lift chain (chain.filter predicate) (fun state => state) ends spent)
  | skip silent holds inductionHypothesis =>
      rw [Flow.filter_afterCalls]
      exact .skip (by simp [Chain.filter, silent]) inductionHypothesis
  | @yield state next calls value rest given holds inductionHypothesis =>
      rw [Flow.filter_afterCalls, Flow.filter]
      simp only [Flow.precede_eq_afterCalls]
      rw [← Flow.afterCalls_append]
      by_cases accepted : (predicate value).value
      · simp only [accepted, if_true]
        exact .yield (by simp [Chain.filter, given, accepted]) inductionHypothesis
      · simp only [accepted]
        exact .skip (by simp [Chain.filter, given, accepted]) inductionHypothesis

theorem map (holds : chain.Holds state flow) (operator : α → Traced ε β) :
    (chain.map operator).Holds state (flow.map operator) := by
  have ends (state next : chain.State) (ended : chain.step state = .done next) :
      (chain.map operator).step state = .done next := by
    simp [Chain.map, ended]
  induction holds with
  | done ended spent =>
      exact .done (ends _ _ ended)
        (Spent.lift chain (chain.map operator) (fun state => state) ends spent)
  | skip silent holds inductionHypothesis =>
      rw [Flow.map_afterCalls]
      exact .skip (by simp [Chain.map, silent]) inductionHypothesis
  | yield given holds inductionHypothesis =>
      rw [Flow.map_afterCalls, Flow.map]
      simp only [Flow.precede_eq_afterCalls]
      rw [← Flow.afterCalls_append]
      exact .yield (by simp [Chain.map, given]) inductionHypothesis

theorem peek (holds : chain.Holds state flow) (observer : α → List ε) :
    (chain.peek observer).Holds state (flow.peek observer) :=
  holds.map _

/-- What is left of an expansion is given before the chain is pulled again. -/
theorem afterItems {expander : α → Traced ε (List β)} {inner : Option chain.State}
    {rest : Unit → Flow ε β} (holds : (chain.flatMap expander).Holds ([], inner) (rest ()))
    (values : List β) :
    (chain.flatMap expander).Holds (values, inner) (.afterItems values rest) := by
  induction values with
  | nil => exact holds
  | cons value values inductionHypothesis => exact .element rfl inductionHypothesis

theorem flatMap (holds : chain.Holds state flow) (expander : α → Traced ε (List β)) :
    (chain.flatMap expander).Holds ([], some state) (flow.flatMap expander) := by
  induction holds with
  | @done state next ended spent =>
      have last : (chain.flatMap expander).step ([], some state) = .done ([], none) := by
        simp [Chain.flatMap, ended]
      exact .done last (.of_fixed rfl)
  | skip silent holds inductionHypothesis =>
      rw [Flow.flatMap_afterCalls]
      exact .skip (by simp [Chain.flatMap, silent]) inductionHypothesis
  | yield given holds inductionHypothesis =>
      rw [Flow.flatMap_afterCalls, Flow.flatMap]
      simp only [Flow.precede_eq_afterCalls, Flow.supply_eq_afterItems]
      rw [← Flow.afterCalls_append]
      exact .skip (by simp [Chain.flatMap, given]) (inductionHypothesis.afterItems _)

theorem distinctAfter [DecidableEq α] (holds : chain.Holds state flow) (seen : List α) :
    chain.distinct.Holds (seen, state) (flow.distinctAfter seen) := by
  have ends (seen : List α) (state next : chain.State) (ended : chain.step state = .done next) :
      chain.distinct.step (seen, state) = .done (seen, next) := by
    simp [Chain.distinct, ended]
  induction holds generalizing seen with
  | done ended spent =>
      exact .done (ends seen _ _ ended)
        (Spent.lift chain chain.distinct (seen, ·) (ends seen) spent)
  | skip silent holds inductionHypothesis =>
      rw [Flow.distinctAfter_afterCalls]
      exact .skip (by simp [Chain.distinct, silent]) (inductionHypothesis seen)
  | @yield state next calls value rest given holds inductionHypothesis =>
      rw [Flow.distinctAfter_afterCalls, Flow.distinctAfter]
      by_cases known : value ∈ seen
      · simp only [known, if_true]
        exact .skip (by simp [Chain.distinct, given, known]) (inductionHypothesis seen)
      · simp only [known, if_false]
        exact .yield (by simp [Chain.distinct, given, known]) (inductionHypothesis _)

theorem giving {order : α → α → Ordering} (values : List α) :
    (chain.sorted order).Holds (.giving values) (.ofList values) := by
  induction values with
  | nil => exact .done rfl (.of_fixed rfl)
  | cons value values inductionHypothesis => exact .element rfl inductionHypothesis

theorem sortedAfter (holds : chain.Holds state flow) (order : α → α → Ordering)
    (taken : List α) :
    (chain.sorted order).Holds (.taking taken state) (flow.sortedAfter order taken) := by
  induction holds generalizing taken with
  | @done state next ended spent =>
      have last : (chain.sorted order).step (.taking taken state) =
          .skip [] (.giving (Flow.sortList order taken.reverse)) := by
        simp [Chain.sorted, ended]
      exact quiet last (giving _)
  | skip silent holds inductionHypothesis =>
      rw [Flow.sortedAfter_afterCalls]
      exact .skip (by simp [Chain.sorted, silent]) (inductionHypothesis taken)
  | yield given holds inductionHypothesis =>
      rw [Flow.sortedAfter_afterCalls, Flow.sortedAfter]
      exact .skip (by simp [Chain.sorted, given]) (inductionHypothesis _)

/-- A limit stays at its end, be it because its pulls are used up or because nothing is left of the
chain it pulls on. Pulls that find nothing are used up as well. -/
theorem spent_limit (spent : chain.Spent state) (width left : Nat) :
    (chain.limit width).Spent (left, state) := by
  obtain ⟨ended, here, closed⟩ := spent
  refine ⟨fun limited => ended limited.2, here, ?_⟩
  rintro ⟨left, state⟩ here
  cases left with
  | zero => exact ⟨(0, state), rfl, here⟩
  | succ left =>
      obtain ⟨next, step, there⟩ := closed state here
      exact ⟨(left, next), by simp [Chain.limit, step], there⟩

theorem takeMore (holds : chain.Holds state flow) (width more : Nat) :
    (chain.limit width).Holds (more + 1, state) (flow.takeMore more) := by
  induction holds generalizing more with
  | @done state next ended spent =>
      have last : (chain.limit width).step (more + 1, state) = .done (more, next) := by
        simp [Chain.limit, ended]
      exact .done last (spent_limit spent width more)
  | skip silent holds inductionHypothesis =>
      rw [Flow.takeMore_afterCalls]
      exact .skip (by simp [Chain.limit, silent]) (inductionHypothesis more)
  | @yield state next calls value rest given holds inductionHypothesis =>
      have step : (chain.limit width).step (more + 1, state) =
          .yield calls value (more, next) := by
        simp [Chain.limit, given]
      rw [Flow.takeMore_afterCalls]
      cases more with
      | zero => exact .yield step (.done rfl (.of_fixed rfl))
      | succ more => exact .yield step (inductionHypothesis more)

theorem limit {flow : Unit → Flow ε α} (holds : chain.Holds state (flow ())) (width left : Nat) :
    (chain.limit width).Holds (left, state) (Flow.limit left flow) := by
  cases left with
  | zero => exact .done rfl (.of_fixed rfl)
  | succ more => exact holds.takeMore width more

theorem skipping (holds : chain.Holds state flow) (dropped left : Nat) :
    (chain.skip dropped).Holds (left, state) (flow.skip left) := by
  have ends (left : Nat) (state next : chain.State) (ended : chain.step state = .done next) :
      (chain.skip dropped).step (left, state) = .done (0, next) := by
    simp [Chain.skip, ended]
  induction holds generalizing left with
  | done ended spent =>
      exact .done (ends left _ _ ended)
        (Spent.lift chain (chain.skip dropped) (0, ·) (ends 0) spent)
  | skip silent holds inductionHypothesis =>
      rw [Flow.skip_afterCalls]
      exact .skip (by simp [Chain.skip, silent]) (inductionHypothesis left)
  | @yield state next calls value rest given holds inductionHypothesis =>
      rw [Flow.skip_afterCalls]
      cases left with
      | zero =>
          have step : (chain.skip dropped).step (0, state) = .yield calls value (0, next) := by
            simp [Chain.skip, given]
          refine .yield step ?_
          simpa using inductionHypothesis 0
      | succ left =>
          exact .skip (by simp [Chain.skip, given]) (inductionHypothesis left)

end Holds

end Chain

end Flowpress
