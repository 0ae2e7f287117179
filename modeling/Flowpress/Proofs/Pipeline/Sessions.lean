import Flowpress.Pipeline.Session
import Mathlib.Tactic.SplitIfs

/-!
# What a step does with a session

A step leaves a session as it is, or makes a view, or duplicates a handle, or sets the
flag of a view and runs it; `Effect` says which, and what is said here of single steps
follows from it. Flags are set by the steps that ask to run a view, and by no others.
-/

namespace Flowpress

/-- The slot whose view a step asks to run, if it asks for one. -/
def Step.claims : Step → Option String
  | .terminal origin _ => some origin
  | .race origin (_ + 1) => some origin
  | _ => none

/-- A view is run by terminal operations and by requests that race for it. -/
theorem Step.claims_eq_some_iff (step : Step) (slot : String) :
    step.claims = some slot ↔
      (∃ operation, step = .terminal slot operation) ∨
        ∃ requests, step = .race slot (requests + 1) := by
  cases step with
  | race origin requests => cases requests <;> simp [claims]
  | _ => simp [claims]

/-- What a step that asks to run a view gives if it is granted the view. -/
def Step.gives {type : ElementType} (view : View Event type) : Step → Option (Traced Event Answer)
  | .terminal _ operation => some (Session.runTerminal view operation)
  | .race _ (requests + 1) => some (Session.runRace view requests)
  | _ => none

namespace Session

/-! ## Programs -/

theorem after_append (session : Session) (program later : List Step) :
    session.after (program ++ later) = (session.after program).after later :=
  List.foldl_append

theorem after_concat (session : Session) (program : List Step) (step : Step) :
    session.after (program ++ [step]) = ((session.after program).step step).1 := by
  rw [after_append]
  rfl

theorem run_cons (session : Session) (step : Step) (later : List Step) :
    session.run (step :: later) = (session.step step).2 :: (session.step step).1.run later :=
  rfl

theorem run_append (session : Session) (program later : List Step) :
    session.run (program ++ later) = session.run program ++ (session.after program).run later := by
  induction program generalizing session with
  | nil => rfl
  | cons step program inductionHypothesis =>
      rw [List.cons_append, run_cons, run_cons, inductionHypothesis]
      rfl

/-- The last answer of a program is that of its last step. -/
theorem getLast?_run_concat (session : Session) (program : List Step) (step : Step) :
    (session.run (program ++ [step])).getLast? = some ((session.after program).step step).2 := by
  rw [run_append, run_cons, run, List.getLast?_concat]

/-! ## Parts of steps -/

variable {session : Session} {step : Step} {slot : String} {handle : Handle}

/-- What a slot holds after another handle is stored. -/
theorem lookup_store (session : Session) (slot other : String) (handle : Handle) :
    (session.store slot handle).slots.lookup other =
      if other = slot then some handle else session.slots.lookup other := by
  have kept (entries : List (String × Handle)) (differs : other ≠ slot) :
      (entries.filter fun entry => entry.1 != slot).lookup other = entries.lookup other := by
    induction entries with
    | nil => rfl
    | cons entry entries inductionHypothesis =>
        rw [List.filter_cons, List.lookup_cons]
        split_ifs with stays
        · rw [List.lookup_cons, inductionHypothesis]
        · have same : entry.1 = slot := by simpa using stays
          rw [inductionHypothesis, same, beq_false_of_ne differs]
  rw [store, List.lookup_cons]
  split_ifs with same
  · simp [same]
  · rw [beq_false_of_ne same]
    exact kept session.slots same

theorem derive_of_consumed {session : Session} {handle : Handle}
    (consumed : session.isConsumed handle.flag = true) (target : String) {type : ElementType}
    (view : View Event type) :
    session.derive target handle view = (session, .refused .alreadyConsumed) := by
  simp [derive, Consumption.access, consumed]

theorem derive_of_unconsumed {session : Session} {handle : Handle}
    (unconsumed : session.isConsumed handle.flag = false) (target : String) {type : ElementType}
    (view : View Event type) :
    session.derive target handle view = session.make target type view := by
  simp [derive, Consumption.access, unconsumed]

theorem withHandle_of_lookup {session : Session} {slot : String} {handle : Handle}
    (holds : session.slots.lookup slot = some handle)
    (use : Handle → Session × Traced Event Answer) : session.withHandle slot use = use handle := by
  rw [withHandle, holds]

theorem withHandle_of_empty {session : Session} {slot : String}
    (empty : session.slots.lookup slot = none)
    (use : Handle → Session × Traced Event Answer) :
    session.withHandle slot use = (session, .silent .noSuchView) := by
  rw [withHandle, empty]

theorem accesses_terminate_of_consumed (requests : Nat) :
    Consumption.accesses true (List.replicate requests .terminate) =
      (List.replicate requests false, true) := by
  induction requests with
  | zero => rfl
  | succ requests inductionHypothesis =>
      simp [List.replicate_succ, Consumption.accesses, Consumption.access, inductionHypothesis]

/-- Of several requests to run a view the first is granted. -/
theorem accesses_terminate (requests : Nat) :
    Consumption.accesses false (List.replicate (requests + 1) .terminate) =
      (true :: List.replicate requests false, true) := by
  simp [List.replicate_succ, Consumption.accesses, Consumption.access,
    accesses_terminate_of_consumed]

theorem terminate_of_consumed (consumed : session.isConsumed handle.flag = true)
    (terminal : Terminal) :
    session.terminate handle terminal = (session, .silent (.refused .alreadyConsumed)) := by
  simp [terminate, Consumption.access, consumed]

theorem terminate_of_unconsumed (unconsumed : session.isConsumed handle.flag = false)
    (terminal : Terminal) :
    session.terminate handle terminal =
      ({ session with consumed := handle.flag :: session.consumed },
        runTerminal handle.view terminal) := by
  simp [terminate, Consumption.access, unconsumed]

theorem race_of_consumed (consumed : session.isConsumed handle.flag = true) (requests : Nat) :
    session.race handle requests = (session, .silent (.raced requests [])) := by
  simp [race, consumed, accesses_terminate_of_consumed]

theorem race_zero (session : Session) (handle : Handle) :
    session.race handle 0 = (session, .silent (.raced 0 [])) := by
  simp [race, Consumption.accesses]

theorem race_of_unconsumed (unconsumed : session.isConsumed handle.flag = false)
    (requests : Nat) :
    session.race handle (requests + 1) =
      ({ session with consumed := handle.flag :: session.consumed },
        runRace handle.view requests) := by
  simp [race, unconsumed, accesses_terminate]

/-! ## Steps -/

/-- What a step does with a session: nothing at all, or it makes a view, duplicates a handle, or
sets the flag of a view and runs it. -/
inductive Effect (session : Session) : Step → Session × Traced Event Answer → Prop where
  | nothing (step : Step) (answer : Answer) : Effect session step (session, .silent answer)
  | view (step : Step) (target : String) {type : ElementType} (view : View Event type) :
      Effect session step (silent (session.make target type view))
  | handle {origin : String} {handle : Handle} (target : String)
      (holds : session.slots.lookup origin = some handle) :
      Effect session (.duplicate origin target) (session.store target handle,
        .silent (.made handle.type handle.view.length (session.isConsumed handle.flag)))
  | terminal {origin : String} {handle : Handle} (terminal : Terminal)
      (holds : session.slots.lookup origin = some handle)
      (unconsumed : session.isConsumed handle.flag = false) :
      Effect session (.terminal origin terminal)
        ({ session with consumed := handle.flag :: session.consumed },
          runTerminal handle.view terminal)
  | race {origin : String} {handle : Handle} (requests : Nat)
      (holds : session.slots.lookup origin = some handle)
      (unconsumed : session.isConsumed handle.flag = false) :
      Effect session (.race origin (requests + 1))
        ({ session with consumed := handle.flag :: session.consumed },
          runRace handle.view requests)

theorem effect_withHandle {slot : String} {use : Handle → Session × Traced Event Answer}
    (next : ∀ handle, session.slots.lookup slot = some handle → session.Effect step (use handle)) :
    session.Effect step (session.withHandle slot use) := by
  cases holds : session.slots.lookup slot with
  | none =>
      rw [withHandle_of_empty holds]
      exact .nothing step _
  | some handle =>
      rw [withHandle_of_lookup holds]
      exact next handle holds

theorem effect_derive (step : Step) (target : String) (handle : Handle) {type : ElementType}
    (view : View Event type) :
    session.Effect step (silent (session.derive target handle view)) := by
  cases consumed : session.isConsumed handle.flag with
  | true =>
      rw [derive_of_consumed consumed]
      exact .nothing step _
  | false =>
      rw [derive_of_unconsumed consumed]
      exact .view step target view

theorem effect_step (session : Session) (step : Step) :
    session.Effect step (session.step step) := by
  cases step with
  | source target type origin => exact .view _ target _
  | append origin target action =>
      exact effect_withHandle fun handle _ => effect_derive _ target handle _
  | appendKind origin target kind transform =>
      refine effect_withHandle fun handle _ => ?_
      cases Action.ofTransform kind (transform handle.type) with
      | error error => exact .nothing _ _
      | ok action => exact effect_derive _ target handle _
  | duplicate origin target => exact effect_withHandle fun handle holds => .handle target holds
  | mapTo origin target outer mapper =>
      exact effect_withHandle fun handle _ => effect_derive _ target handle _
  | terminal origin terminal =>
      refine effect_withHandle fun handle holds => ?_
      cases consumed : session.isConsumed handle.flag with
      | true =>
          rw [terminate_of_consumed consumed]
          exact .nothing _ _
      | false =>
          rw [terminate_of_unconsumed consumed]
          exact .terminal terminal holds consumed
  | race origin requests =>
      refine effect_withHandle fun handle holds => ?_
      cases consumed : session.isConsumed handle.flag with
      | true =>
          rw [race_of_consumed consumed]
          exact .nothing _ _
      | false =>
          cases requests with
          | zero =>
              rw [race_zero]
              exact .nothing _ _
          | succ requests =>
              rw [race_of_unconsumed consumed]
              exact .race requests holds consumed
  | inspect origin => exact effect_withHandle fun handle _ => .nothing _ _

/-- After a step a slot holds the handle it held, or it has been given a duplicate of one, or a view
with a flag of its own. -/
theorem lookup_step (session : Session) (step : Step) {slot : String} {handle : Handle}
    (holds : (session.step step).1.slots.lookup slot = some handle) :
    session.slots.lookup slot = some handle ∨
      (∃ origin, step = .duplicate origin slot ∧ session.slots.lookup origin = some handle) ∨
      handle.flag = session.nextFlag := by
  revert holds
  generalize stepped : session.step step = after
  obtain effect := stepped ▸ session.effect_step step
  cases effect with
  | nothing | terminal | race => exact .inl
  | view _ target view =>
      intro holds
      replace holds : (session.store target ⟨_, view, session.nextFlag⟩).slots.lookup slot =
        some handle := holds
      rw [lookup_store] at holds
      split_ifs at holds with same
      · exact .inr (.inr (by rw [← Option.some.inj holds]))
      · exact .inl holds
  | @handle origin copied target there =>
      intro holds
      rw [lookup_store] at holds
      split_ifs at holds with same
      · exact .inr (.inl ⟨origin, by rw [same], by rw [there, holds]⟩)
      · exact .inl holds

theorem isConsumed_cons (session : Session) (set flag : Nat) :
    ({ session with consumed := set :: session.consumed } : Session).isConsumed flag = true ↔
      flag = set ∨ session.isConsumed flag = true := by
  simp [isConsumed]

/-- A step that asks to run a view leaves it consumed. -/
theorem isConsumed_of_claims (claims : step.claims = some slot)
    (holds : session.slots.lookup slot = some handle) :
    (session.step step).1.isConsumed handle.flag = true := by
  rcases (step.claims_eq_some_iff slot).mp claims with ⟨terminal, rfl⟩ | ⟨requests, rfl⟩
  · rw [Session.step, withHandle_of_lookup holds]
    cases consumed : session.isConsumed handle.flag with
    | true => rwa [terminate_of_consumed consumed]
    | false =>
        rw [terminate_of_unconsumed consumed, isConsumed_cons]
        exact .inl rfl
  · rw [Session.step, withHandle_of_lookup holds]
    cases consumed : session.isConsumed handle.flag with
    | true => rwa [race_of_consumed consumed]
    | false =>
        rw [race_of_unconsumed consumed, isConsumed_cons]
        exact .inl rfl

/-- The answer to a step that is granted a view depends on the view alone. -/
theorem gives_of_claims (claims : step.claims = some slot)
    (holds : session.slots.lookup slot = some handle)
    (unconsumed : session.isConsumed handle.flag = false) :
    step.gives handle.view = some (session.step step).2 := by
  rcases (step.claims_eq_some_iff slot).mp claims with ⟨terminal, rfl⟩ | ⟨requests, rfl⟩
  · rw [Session.step, withHandle_of_lookup holds, terminate_of_unconsumed unconsumed, Step.gives]
  · rw [Session.step, withHandle_of_lookup holds, race_of_unconsumed unconsumed, Step.gives]

/-- A flag is set after a step exactly if it was before, or the step asks to run a view that has the
flag. -/
theorem isConsumed_step (session : Session) (step : Step) (flag : Nat) :
    (session.step step).1.isConsumed flag = true ↔ session.isConsumed flag = true ∨
      ∃ slot handle, step.claims = some slot ∧ session.slots.lookup slot = some handle ∧
        handle.flag = flag := by
  constructor
  · generalize stepped : session.step step = after
    have effect := stepped ▸ session.effect_step step
    intro set
    cases effect with
    | nothing | view | handle => exact .inl set
    | @terminal origin handle terminal holds =>
        rcases (isConsumed_cons session handle.flag flag).mp set with rfl | before
        · exact .inr ⟨origin, handle, rfl, holds, rfl⟩
        · exact .inl before
    | @race origin handle requests holds =>
        rcases (isConsumed_cons session handle.flag flag).mp set with rfl | before
        · exact .inr ⟨origin, handle, rfl, holds, rfl⟩
        · exact .inl before
  · rintro (before | ⟨slot, handle, claims, holds, rfl⟩)
    · generalize stepped : session.step step = after
      have effect := stepped ▸ session.effect_step step
      cases effect with
      | nothing | view | handle => exact before
      | terminal | race => exact (isConsumed_cons session _ flag).mpr (.inr before)
    · exact isConsumed_of_claims claims holds

/-- The only refusal that a terminal operation itself gives is that of a sum. -/
theorem runTerminal_refused {type : ElementType} {view : View Event type} {terminal : Terminal}
    {error : PipelineError} (refused : (runTerminal view terminal).value = .refused error) :
    terminal = .sum ∧ error = .sumOverflow type := by
  cases terminal with
  | sum =>
      rw [runTerminal, View.sum] at refused
      simp only [Traced.map] at refused
      split at refused
      · next total found => cases refused
      · next overflow found =>
          refine ⟨rfl, ?_⟩
          split at found
          · cases found
          · cases found
            cases refused
            rfl
  | _ => cases refused

/-- A step that is refused changes nothing and calls nothing, except that a sum which is out of
range has run. -/
theorem refused_step (session : Session) (step : Step) {error : PipelineError}
    (refused : (session.step step).2.value = .refused error) :
    session.step step = (session, .silent (.refused error)) ∨
      ∃ slot handle, step = .terminal slot .sum ∧ session.slots.lookup slot = some handle ∧
        error = .sumOverflow handle.type ∧
        (session.step step).1.isConsumed handle.flag = true := by
  revert refused
  generalize stepped : session.step step = after
  have effect := stepped ▸ session.effect_step step
  intro refused
  cases effect with
  | nothing answer => exact .inl (by rw [← refused]; rfl)
  | view | handle => cases refused
  | @terminal origin handle terminal holds =>
      obtain ⟨rfl, rfl⟩ := runTerminal_refused refused
      exact .inr ⟨origin, handle, rfl, holds, rfl, (isConsumed_cons session _ _).mpr (.inl rfl)⟩
  | race requests =>
      rw [runRace, Traced.map] at refused
      dsimp only at refused
      split at refused <;> cases refused

end Session
end Flowpress
