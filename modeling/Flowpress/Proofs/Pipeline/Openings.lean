import Flowpress.Proofs.Pipeline.Sessions
import Flowpress.Proofs.Pipeline.Sources

/-!
# When a producer is called

A producer is called when a view that goes back to it is run, and at no other time.
To tell its calls from all others, every producer of a program is given a mark that
it records first whenever it is called. Then the answer to running a view has one
mark more than without, that of the producer the view goes back to, in front of all
other calls; and no other answer has a mark.

The sessions of a program agree whatever the marks are: their slots hold the same
continuations of the same sources. This is an invariant of the steps, and a view that
is run goes back to the source that it says.
-/

namespace Flowpress

variable {ε α : Type} {type : ElementType}

/-! ## Marks -/

namespace Source

/-- The source with a producer that records a mark first. -/
def marked (mark : List ε) : Source ε α → Source ε α
  | .generated calls elements => .generated (mark ++ calls) elements
  | source => source

/-- The marks that are recorded when the source is asked for its elements once: one if that calls a
producer, and none otherwise. -/
def marks (mark : List ε) : Source ε α → List ε
  | .generated .. => mark
  | _ => []

@[simp] theorem marked_nil (source : Source ε α) : source.marked [] = source := by
  cases source <;> rfl

theorem start_marked (mark : List ε) (source : Source ε α) :
    (source.marked mark).start = source.start.behind (source.marks mark) := by
  cases source <;> rfl

end Source

/-- The step with a producer that records a mark first, if it is about a producer. -/
def Step.marked (mark : List Event) : Step → Step
  | .source target type origin => .source target type (origin.marked mark)
  | step => step

@[simp] theorem Step.claims_marked (mark : List Event) (step : Step) :
    (step.marked mark).claims = step.claims := by
  cases step <;> rfl

@[simp] theorem Step.gives_marked (mark : List Event) (view : View Event type) (step : Step) :
    (step.marked mark).gives view = step.gives view := by
  cases step <;> rfl

@[simp] theorem Step.marked_nil (step : Step) : step.marked [] = step := by
  cases step with
  | source target type origin => rw [marked, Source.marked_nil]
  | _ => rfl

/-- The program in which the producer of each step records the mark of its place first. -/
def Step.allMarked (mark : Nat → List Event) (program : List Step) : List Step :=
  program.mapIdx fun place step => step.marked (mark place)

theorem Step.allMarked_concat (mark : Nat → List Event) (program : List Step) (step : Step) :
    allMarked mark (program ++ [step]) =
      allMarked mark program ++ [step.marked (mark program.length)] :=
  List.mapIdx_concat

/-- Marks that are empty change nothing. -/
theorem Step.allMarked_nil (program : List Step) : allMarked (fun _ => []) program = program :=
  List.ext_getElem (by simp [allMarked]) fun place _ _ => by simp [allMarked]

namespace View.AnswersBehind

variable {opening : List Event} {one other : View Event type}

theorem runTerminal (answers : AnswersBehind opening one other) (terminal : Terminal) :
    Session.runTerminal one terminal = (Session.runTerminal other terminal).behind opening := by
  cases terminal with
  | collect =>
      rw [Session.runTerminal, answers.collect]
      rfl
  | count =>
      rw [Session.runTerminal, answers.count]
      rfl
  | first =>
      rw [Session.runTerminal, answers.first]
      rfl
  | sum =>
      rw [Session.runTerminal, answers.sum]
      rfl
  | forEach =>
      rw [Session.runTerminal, answers.forEach]
      rfl
  | pulls count =>
      rw [Session.runTerminal, answers.pulls]
      rfl

theorem runRace (answers : AnswersBehind opening one other) (refused : Nat) :
    Session.runRace one refused = (Session.runRace other refused).behind opening := by
  rw [Session.runRace, answers.sum]
  rfl

/-- A step gives the same on both views, but for the calls of opening. -/
theorem gives (answers : AnswersBehind opening one other) (step : Step) :
    step.gives one = (step.gives other).map (Traced.behind opening) := by
  cases step with
  | terminal origin operation => exact congrArg some (answers.runTerminal operation)
  | race origin requests =>
      cases requests with
      | zero => rfl
      | succ requests => exact congrArg some (answers.runRace requests)
  | _ => rfl

end View.AnswersBehind

/-! ## Where views come from -/

/-- Where a view of a program comes from: the source at some place of the program, and how it is
continued. -/
structure Provenance (program : List Step) where
  place : Nat
  target : String
  origin : ElementType
  source : Source Event origin.Carrier
  stands : program[place]? = some (.source target origin source)
  type : ElementType
  rest : Derivation Event origin type

namespace Provenance

variable {program : List Step}

/-- The view if its producer is marked. -/
def view (provenance : Provenance program) (mark : Nat → List Event) :
    View Event provenance.type :=
  (View.ofSource (provenance.source.marked (mark provenance.place))).derive provenance.rest

def handle (provenance : Provenance program) (flag : Nat) (mark : Nat → List Event) : Handle :=
  ⟨provenance.type, provenance.view mark, flag⟩

/-- The view continued with an action. -/
def append (provenance : Provenance program) (action : Action Event provenance.type.Carrier) :
    Provenance program :=
  { provenance with rest := .append provenance.rest action }

/-- The view continued with elements of another type. -/
def mapTo (provenance : Provenance program) {outer : ElementType}
    (mapper : provenance.type.Carrier → Traced Event outer.Carrier) : Provenance program :=
  { provenance with type := outer, rest := .mapTo provenance.rest mapper }

/-- The same in a program that has gone on. -/
def later (provenance : Provenance program) (step : Step) : Provenance (program ++ [step]) :=
  { provenance with
    stands := by
      rw [List.getElem?_append_left (List.getElem?_eq_some_iff.mp provenance.stands).1,
        provenance.stands] }

/-- Without a mark it is the view itself. -/
theorem view_nil (provenance : Provenance program) :
    provenance.view (fun _ => []) = (View.ofSource provenance.source).derive provenance.rest := by
  rw [view, Source.marked_nil]

/-- A marked view gives what it gives otherwise, behind the mark of its producer. -/
theorem answersBehind (provenance : Provenance program) (mark : Nat → List Event) :
    View.AnswersBehind (provenance.source.marks (mark provenance.place)) (provenance.view mark)
      (provenance.view fun _ => []) := by
  have same := provenance.source.start_marked (mark provenance.place)
  rw [view_nil]
  exact ((View.Alike.ofSource same).derive provenance.rest).answersBehind

end Provenance

namespace Session

/-! ## Steps that are granted a view -/

/-- The handle of the view that a step runs: the step asks to run it, and it is not consumed. -/
def granted (session : Session) (step : Step) : Option Handle :=
  step.claims.bind fun slot =>
    (session.slots.lookup slot).filter fun handle => !session.isConsumed handle.flag

theorem granted_eq_some_iff (session : Session) (step : Step) (handle : Handle) :
    session.granted step = some handle ↔ ∃ slot, step.claims = some slot ∧
      session.slots.lookup slot = some handle ∧ session.isConsumed handle.flag = false := by
  simp [granted, Option.bind_eq_some_iff, Option.filter_eq_some_iff]

theorem gives_of_granted {session : Session} {step : Step} {handle : Handle}
    (granted : session.granted step = some handle) :
    step.gives handle.view = some (session.step step).2 := by
  obtain ⟨slot, claims, holds, unconsumed⟩ := (granted_eq_some_iff session step handle).mp granted
  exact gives_of_claims claims holds unconsumed

@[simp] theorem granted_marked (session : Session) (mark : List Event) (step : Step) :
    session.granted (step.marked mark) = session.granted step := by
  rw [granted, granted, Step.claims_marked]

/-- A step that is granted no view makes no call. -/
theorem calls_of_not_granted {session : Session} {step : Step}
    (refused : session.granted step = none) : (session.step step).2.calls = [] := by
  revert refused
  generalize stepped : session.step step = after
  have effect := stepped ▸ session.effect_step step
  intro refused
  cases effect with
  | nothing | view | handle => rfl
  | terminal terminal holds unconsumed | race requests holds unconsumed =>
      simp [granted, Step.claims, holds, unconsumed] at refused

/-- A terminal operation on a view is refused as consumed exactly if it is not granted the view. -/
theorem not_granted_iff {session : Session} {slot : String} {handle : Handle}
    (holds : session.slots.lookup slot = some handle) (terminal : Terminal) :
    session.granted (.terminal slot terminal) = none ↔
      (session.step (.terminal slot terminal)).2.value = .refused .alreadyConsumed := by
  rw [Session.step, withHandle_of_lookup holds]
  cases consumed : session.isConsumed handle.flag with
  | true =>
      rw [terminate_of_consumed consumed]
      simp [granted, Step.claims, holds, consumed, Traced.silent]
  | false =>
      rw [terminate_of_unconsumed consumed]
      constructor
      · intro refused
        simp [granted, Step.claims, holds, consumed] at refused
      · intro refused
        obtain ⟨-, error⟩ := runTerminal_refused refused
        cases error

/-! ## Sessions under all marks -/

/-- What the sessions of a program have in common whatever the marks are: each slot holds a handle
of one flag, to one continuation of one source, or holds nothing, and the same flags are set. -/
structure Agree (program : List Step) (sessions : (Nat → List Event) → Session) : Prop where
  handles (slot : String) : ∃ held : Option (Provenance program × Nat), ∀ mark,
    (sessions mark).slots.lookup slot =
      held.map fun (provenance, flag) => provenance.handle flag mark
  consumed : ∃ consumed, ∀ mark, (sessions mark).consumed = consumed
  nextFlag : ∃ nextFlag, ∀ mark, (sessions mark).nextFlag = nextFlag

namespace Agree

variable {program : List Step} {sessions : (Nat → List Event) → Session}

theorem later (agree : Agree program sessions) (step : Step) :
    Agree (program ++ [step]) sessions where
  handles slot := by
    obtain ⟨held, holds⟩ := agree.handles slot
    refine ⟨held.map fun (provenance, flag) => (provenance.later step, flag), fun mark => ?_⟩
    rw [holds, Option.map_map]
    rfl
  consumed := agree.consumed
  nextFlag := agree.nextFlag

theorem store (agree : Agree program sessions) (target : String) (provenance : Provenance program)
    (flag : Nat) :
    Agree program fun mark => (sessions mark).store target (provenance.handle flag mark) where
  handles slot := by
    by_cases same : slot = target
    · exact ⟨some (provenance, flag), fun mark => by rw [lookup_store, if_pos same]; rfl⟩
    · obtain ⟨held, holds⟩ := agree.handles slot
      exact ⟨held, fun mark => by rw [lookup_store, if_neg same, holds]⟩
  consumed := agree.consumed
  nextFlag := agree.nextFlag

theorem make (agree : Agree program sessions) (target : String)
    (provenance : Provenance program) :
    Agree program fun mark =>
      ((sessions mark).make target provenance.type (provenance.view mark)).1 := by
  obtain ⟨flag, next⟩ := agree.nextFlag
  obtain ⟨handles, consumed, -⟩ := agree.store target provenance flag
  refine ⟨fun slot => ?_, consumed, flag + 1, fun mark => congrArg (· + 1) (next mark)⟩
  obtain ⟨held, holds⟩ := handles slot
  refine ⟨held, fun mark => ?_⟩
  rw [← holds mark, Provenance.handle, ← next mark]
  rfl

/-- The same flags are set. -/
theorem isConsumed_eq (agree : Agree program sessions) (one other : Nat → List Event)
    (flag : Nat) : (sessions one).isConsumed flag = (sessions other).isConsumed flag := by
  obtain ⟨consumed, same⟩ := agree.consumed
  rw [isConsumed, isConsumed, same, same]

/-- A handle is consumed in all sessions or in none. -/
theorem isConsumed_cases (agree : Agree program sessions) (provenance : Provenance program)
    (flag : Nat) :
    (∀ mark, (sessions mark).isConsumed (provenance.handle flag mark).flag = true) ∨
      ∀ mark, (sessions mark).isConsumed (provenance.handle flag mark).flag = false := by
  cases set : (sessions fun _ => []).isConsumed flag with
  | true => exact .inl fun mark => (agree.isConsumed_eq mark _ flag).trans set
  | false => exact .inr fun mark => (agree.isConsumed_eq mark _ flag).trans set

theorem consume (agree : Agree program sessions) (flag : Nat) :
    Agree program fun mark =>
      { sessions mark with consumed := flag :: (sessions mark).consumed } := by
  obtain ⟨consumed, same⟩ := agree.consumed
  exact ⟨agree.handles, ⟨flag :: consumed, fun mark => congrArg (flag :: ·) (same mark)⟩,
    agree.nextFlag⟩

theorem derive (agree : Agree program sessions) (target : String)
    (provenance continued : Provenance program) (flag : Nat) :
    Agree program fun mark =>
      ((sessions mark).derive target (provenance.handle flag mark) (continued.view mark)).1 := by
  rcases agree.isConsumed_cases provenance flag with consumed | unconsumed
  · simpa only [derive_of_consumed (consumed _)] using agree
  · simpa only [derive_of_unconsumed (unconsumed _)] using agree.make target continued

theorem terminate (agree : Agree program sessions) (provenance : Provenance program) (flag : Nat)
    (terminal : Terminal) :
    Agree program fun mark =>
      ((sessions mark).terminate (provenance.handle flag mark) terminal).1 := by
  rcases agree.isConsumed_cases provenance flag with consumed | unconsumed
  · simpa only [terminate_of_consumed (consumed _)] using agree
  · simp only [terminate_of_unconsumed (unconsumed _)]
    exact agree.consume flag

theorem race (agree : Agree program sessions) (provenance : Provenance program) (flag : Nat)
    (requests : Nat) :
    Agree program fun mark =>
      ((sessions mark).race (provenance.handle flag mark) requests).1 := by
  cases requests with
  | zero => simpa only [race_zero] using agree
  | succ requests =>
      rcases agree.isConsumed_cases provenance flag with consumed | unconsumed
      · simpa only [race_of_consumed (consumed _)] using agree
      · simp only [race_of_unconsumed (unconsumed _)]
        exact agree.consume flag

theorem withHandle (agree : Agree program sessions) (slot : String)
    {use : (Nat → List Event) → Handle → Session × Traced Event Answer}
    (next : ∀ (provenance : Provenance program) (flag : Nat), Agree program fun mark =>
      (use mark (provenance.handle flag mark)).1) :
    Agree program fun mark => ((sessions mark).withHandle slot (use mark)).1 := by
  obtain ⟨held, holds⟩ := agree.handles slot
  cases held with
  | none =>
      have same (mark : Nat → List Event) := withHandle_of_empty (holds mark) (use mark)
      simpa only [same] using agree
  | some pair =>
      have same (mark : Nat → List Event) := withHandle_of_lookup (holds mark) (use mark)
      simpa only [same] using next pair.1 pair.2

/-- A step is granted the same view in all sessions. -/
theorem granted (agree : Agree program sessions) (step : Step) :
    ∃ held : Option (Provenance program × Nat), ∀ mark,
      (sessions mark).granted step =
        held.map fun (provenance, flag) => provenance.handle flag mark := by
  cases claims : step.claims with
  | none => exact ⟨none, fun mark => by rw [Session.granted, claims]; rfl⟩
  | some slot =>
      obtain ⟨held, holds⟩ := agree.handles slot
      cases held with
      | none => exact ⟨none, fun mark => by simp [Session.granted, claims, holds]⟩
      | some pair =>
          obtain ⟨provenance, flag⟩ := pair
          rcases agree.isConsumed_cases provenance flag with consumed | unconsumed
          · exact ⟨none, fun mark => by simp [Session.granted, claims, holds, consumed]⟩
          · refine ⟨some (provenance, flag), fun mark => ?_⟩
            simp [Session.granted, claims, holds, unconsumed]

/-- Every step keeps the sessions in agreement. -/
theorem step (agree : Agree program sessions) (step : Step) :
    Agree (program ++ [step]) fun mark =>
      ((sessions mark).step (step.marked (mark program.length))).1 := by
  replace agree := agree.later step
  cases step with
  | source target type origin =>
      exact agree.make target ⟨program.length, target, type, origin, by simp, type, .here⟩
  | append origin target action =>
      refine agree.withHandle origin fun provenance flag => ?_
      exact agree.derive target provenance (provenance.append (action provenance.type)) flag
  | appendKind origin target kind transform =>
      refine agree.withHandle origin fun provenance flag => ?_
      -- Whether the transform fits is a matter of the element type alone.
      cases made : Action.ofTransform kind (transform provenance.type) with
      | error error => simpa only [Provenance.handle, made] using agree
      | ok action =>
          simp only [Provenance.handle, made]
          exact agree.derive target provenance (provenance.append action) flag
  | duplicate origin target =>
      exact agree.withHandle origin fun provenance flag => agree.store target provenance flag
  | mapTo origin target outer mapper =>
      refine agree.withHandle origin fun provenance flag => ?_
      exact agree.derive target provenance (provenance.mapTo (mapper provenance.type)) flag
  | terminal origin terminal =>
      exact agree.withHandle origin fun provenance flag => agree.terminate provenance flag terminal
  | race origin requests =>
      exact agree.withHandle origin fun provenance flag => agree.race provenance flag requests
  | inspect origin => exact agree.withHandle origin fun _ _ => agree

end Agree

/-- The sessions of a program agree whatever the marks are. -/
theorem agree_after (program : List Step) :
    Agree program fun mark => empty.after (Step.allMarked mark program) := by
  induction program using List.reverseRecOn with
  | nil => exact ⟨fun slot => ⟨none, fun _ => rfl⟩, ⟨[], fun _ => rfl⟩, ⟨0, fun _ => rfl⟩⟩
  | append_singleton program step inductionHypothesis =>
      simpa only [Step.allMarked_concat, after_concat] using inductionHypothesis.step step

/-! ## Runs -/

/-- A producer is called exactly once when a view is run that goes back to it, before any other
call, and at no other time. At any point of a program let each producer record a mark of its own
first whenever it is called. If the next step is granted a view, the view continues a source of the
program, through any actions and changes of the element type, and the answer has the mark of that
source, provided it is a producer, in front of all calls and is otherwise the answer without marks.
This holds of every terminal operation and of requests that race, also of a count that runs less and
of pulls that pull nothing. If the next step is granted no view, it makes no call at all. A terminal
operation on a view is granted it unless it is refused because the view is consumed. -/
theorem producer_called_once (program : List Step) (step : Step) :
    let session := empty.after program
    let answer (mark : Nat → List Event) :=
      ((empty.after (Step.allMarked mark program)).step (step.marked (mark program.length))).2
    (∀ handle, session.granted step = some handle →
      ∃ place target origin, ∃ source : Source Event (ElementType.Carrier origin), ∃ rest,
        program[place]? = some (.source target origin source) ∧
        handle.view = (View.ofSource source).derive rest ∧
        ∀ mark, answer mark = (session.step step).2.behind (source.marks (mark place))) ∧
    (session.granted step = none → ∀ mark, (answer mark).calls = []) ∧
    ∀ slot terminal handle, step = .terminal slot terminal →
      session.slots.lookup slot = some handle →
        (session.granted step = none ↔
          (session.step step).2.value = .refused .alreadyConsumed) := by
  intro session answer
  obtain ⟨held, same⟩ := (agree_after program).granted step
  have plain := same fun _ => []
  rw [Step.allMarked_nil] at plain
  refine ⟨fun handle granted => ?_, fun refused mark => ?_, ?_⟩
  · cases held with
    | none => cases granted.symm.trans plain
    | some pair =>
        obtain ⟨provenance, flag⟩ := pair
        obtain rfl := Option.some.inj (granted.symm.trans plain)
        refine ⟨provenance.place, provenance.target, provenance.origin, provenance.source,
          provenance.rest, provenance.stands, provenance.view_nil, fun mark => ?_⟩
        have behind := (provenance.answersBehind mark).gives step
        have marked : step.gives (provenance.view mark) = some (answer mark) := by
          rw [← gives_of_granted ((granted_marked _ (mark program.length) step).trans (same mark)),
            Step.gives_marked]
          rfl
        have unmarked : step.gives (provenance.view fun _ => []) = some (session.step step).2 :=
          gives_of_granted granted
        rw [marked, unmarked] at behind
        exact Option.some.inj behind
  · have none : held = none := by
      cases held with
      | none => rfl
      | some pair => cases refused.symm.trans plain
    apply calls_of_not_granted
    rw [granted_marked, same, none]
    rfl
  · rintro slot terminal handle rfl holds
    exact not_granted_iff holds terminal

/-- A program that makes a view of produced numbers, continues it behind a sort, counts it, and
keeps the view that continues it. -/
def sortedAndCounted : List Step :=
  [.source "numbers" .int (.produced [.opening "numbers"] [3, 1, 2]),
    .append "numbers" "sorted" fun _ => .sorted none,
    .duplicate "sorted" "again",
    .convert "sorted" "wide" .long none,
    .terminal "again" .count]

/-- A consumer that pulls nothing calls the producer. The view that is counted does not call it
again. -/
theorem sortedAndCounted_openings :
    let session := empty.after sortedAndCounted
    let marked (mark : Nat → List Event) := empty.after (Step.allMarked mark sortedAndCounted)
    (session.granted (.terminal "wide" (.pulls 0)) ≠ none ∧ ∀ mark,
      ((marked mark).step (.terminal "wide" (.pulls 0))).2.calls = mark 0 ++ [.opening "numbers"]) ∧
    (session.granted (.terminal "sorted" .collect) = none ∧ ∀ mark,
      ((marked mark).step (.terminal "sorted" .collect)).2.calls = []) ∧
    (session.step (.terminal "sorted" .collect)).2.value = .refused .alreadyConsumed := by
  intro session marked
  obtain ⟨calls, -, -⟩ := producer_called_once sortedAndCounted (.terminal "wide" (.pulls 0))
  obtain ⟨-, silent, refused⟩ := producer_called_once sortedAndCounted (.terminal "sorted" .collect)
  refine ⟨⟨nofun, fun mark => ?_⟩, ⟨rfl, silent rfl⟩, (refused _ _ _ rfl rfl).mp rfl⟩
  obtain ⟨place, target, origin, source, rest, stands, -, same⟩ := calls _ rfl
  refine (congrArg Traced.calls (same mark)).trans ?_
  -- The only source of the program is its first step.
  rcases place with _ | _ | _ | _ | _ | place
  · cases stands
    rfl
  all_goals cases stands

end Session
end Flowpress
