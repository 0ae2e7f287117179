import Flowpress.Proofs.Pipeline.Ancestry

/-!
# Views do not interfere

Whatever else happens in a session, a view shows the steps of its own ancestry and
nothing else, and the one step that runs it gets the answer it would get in a session
in which only those steps are taken. All that steps on other views can do to a view
is to run another handle of it: flags are set by terminal operations alone, are
never cleared, and are shared by duplicates alone. A refused step leaves the session
as it is.
-/

namespace Flowpress.Session

variable {session : Session} {step : Step} {slot : String} {handle : Handle}

/-! ## Running a view -/

/-- A step gets the answer of the session in which the view of its slot is the only one. -/
theorem answer_of_ancestry {type : ElementType} {ancestry : Ancestry type} {flag : Nat}
    (claims : step.claims = some slot)
    (holds : session.slots.lookup slot = some ⟨type, ancestry.view, flag⟩)
    (unconsumed : session.isConsumed flag = false) :
    (empty.run (ancestry.program slot ++ [step])).getLast? = some (session.step step).2 := by
  obtain ⟨flagThere, alone⟩ := after_program slot ancestry
  have there : (empty.after (ancestry.program slot)).slots.lookup slot =
      some ⟨type, ancestry.view, flagThere⟩ := by
    simp [alone, single]
  have unconsumedThere : (empty.after (ancestry.program slot)).isConsumed flagThere = false := by
    rw [alone]
    rfl
  rw [getLast?_run_concat, ← gives_of_claims claims there unconsumedThere,
    ← gives_of_claims claims holds unconsumed]

/-! ## A view among others -/

/-- What a session owes a view in a slot: it shows the steps of its ancestry, as far as they are
asked for, and the step that runs it gets the answer of a session in which no other step is taken.
-/
structure Isolates (session : Session) (slot : String) {type : ElementType}
    (view : View Event type) (flag : Nat) (ancestry : Ancestry type) : Prop where
  actions : view.actions = ancestry.actions
  length : view.length = ancestry.actions.length
  steps : view.steps = ancestry.steps
  inspected : session.inspect ⟨type, view, flag⟩ =
    ⟨type, ancestry.actions.length, session.isConsumed flag, ancestry.actions.map Action.spell,
      ancestry.steps⟩
  answered : session.isConsumed flag = false → ∀ step : Step, step.claims = some slot →
    (empty.run (ancestry.program slot ++ [step])).getLast? = some (session.step step).2
  refused : session.isConsumed flag = true → ∀ terminal,
    session.step (.terminal slot terminal) = (session, .silent (.refused .alreadyConsumed))

theorem isolates_view {type : ElementType} {ancestry : Ancestry type} {flag : Nat}
    (holds : session.slots.lookup slot = some ⟨type, ancestry.view, flag⟩) :
    session.Isolates slot ancestry.view flag ancestry where
  actions := ancestry.actions_view
  length := by rw [View.length, ancestry.actions_view]
  steps := ancestry.steps_view
  inspected := by rw [inspect, View.length, ancestry.actions_view, ancestry.steps_view]
  answered unconsumed step claims := answer_of_ancestry claims holds unconsumed
  refused consumed terminal := by
    rw [Session.step, withHandle_of_lookup holds, terminate_of_consumed consumed]

/-- A handle that has the flag of an ancestry holds the view that the ancestry makes, however the
program goes on. -/
theorem handle_eq_of_lineage {program later : List Step} {type : ElementType}
    {ancestry : Ancestry type}
    (stands : (Chronicle.of program).lineage[handle.flag]? = some ⟨type, ancestry⟩)
    (holds : (empty.after (program ++ later)).slots.lookup slot = some handle) :
    handle = ⟨type, ancestry.view, handle.flag⟩ := by
  obtain ⟨own, view, flag⟩ := handle
  rw [← Chronicle.session_of] at holds
  obtain ⟨found, there, shows⟩ := (Chronicle.sound_of (program ++ later)).handles slot _ holds
  obtain ⟨more, extended⟩ := Chronicle.lineage_of_append program later
  rw [← extended, List.getElem?_append_left (List.getElem?_eq_some_iff.mp stands).1,
    stands] at there
  cases Option.some.inj there
  rw [← shows]

/-- Views do not interfere. At any point of a program each view has an ancestry among the steps
taken so far, which is all that it ever shows and all that the answer to running it depends on.
Flags are shared by duplicates alone, and set by the steps that ask to run a view and no others.
Refused steps change nothing, whatever the view, but a sum that is out of range consumes its view.
-/
theorem views_isolated (program : List Step) :
    (∀ slot handle, (empty.after program).slots.lookup slot = some handle →
      handle.flag < (Chronicle.of program).lineage.length) ∧
    (∀ flag type (ancestry : Ancestry type),
      (Chronicle.of program).lineage[flag]? = some ⟨type, ancestry⟩ →
        (∀ slot, (ancestry.program slot).Sublist (program.map (Step.relocate slot))) ∧
        ∀ later slot handle,
          (empty.after (program ++ later)).slots.lookup slot = some handle → handle.flag = flag →
            ∃ view, handle = ⟨type, view, flag⟩ ∧
              (empty.after (program ++ later)).Isolates slot view flag ancestry) ∧
    (∀ step slot handle,
      ((empty.after program).step step).1.slots.lookup slot = some handle →
        (empty.after program).slots.lookup slot = some handle ∨
        (∃ origin, step = .duplicate origin slot ∧
          (empty.after program).slots.lookup origin = some handle) ∨
        handle.flag = (Chronicle.of program).lineage.length) ∧
    (∀ step flag, ((empty.after program).step step).1.isConsumed flag = true ↔
      (empty.after program).isConsumed flag = true ∨
        ∃ slot handle, step.claims = some slot ∧
          (empty.after program).slots.lookup slot = some handle ∧ handle.flag = flag) ∧
    (∀ step error, ((empty.after program).step step).2.value = .refused error →
      (empty.after program).step step = (empty.after program, .silent (.refused error)) ∨
      ∃ slot handle, step = .terminal slot .sum ∧
        (empty.after program).slots.lookup slot = some handle ∧
        error = .sumOverflow handle.type ∧
        ((empty.after program).step step).1.isConsumed handle.flag = true) ∧
    ∀ origin target kind transform handle error,
      (empty.after program).slots.lookup origin = some handle →
      Action.ofTransform kind (transform handle.type) = .error error →
        (empty.after program).step (.appendKind origin target kind transform) =
          (empty.after program, .silent (.refused error)) := by
  have sound := Chronicle.sound_of program
  have session := Chronicle.session_of program
  refine ⟨?_, ?_, ?_, ?_, ?_, ?_⟩
  · intro slot handle holds
    rw [← session] at holds
    obtain ⟨ancestry, stands, -⟩ := sound.handles slot handle holds
    exact (List.getElem?_eq_some_iff.mp stands).1
  · intro flag type ancestry stands
    refine ⟨fun slot => ?_, ?_⟩
    · exact Chronicle.program_sublist slot program (List.mem_of_getElem? stands)
    · rintro later slot handle holds rfl
      have same := handle_eq_of_lineage stands holds
      exact ⟨ancestry.view, same, isolates_view (holds.trans (congrArg some same))⟩
  · intro step slot handle holds
    rw [← sound.next, session]
    exact lookup_step _ step holds
  · exact fun step flag => isConsumed_step _ step flag
  · exact fun step error refused => refused_step _ step refused
  · intro origin target kind transform handle error holds fails
    rw [Session.step, withHandle_of_lookup holds]
    simp only [fails]

/-- The ancestry of a view that limits two numbers and widens the one that is left. -/
def widened : Ancestry .long :=
  .mapTo (.append (@Ancestry.source .int (.items [2147483647, 1])) fun _ => .limit 1) .long
    fun inner value => ⟨[.element "widen" ⟨inner, value⟩], ElementType.convert inner .long value⟩

/-- A program that makes the view, counts another handle of the view it continues, and keeps the
source beside them. -/
def branched : List Step :=
  [.source "numbers" .int (.items [2147483647, 1]),
    .append "numbers" "few" fun _ => .limit 1,
    .duplicate "few" "again",
    .mapTo "few" "wide" .long fun inner value =>
      ⟨[.element "widen" ⟨inner, value⟩], ElementType.convert inner .long value⟩,
    .terminal "again" .count]

/-- The widened view is left as it is when the view it continues is consumed. A transform that does
not fit is reported of the consumed view all the same, and a sum that is out of range consumes the
numbers. -/
theorem branched_isolated :
    (∃ view, (empty.after branched).slots.lookup "wide" = some ⟨.long, view, 2⟩ ∧
      (empty.after branched).Isolates "wide" view 2 widened) ∧
    (empty.after branched).isConsumed 1 = true ∧
    (empty.after branched).step (.appendKind "few" "other" .filter fun _ => .count 1) =
      (empty.after branched, .silent (.refused (.shapeMismatch .filter "count"))) ∧
    ((empty.after branched).step (.terminal "numbers" .sum)).1.isConsumed 0 = true := by
  obtain ⟨-, ancestries, -, flags, -, mismatches⟩ := views_isolated branched
  obtain ⟨-, isolated⟩ := ancestries 2 .long widened rfl
  obtain ⟨view, same, isolates⟩ := isolated [] "wide" _ rfl rfl
  refine ⟨⟨view, congrArg some same, isolates⟩, rfl, mismatches "few" _ _ _ _ _ rfl rfl, ?_⟩
  exact (flags (.terminal "numbers" .sum) 0).mpr (.inr ⟨"numbers", _, rfl, rfl, rfl⟩)

end Flowpress.Session
