import Flowpress.Pipeline.Contention
import Flowpress.Proofs.Pipeline.Sessions
import Mathlib.Data.List.Induction

/-!
# A view runs once

However the acts of several threads interleave, at most one terminal operation on a
view is granted, and it is the first that looks at the flag. What looks at the flag
before it is granted, and what looks at it later is refused and calls nothing. The one
that is granted makes the calls and gives the answer of a session in which it is the
only one. The views made on the way have flags of their own, which nothing here sets.
-/

namespace Flowpress.Contention

variable {type : ElementType} {view : View Event type} {flag : Nat} {session : Session}

/-! ## Histories -/

/-- No terminal operation has looked at the flag, and nothing has been refused. -/
def Undecided (history : List (Nat × Act type)) : Prop :=
  ∀ index request granted, (index, .accessed request granted) ∈ history →
    granted = true ∧ request.access = .derive

/-- A terminal operation has been granted, as the first one to look at the flag, and all that has
looked at the flag behind it has been refused. -/
def Won (history : List (Nat × Act type)) (winner : Nat) (terminal : Terminal) : Prop :=
  ∃ before after, history = before ++ (winner, .accessed (.terminal terminal) true) :: after ∧
    Undecided before ∧
    ∀ index request granted, (index, .accessed request granted) ∈ after → granted = false

/-- What the flag says of the accesses so far. -/
def Decided (consumed : Bool) (history : List (Nat × Act type)) : Prop :=
  match consumed with
  | false => Undecided history
  | true => ∃ winner terminal, Won history winner terminal

/-- The acts of one thread. -/
def own (index : Nat) (history : List (Nat × Act type)) : List (Act type) :=
  (history.filter fun entry => entry.1 == index).map Prod.snd

/-- The acts of a call that has returned. `alone` is what a terminal operation gives by itself. -/
inductive Call (alone : Terminal → Traced Event Answer) (view : View Event type) :
    Request type → List (Act type) → Prop where
  | refused (request : Request type) :
      Call alone view request
        [.accessed request false, .returned request (.refused .alreadyConsumed)]
  | append (action : Action Event type.Carrier) (flag : Nat) :
      Call alone view (.append action)
        [.accessed (.append action) true,
          .returned (.append action) (.derived ⟨type, view.append action, flag⟩)]
  | mapTo (outer : ElementType) (mapper : type.Carrier → Traced Event outer.Carrier)
      (flag : Nat) :
      Call alone view (.mapTo outer mapper)
        [.accessed (.mapTo outer mapper) true,
          .returned (.mapTo outer mapper) (.derived ⟨outer, view.mapTo mapper, flag⟩)]
  | terminal (terminal : Terminal) :
      Call alone view (.terminal terminal)
        (.accessed (.terminal terminal) true :: ((alone terminal).calls.map .called ++
          [.returned (.terminal terminal) (.answered (alone terminal).value)]))

/-- The acts of calls that have returned, one after another. -/
inductive Calls (alone : Terminal → Traced Event Answer) (view : View Event type) :
    List (Request type) → List (Act type) → Prop where
  | none : Calls alone view [] []
  | more {made : List (Request type)} {request : Request type} {acts further : List (Act type)}
      (before : Calls alone view made acts) (next : Call alone view request further) :
      Calls alone view (made ++ [request]) (acts ++ further)

/-- How a thread has come to stand where it does, by the acts it has made of a program of calls. -/
inductive Stands (alone : Terminal → Traced Event Answer) (view : View Event type)
    (program : List (Request type)) (acts : List (Act type)) : Thread type → Prop where
  | ready {made later : List (Request type)} (split : program = made ++ later)
      (done : Calls alone view made acts) : Stands alone view program acts (.ready later)
  | denied {made later : List (Request type)} {request : Request type} {before : List (Act type)}
      (split : program = made ++ request :: later) (done : Calls alone view made before)
      (midway : acts = before ++ [.accessed request false]) :
      Stands alone view program acts (.denied request later)
  | working {made later : List (Request type)} {request : Request type}
      {before : List (Act type)} {behind ahead : List Event}
      (split : program = made ++ request :: later) (done : Calls alone view made before)
      (calls : request.calls view = behind ++ ahead)
      (midway : acts = before ++ .accessed request true :: behind.map .called) :
      Stands alone view program acts (.working request ahead later)

/-! ## Acts -/

theorem look_of_consumed (consumed : session.isConsumed flag = true) (request : Request type) :
    request.look flag session = (false, session) := by
  cases request <;> simp [Request.look, Request.access, Consumption.access, consumed]

theorem look_of_derive (unconsumed : session.isConsumed flag = false) {request : Request type}
    (derives : request.access = .derive) : request.look flag session = (true, session) := by
  simp [Request.look, Consumption.access, unconsumed, derives]

theorem look_of_terminate (unconsumed : session.isConsumed flag = false) {request : Request type}
    (terminates : request.access = .terminate) :
    request.look flag session =
      (true, { session with consumed := flag :: session.consumed }) := by
  simp [Request.look, Consumption.access, unconsumed, terminates]

theorem isConsumed_look_of_ne (request : Request type) {other : Nat} (differs : other ≠ flag) :
    (request.look flag session).2.isConsumed other = session.isConsumed other := by
  simp only [Request.look]
  split_ifs
  · simp [Session.isConsumed, differs]
  · rfl

theorem isConsumed_look_of_isConsumed (request : Request type) {other : Nat}
    (consumed : session.isConsumed other = true) :
    (request.look flag session).2.isConsumed other = true := by
  simp only [Request.look]
  split_ifs
  · exact (Session.isConsumed_cons session flag other).mpr (.inr consumed)
  · exact consumed

theorem nextFlag_look (request : Request type) :
    (request.look flag session).2.nextFlag = session.nextFlag := by
  simp only [Request.look]
  split_ifs <;> rfl

theorem isConsumed_reply (request : Request type) (other : Nat) :
    (request.reply view session).2.isConsumed other = session.isConsumed other := by
  cases request <;> rfl

theorem nextFlag_le_reply (request : Request type) :
    session.nextFlag ≤ (request.reply view session).2.nextFlag := by
  cases request with
  | append | mapTo => exact Nat.le_succ _
  | terminal => exact Nat.le_refl _

/-- What a thread does in one act. -/
inductive Moves (view : View Event type) (flag : Nat) (session : Session) :
    Thread type → Act type → Session → Thread type → Prop where
  | look (request : Request type) (later : List (Request type)) :
      Moves view flag session (.ready (request :: later))
        (.accessed request (request.look flag session).1) (request.look flag session).2
        (if (request.look flag session).1 then .working request (request.calls view) later
          else .denied request later)
  | refuse (request : Request type) (later : List (Request type)) :
      Moves view flag session (.denied request later)
        (.returned request (.refused .alreadyConsumed)) session (.ready later)
  | call (request : Request type) (event : Event) (calls : List Event)
      (later : List (Request type)) :
      Moves view flag session (.working request (event :: calls) later) (.called event) session
        (.working request calls later)
  | answer (request : Request type) (later : List (Request type)) :
      Moves view flag session (.working request [] later)
        (.returned request (request.reply view session).1) (request.reply view session).2
        (.ready later)

theorem Moves.isConsumed_of_ne {thread next : Thread type} {act : Act type} {after : Session}
    (moves : Moves view flag session thread act after next) {other : Nat}
    (differs : other ≠ flag) : after.isConsumed other = session.isConsumed other := by
  cases moves with
  | look request => exact isConsumed_look_of_ne request differs
  | refuse | call => rfl
  | answer request => exact isConsumed_reply request other

/-- No act clears a flag. -/
theorem Moves.isConsumed {thread next : Thread type} {act : Act type} {after : Session}
    (moves : Moves view flag session thread act after next) {other : Nat}
    (consumed : session.isConsumed other = true) : after.isConsumed other = true := by
  cases moves with
  | look request => exact isConsumed_look_of_isConsumed request consumed
  | refuse | call => exact consumed
  | answer request => rwa [isConsumed_reply]

theorem Moves.nextFlag_le {thread next : Thread type} {act : Act type} {after : Session}
    (moves : Moves view flag session thread act after next) :
    session.nextFlag ≤ after.nextFlag := by
  cases moves with
  | look request => exact Nat.le_of_eq (nextFlag_look request).symm
  | refuse | call => exact Nat.le_refl _
  | answer request => exact nextFlag_le_reply request

/-- A view that continues the one of the threads has a flag that no view had before. -/
theorem Moves.flag_of_derived {thread next : Thread type} {request : Request type}
    {handle : Handle} {after : Session}
    (moves : Moves view flag session thread (.returned request (.derived handle)) after next) :
    handle.flag = session.nextFlag := by
  generalize made : Act.returned request (.derived handle) = act at moves
  cases moves with
  | look | refuse | call => cases made
  | answer request =>
      cases request with
      | append | mapTo => cases made; rfl
      | terminal => cases made

/-- A thread has an act to make unless all its calls have returned. -/
theorem moves_advance (thread : Thread type) :
    thread = .ready [] ∨ ∃ act after next,
      thread.advance view flag session = some (act, after, next) ∧
        Moves view flag session thread act after next := by
  cases thread with
  | ready later =>
      cases later with
      | nil => exact .inl rfl
      | cons request later => exact .inr ⟨_, _, _, rfl, .look request later⟩
  | denied request later => exact .inr ⟨_, _, _, rfl, .refuse request later⟩
  | working request calls later =>
      cases calls with
      | nil => exact .inr ⟨_, _, _, rfl, .answer request later⟩
      | cons event calls => exact .inr ⟨_, _, _, rfl, .call request event calls later⟩

/-! ## What the history says of the flag -/

theorem Undecided.concat {history : List (Nat × Act type)} (undecided : Undecided history)
    (index : Nat) {act : Act type}
    (granted : ∀ request answer, act = .accessed request answer →
      answer = true ∧ request.access = .derive) : Undecided (history ++ [(index, act)]) := by
  intro other request answer among
  rcases List.mem_append.mp among with older | new
  · exact undecided other request answer older
  · cases List.mem_singleton.mp new
    exact granted request answer rfl

theorem Won.concat {history : List (Nat × Act type)} {winner : Nat} {terminal : Terminal}
    (won : Won history winner terminal) (index : Nat) {act : Act type}
    (refused : ∀ request answer, act = .accessed request answer → answer = false) :
    Won (history ++ [(index, act)]) winner terminal := by
  obtain ⟨before, after, split, undecided, losing⟩ := won
  refine ⟨before, after ++ [(index, act)], ?_, undecided, ?_⟩
  · rw [split, List.append_assoc, List.cons_append]
  · intro other request answer among
    rcases List.mem_append.mp among with older | new
    · exact losing other request answer older
    · cases List.mem_singleton.mp new
      exact refused request answer rfl

/-- An act that is no access decides nothing. -/
theorem Decided.concat {consumed : Bool} {history : List (Nat × Act type)}
    (decided : Decided consumed history) (index : Nat) {act : Act type}
    (elsewhere : ∀ request answer, act ≠ .accessed request answer) :
    Decided consumed (history ++ [(index, act)]) := by
  cases consumed with
  | false =>
      exact Undecided.concat decided index fun request answer same =>
        absurd same (elsewhere request answer)
  | true =>
      obtain ⟨winner, terminal, won⟩ := decided
      exact ⟨winner, terminal, won.concat index fun request answer same =>
        absurd same (elsewhere request answer)⟩

/-- The first terminal operation that looks at the flag sets it and wins. -/
theorem Decided.look {history : List (Nat × Act type)}
    (decided : Decided (session.isConsumed flag) history) (index : Nat) (request : Request type) :
    Decided ((request.look flag session).2.isConsumed flag)
      (history ++ [(index, .accessed request (request.look flag session).1)]) := by
  cases consumed : session.isConsumed flag with
  | true =>
      rw [consumed] at decided
      obtain ⟨winner, terminal, won⟩ := decided
      rw [look_of_consumed consumed, consumed]
      refine ⟨winner, terminal, won.concat index ?_⟩
      rintro - answer ⟨⟩
      rfl
  | false =>
      rw [consumed] at decided
      have derives (derive : request.access = .derive) :
          Decided ((request.look flag session).2.isConsumed flag)
            (history ++ [(index, .accessed request (request.look flag session).1)]) := by
        rw [look_of_derive consumed derive, consumed]
        refine Undecided.concat decided index ?_
        rintro _ _ ⟨⟩
        exact ⟨rfl, derive⟩
      cases request with
      | terminal terminal =>
          rw [look_of_terminate consumed rfl,
            (Session.isConsumed_cons session flag flag).mpr (.inl rfl)]
          exact ⟨index, terminal, history, [], rfl, decided, nofun⟩
      | append | mapTo => exact derives rfl

theorem Decided.moves {history : List (Nat × Act type)}
    (decided : Decided (session.isConsumed flag) history) (index : Nat) {thread next : Thread type}
    {act : Act type} {after : Session} (moves : Moves view flag session thread act after next) :
    Decided (after.isConsumed flag) (history ++ [(index, act)]) := by
  cases moves with
  | look request later => exact decided.look index request
  | refuse | call => exact decided.concat index nofun
  | answer request later =>
      rw [isConsumed_reply]
      exact decided.concat index nofun

/-! ## What a thread has done -/

theorem own_concat (index other : Nat) (history : List (Nat × Act type)) (act : Act type) :
    own index (history ++ [(other, act)]) =
      own index history ++ if other = index then [act] else [] := by
  rw [own, List.filter_append, List.map_append, own]
  split_ifs with same <;> simp [same]

/-- The acts of a call that is granted, with what it returns. -/
theorem call_reply (session : Session) (request : Request type) :
    Call (Session.runTerminal view) view request
      (.accessed request true :: ((request.calls view).map .called ++
        [.returned request (request.reply view session).1])) := by
  cases request with
  | append action => exact .append action session.nextFlag
  | mapTo outer mapper => exact .mapTo outer mapper session.nextFlag
  | terminal terminal => exact .terminal terminal

theorem Stands.moves {program : List (Request type)} {acts : List (Act type)}
    {thread next : Thread type} {act : Act type} {after : Session}
    (stands : Stands (Session.runTerminal view) view program acts thread)
    (moves : Moves view flag session thread act after next) :
    Stands (Session.runTerminal view) view program (acts ++ [act]) next := by
  cases moves with
  | look request later =>
      cases stands with
      | ready split done =>
          cases (request.look flag session).1 with
          | true => exact .working split done (List.nil_append _).symm rfl
          | false => exact .denied split done rfl
  | refuse request later =>
      cases stands with
      | @denied made _ _ before split done midway =>
          have returned : program = (made ++ [request]) ++ later := by simpa using split
          rw [midway, List.append_assoc]
          exact .ready returned (done.more (.refused request))
  | call request event calls later =>
      cases stands with
      | @working made _ _ before behind _ split done owed midway =>
          have rest : request.calls view = (behind ++ [event]) ++ calls := by simpa using owed
          refine .working split done rest ?_
          rw [midway, List.map_append, List.append_assoc]
          rfl
  | answer request later =>
      cases stands with
      | @working made _ _ before behind _ split done owed midway =>
          have returned : program = (made ++ [request]) ++ later := by simpa using split
          rw [List.append_nil] at owed
          rw [midway, ← owed, List.append_assoc]
          exact .ready returned (done.more (call_reply session request))

/-! ## Runs -/

/-- What a machine owes the session it starts in and the programs of its threads. -/
structure Sound (session : Session) (view : View Event type) (flag : Nat)
    (programs : List (List (Request type))) (machine : Machine type) : Prop where
  decided : Decided (machine.session.isConsumed flag) machine.history
  others : ∀ other, other ≠ flag →
    machine.session.isConsumed other = session.isConsumed other
  next : session.nextFlag ≤ machine.session.nextFlag
  derived : ∀ index request handle,
    (index, .returned request (.derived handle)) ∈ machine.history →
      session.nextFlag ≤ handle.flag
  stands : ∀ index program, programs[index]? = some program →
    ∃ thread, machine.threads[index]? = some thread ∧
      Stands (Session.runTerminal view) view program (own index machine.history) thread

variable {programs : List (List (Request type))} {machine : Machine type}

theorem sound_start (unconsumed : session.isConsumed flag = false)
    (programs : List (List (Request type))) :
    Sound session view flag programs (.start session programs) where
  decided := by
    rw [Machine.start, unconsumed]
    exact nofun
  others _ _ := rfl
  next := Nat.le_refl _
  derived := nofun
  stands index program found :=
    ⟨.ready program, by rw [Machine.start, List.getElem?_map, found]; rfl,
      .ready (List.nil_append _).symm .none⟩

/-- A scheduled thread makes an act, unless there is no such thread or all its calls have
returned. -/
theorem step_cases (view : View Event type) (flag : Nat) (machine : Machine type) (index : Nat) :
    (machine.step view flag index = machine ∧ ∀ thread, machine.threads[index]? = some thread →
      thread = .ready []) ∨
    ∃ thread act after next, machine.threads[index]? = some thread ∧
      Moves view flag machine.session thread act after next ∧
      machine.step view flag index =
        ⟨after, machine.threads.set index next, machine.history ++ [(index, act)]⟩ := by
  cases found : machine.threads[index]? with
  | none => exact .inl ⟨by rw [Machine.step, found]; rfl, nofun⟩
  | some thread =>
      rcases @moves_advance _ view flag machine.session thread
        with rfl | ⟨act, after, next, advanced, moves⟩
      · refine .inl ⟨by rw [Machine.step, found]; rfl, ?_⟩
        rintro _ ⟨⟩
        rfl
      · exact .inr ⟨thread, act, after, next, rfl, moves, by
          rw [Machine.step, found, Option.bind_some, advanced]⟩

theorem Sound.step (sound : Sound session view flag programs machine) (index : Nat) :
    Sound session view flag programs (machine.step view flag index) := by
  rcases step_cases view flag machine index with
    ⟨unchanged, -⟩ | ⟨thread, act, after, next, found, moves, stepped⟩
  · rwa [unchanged]
  · rw [stepped]
    refine ⟨sound.decided.moves index moves, ?_, ?_, ?_, ?_⟩
    · intro other differs
      rw [← sound.others other differs]
      exact moves.isConsumed_of_ne differs
    · exact Nat.le_trans sound.next moves.nextFlag_le
    · intro other request handle among
      rcases List.mem_append.mp among with older | new
      · exact sound.derived other request handle older
      · cases List.mem_singleton.mp new
        rw [moves.flag_of_derived]
        exact sound.next
    · intro other program among
      obtain ⟨stood, there, stands⟩ := sound.stands other program among
      rw [own_concat, List.getElem?_set]
      by_cases same : index = other
      · subst same
        obtain rfl : stood = thread := Option.some.inj (there.symm.trans found)
        have within := (List.getElem?_eq_some_iff.mp found).1
        rw [if_pos rfl, if_pos within, if_pos rfl]
        exact ⟨next, rfl, stands.moves moves⟩
      · rw [if_neg same, if_neg same, List.append_nil]
        exact ⟨stood, there, stands⟩

theorem Sound.run (sound : Sound session view flag programs machine) (schedule : List Nat) :
    Sound session view flag programs (machine.run view flag schedule) := by
  induction schedule generalizing machine with
  | nil => exact sound
  | cons index schedule inductionHypothesis => exact inductionHypothesis (sound.step index)

/-- A flag that is set stays set. -/
theorem isConsumed_run (machine : Machine type) (schedule : List Nat) {other : Nat}
    (consumed : machine.session.isConsumed other = true) :
    (machine.run view flag schedule).session.isConsumed other = true := by
  induction schedule generalizing machine with
  | nil => exact consumed
  | cons index schedule inductionHypothesis =>
      refine inductionHypothesis (machine.step view flag index) ?_
      rcases step_cases view flag machine index with
        ⟨unchanged, -⟩ | ⟨thread, act, after, next, -, moves, stepped⟩
      · rwa [unchanged]
      · rw [stepped]
        exact moves.isConsumed consumed

/-- However threads that hold handles of one view interleave, the flag of the view decides between
their calls. It is clear as long as no terminal operation has looked at it, and till then nothing is
refused. The first terminal operation to look at it wins, and whatever looks at it later is refused.
Each thread makes its calls one after another: one that is refused returns at once, and a terminal
operation that wins makes the calls and returns the answer that it would have alone. The views made
on the way are not consumed, no other flag is touched, no flag is ever cleared, and no thread waits
for another. -/
theorem run_decided (session : Session) (view : View Event type) (flag : Nat)
    (unconsumed : session.isConsumed flag = false) (allotted : flag < session.nextFlag)
    (bounded : ∀ other, session.isConsumed other = true → other < session.nextFlag)
    (programs : List (List (Request type))) (schedule : List Nat) :
    let machine := (Machine.start session programs).run view flag schedule
    (Undecided machine.history ∧ machine.session.isConsumed flag = false ∨
      (∃ winner terminal, Won machine.history winner terminal) ∧
        machine.session.isConsumed flag = true) ∧
    (∀ index program, programs[index]? = some program →
      ∃ thread, machine.threads[index]? = some thread ∧
        Stands (fun terminal => (session.terminate ⟨type, view, flag⟩ terminal).2) view program
          (own index machine.history) thread) ∧
    (∀ index request handle, (index, .returned request (.derived handle)) ∈ machine.history →
      handle.flag ≠ flag ∧ machine.session.isConsumed handle.flag = false) ∧
    (∀ other, other ≠ flag → machine.session.isConsumed other = session.isConsumed other) ∧
    (∀ other later, machine.session.isConsumed other = true →
      (machine.run view flag later).session.isConsumed other = true) ∧
    ∀ index thread, machine.threads[index]? = some thread → thread ≠ .ready [] →
      ∃ act, (machine.step view flag index).history = machine.history ++ [(index, act)] := by
  intro machine
  have sound : Sound session view flag programs machine :=
    (sound_start unconsumed programs).run schedule
  have alone : (fun terminal => (session.terminate ⟨type, view, flag⟩ terminal).2) =
      Session.runTerminal view := by
    funext terminal
    rw [Session.terminate_of_unconsumed unconsumed]
  refine ⟨?_, ?_, ?_, sound.others, ?_, ?_⟩
  · have decided := sound.decided
    cases consumed : machine.session.isConsumed flag with
    | false => exact .inl ⟨by rwa [consumed] at decided, rfl⟩
    | true => exact .inr ⟨by rwa [consumed] at decided, rfl⟩
  · rw [alone]
    exact sound.stands
  · intro index request handle among
    have new := sound.derived index request handle among
    have differs : handle.flag ≠ flag := by omega
    refine ⟨differs, ?_⟩
    rw [sound.others _ differs, Bool.eq_false_iff]
    intro consumed
    have older := bounded handle.flag consumed
    omega
  · exact fun other later consumed => isConsumed_run machine later consumed
  · intro index thread found unfinished
    rcases step_cases view flag machine index with
      ⟨-, finished⟩ | ⟨_, act, after, next, -, -, stepped⟩
    · exact absurd (finished thread found) unfinished
    · exact ⟨act, by rw [stepped]⟩

/-- Two threads: one continues a view of two numbers and then collects it, while the other counts
it. -/
def rivals : List (List (Request .long)) :=
  [[.terminal .count], [.append (.limit 1), .terminal .collect]]

/-- The count looks at the flag first, so the collection is refused, and the view that was made
before stays as it is. -/
theorem rivals_decided :
    let machine := (Machine.start ⟨[], [], 1⟩ rivals).run (.ofSource (.items [5, 6])) 0
      [1, 0, 1, 1, 0, 1]
    (∃ winner terminal, Won machine.history winner terminal) ∧
      own 0 machine.history = [.accessed (.terminal .count) true,
        .returned (.terminal .count) (.answered (.count 2))] ∧
      own 1 machine.history = [.accessed (.append (.limit 1)) true,
        .returned (.append (.limit 1)) (.derived ⟨.long, ⟨.source (.items [5, 6]), [.limit 1]⟩, 1⟩),
        .accessed (.terminal .collect) false,
        .returned (.terminal .collect) (.refused .alreadyConsumed)] ∧
      machine.session.isConsumed 1 = false := by
  intro machine
  obtain ⟨decided, -, derived, -⟩ := run_decided ⟨[], [], 1⟩ (.ofSource (.items [5, 6])) 0 rfl
    (by decide) nofun rivals [1, 0, 1, 1, 0, 1]
  refine ⟨?_, rfl, rfl, ?_⟩
  · rcases decided with ⟨-, clear⟩ | ⟨won, -⟩
    · cases clear
    · exact won
  · exact (derived 1 (.append (.limit 1)) ⟨.long, ⟨.source (.items [5, 6]), [.limit 1]⟩, 1⟩
      (.tail _ (.tail _ (.head _)))).2

end Flowpress.Contention
