import Flowpress.Pipeline.Session

/-!
# Clients that compete for a view

Several threads hold handles of one view, and each makes its calls one after another.
A call looks at the flag of the view in one access, before it does anything else. If
it is refused it returns; otherwise it goes on by itself: a terminal operation makes
the calls of its plan one by one, and whatever continues the view takes a flag of its
own. Between two acts of a thread the others may act as they like, so a run is given
by a schedule, which names the thread of each act.
-/

namespace Flowpress.Contention

/-- A call of a thread. -/
inductive Request (type : ElementType) where
  | append (action : Action Event type.Carrier)
  | mapTo (outer : ElementType) (mapper : type.Carrier → Traced Event outer.Carrier)
  | terminal (terminal : Terminal)

/-- What a call returns. -/
inductive Reply where
  | refused (error : PipelineError)
  | derived (handle : Handle)
  | answered (answer : Answer)

/-- What a thread does at a time. -/
inductive Act (type : ElementType) where
  /-- The one access of a call to the flag, and whether the call goes on. -/
  | accessed (request : Request type) (granted : Bool)
  | called (event : Event)
  | returned (request : Request type) (reply : Reply)

/-- Where a thread stands. -/
inductive Thread (type : ElementType) where
  /-- Between its calls. -/
  | ready (later : List (Request type))
  | denied (request : Request type) (later : List (Request type))
  /-- In a call that goes on, with the calls that it has yet to make. -/
  | working (request : Request type) (calls : List Event) (later : List (Request type))

namespace Request

variable {type : ElementType}

def access : Request type → Consumption.Access
  | .append _ | .mapTo .. => .derive
  | .terminal _ => .terminate

/-- The calls that a call makes, once it is granted. -/
def calls (view : View Event type) : Request type → List Event
  | .append _ | .mapTo .. => []
  | .terminal operation => (Session.runTerminal view operation).calls

/-- What a call returns that is granted, and the session after it. -/
def reply (view : View Event type) (session : Session) : Request type → Reply × Session
  | .append action =>
    (.derived ⟨type, view.append action, session.nextFlag⟩,
      { session with nextFlag := session.nextFlag + 1 })
  | .mapTo outer mapper =>
    (.derived ⟨outer, view.mapTo mapper, session.nextFlag⟩,
      { session with nextFlag := session.nextFlag + 1 })
  | .terminal operation => (.answered (Session.runTerminal view operation).value, session)

/-- Whether a call goes on, and the session after its access to the flag. -/
def look (flag : Nat) (session : Session) (request : Request type) : Bool × Session :=
  let (granted, consumed) := Consumption.access (session.isConsumed flag) request.access
  (granted,
    if granted && consumed then { session with consumed := flag :: session.consumed } else session)

end Request

variable {type : ElementType}

/-- The next act of a thread, if it has anything left to do. -/
def Thread.advance (view : View Event type) (flag : Nat) (session : Session) :
    Thread type → Option (Act type × Session × Thread type)
  | .ready [] => none
  | .ready (request :: later) =>
    let (granted, session) := request.look flag session
    some (.accessed request granted, session,
      if granted then .working request (request.calls view) later else .denied request later)
  | .denied request later =>
    some (.returned request (.refused .alreadyConsumed), session, .ready later)
  | .working request (event :: calls) later =>
    some (.called event, session, .working request calls later)
  | .working request [] later =>
    let (reply, session) := request.reply view session
    some (.returned request reply, session, .ready later)

/-- Threads that share a session, and the acts of all of them in their order. -/
structure Machine (type : ElementType) where
  session : Session
  threads : List (Thread type)
  history : List (Nat × Act type)

namespace Machine

/-- Threads that have yet to make all their calls. -/
def start (session : Session) (programs : List (List (Request type))) : Machine type :=
  ⟨session, programs.map .ready, []⟩

/-- Lets one thread act. -/
def step (view : View Event type) (flag : Nat) (machine : Machine type) (index : Nat) :
    Machine type :=
  match machine.threads[index]?.bind (Thread.advance view flag machine.session) with
  | none => machine
  | some (act, session, thread) =>
    ⟨session, machine.threads.set index thread, machine.history ++ [(index, act)]⟩

/-- Lets threads act in the order of a schedule. -/
def run (view : View Event type) (flag : Nat) (machine : Machine type) (schedule : List Nat) :
    Machine type :=
  schedule.foldl (step view flag) machine

end Machine

end Flowpress.Contention
