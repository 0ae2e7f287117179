import Flowpress.Pipeline.Consumption
import Flowpress.Pipeline.View

/-!
# Sessions

A session keeps views in named slots and runs programs of steps on them. A slot
holds a handle: a view, and the flag that tells whether it is consumed. Handles
made by duplication share both; every view made by another step has a flag of its
own. A step that fails stores nothing.

Every function of a session may carry a tag. Its calls are recorded as events
under that tag, and the answer of a step comes with the events of the step.
-/

namespace Flowpress

/-- A recorded call: of a function on an element, or of a producer. -/
inductive Event where
  | element (tag : String) (value : AnyElement)
  | opening (tag : String)

/-- The event of a call on an element, if the function has a tag. -/
def Event.record (tag : Option String) (type : ElementType) (value : type.Carrier) : List Event :=
  match tag with
  | none => []
  | some tag => [.element tag ⟨type, value⟩]

/-- The terminal operations. -/
inductive Terminal where
  | collect
  | count
  | first
  | sum
  | forEach
  | pulls (count : Nat)
deriving DecidableEq, Repr

/-- The steps of a program. `origin` is the slot a step reads and `target` the slot it fills. -/
inductive Step where
  | source (target : String) (type : ElementType) (source : Source Event type.Carrier)
  | append (origin target : String) (action : (type : ElementType) → Action Event type.Carrier)
  | appendKind (origin target : String) (kind : ActionKind)
      (transform : (type : ElementType) → Transform Event type.Carrier)
  | duplicate (origin target : String)
  | mapTo (origin target : String) (outer : ElementType)
      (mapper : (inner : ElementType) → inner.Carrier → Traced Event outer.Carrier)
  | terminal (origin : String) (terminal : Terminal)
  /-- So many requests for the sum of one view at once. -/
  | race (origin : String) (requests : Nat)
  | inspect (origin : String)

/-- The change of the element type by the conversion between the types, recorded under a tag if
there is one. -/
def Step.convert (origin target : String) (outer : ElementType) (tag : Option String) : Step :=
  .mapTo origin target outer fun inner value =>
    ⟨Event.record tag inner value, ElementType.convert inner outer value⟩

/-- What is known of a view that has not run. -/
structure ViewInfo where
  elementType : ElementType
  length : Nat
  consumed : Bool
  /-- Each action of the last segment, spelled out. -/
  actions : List String
  /-- All steps. -/
  steps : List ActionInfo

/-- The view spelled out. -/
def ViewInfo.spell (info : ViewInfo) : String :=
  "Pipeline \x7b element_type: " ++ info.elementType.label ++ ", steps: [" ++
    String.intercalate ", " (info.steps.map ActionInfo.spell) ++ "], consumed: " ++
    toString info.consumed ++ " \x7d"

/-- The answer to a step. -/
inductive Answer where
  | noSuchView
  | refused (error : PipelineError)
  | made (elementType : ElementType) (length : Nat) (consumed : Bool)
  | elements (values : List AnyElement)
  | count (value : Nat)
  | element (value : AnyElement)
  | optional (value : Option AnyElement)
  | pulled (values : List (Option AnyElement))
  | raced (refused : Nat) (sums : List AnyElement)
  | info (info : ViewInfo)

/-- A view and its flag. -/
structure Handle where
  type : ElementType
  view : View Event type
  flag : Nat

/-- Views in slots, and the flags that are set. -/
structure Session where
  slots : List (String × Handle)
  consumed : List Nat
  /-- The flag of the next view. -/
  nextFlag : Nat

namespace Session

/-- A session without views. -/
def empty : Session := ⟨[], [], 0⟩

def isConsumed (session : Session) (flag : Nat) : Bool := decide (flag ∈ session.consumed)

/-- Stores a handle in a slot. -/
def store (session : Session) (slot : String) (handle : Handle) : Session :=
  { session with slots := (slot, handle) :: session.slots.filter fun entry => entry.1 != slot }

/-- Stores a view with a flag of its own and answers with what it is. -/
def make (session : Session) (slot : String) (type : ElementType) (view : View Event type) :
    Session × Answer :=
  ({ session.store slot ⟨type, view, session.nextFlag⟩ with nextFlag := session.nextFlag + 1 },
    .made type view.length false)

/-- Stores a view that continues the view of a handle unless that is consumed. -/
def derive (session : Session) (target : String) (handle : Handle) {type : ElementType}
    (view : View Event type) : Session × Answer :=
  let granted := (Consumption.access (session.isConsumed handle.flag) .derive).1
  if granted then session.make target type view else (session, .refused .alreadyConsumed)

/-- What a terminal operation gives. -/
def runTerminal {type : ElementType} (view : View Event type) : Terminal → Traced Event Answer
  | .collect => view.collect.map fun values => .elements (values.map fun value => ⟨type, value⟩)
  | .count => view.count.map .count
  | .first => view.first.map fun value => .optional (value.map fun value => ⟨type, value⟩)
  | .sum => view.sum.map fun
    | .ok total => .element ⟨type, total⟩
    | .error error => .refused error
  | .forEach =>
    (view.forEach fun value => [.element "for_each" ⟨type, value⟩]).map fun values =>
      .elements (values.map fun value => ⟨type, value⟩)
  | .pulls count =>
    (view.pulls count).map fun values =>
      .pulled (values.map fun value => value.map fun value => ⟨type, value⟩)

/-- Consumes the view of a handle and runs a terminal operation on it. -/
def terminate (session : Session) (handle : Handle) (terminal : Terminal) :
    Session × Traced Event Answer :=
  let granted := (Consumption.access (session.isConsumed handle.flag) .terminate).1
  if granted then
    ({ session with consumed := handle.flag :: session.consumed }, runTerminal handle.view terminal)
  else (session, .silent (.refused .alreadyConsumed))

/-- What the requests for the sum of one view give together: how many are refused, and the sum for
the one that is granted. A sum that is out of range counts neither as won nor as refused. -/
def runRace {type : ElementType} (view : View Event type) (refused : Nat) : Traced Event Answer :=
  view.sum.map fun
    | .ok total => .raced refused [⟨type, total⟩]
    | .error _ => .raced refused []

/-- Lets several requests compete for the sum of one view. -/
def race (session : Session) (handle : Handle) (requests : Nat) : Session × Traced Event Answer :=
  let consumed := session.isConsumed handle.flag
  let granted := (Consumption.accesses consumed (List.replicate requests .terminate)).1
  if true ∈ granted then
    ({ session with consumed := handle.flag :: session.consumed },
      runRace handle.view (granted.count false))
  else (session, .silent (.raced (granted.count false) []))

/-- What is known of the view of a handle. -/
def inspect (session : Session) (handle : Handle) : ViewInfo where
  elementType := handle.type
  length := handle.view.length
  consumed := session.isConsumed handle.flag
  actions := handle.view.actions.map Action.spell
  steps := handle.view.steps

/-- Runs `use` on the handle in a slot. -/
def withHandle (session : Session) (slot : String) (use : Handle → Session × Traced Event Answer) :
    Session × Traced Event Answer :=
  match session.slots.lookup slot with
  | none => (session, .silent .noSuchView)
  | some handle => use handle

/-- An outcome without recorded calls. -/
def silent (outcome : Session × Answer) : Session × Traced Event Answer :=
  (outcome.1, .silent outcome.2)

/-- Runs one step. Whether a transform fits its kind is looked at before the flag. -/
def step (session : Session) : Step → Session × Traced Event Answer
  | .source target type source => silent (session.make target type (.ofSource source))
  | .append origin target action =>
    session.withHandle origin fun handle =>
      silent (session.derive target handle (handle.view.append (action handle.type)))
  | .appendKind origin target kind transform =>
    session.withHandle origin fun handle =>
      match Action.ofTransform kind (transform handle.type) with
      | .error error => (session, .silent (.refused error))
      | .ok action => silent (session.derive target handle (handle.view.append action))
  | .duplicate origin target =>
    session.withHandle origin fun handle =>
      (session.store target handle,
        .silent (.made handle.type handle.view.length (session.isConsumed handle.flag)))
  | .mapTo origin target _ mapper =>
    session.withHandle origin fun handle =>
      silent (session.derive target handle (handle.view.mapTo (mapper handle.type)))
  | .terminal origin terminal =>
    session.withHandle origin fun handle => session.terminate handle terminal
  | .race origin requests => session.withHandle origin fun handle => session.race handle requests
  | .inspect origin =>
    session.withHandle origin fun handle => (session, .silent (.info (session.inspect handle)))

/-- The answers to a program of steps, each with its recorded calls. -/
def run (session : Session) : List Step → List (Traced Event Answer)
  | [] => []
  | next :: rest =>
    let (session, answer) := session.step next
    answer :: session.run rest

/-- The session after a program of steps. -/
def after (session : Session) (program : List Step) : Session :=
  program.foldl (fun session next => (session.step next).1) session

end Session

end Flowpress
