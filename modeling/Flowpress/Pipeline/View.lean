import Flowpress.Pipeline.Plan

/-!
# Views

A `View` is a pipeline that has not run: a source, and the actions to apply to
it, in segments of one element type each. Views are values; adding an action
gives a new view and leaves the old one as it is. The terminal operations run
the optimized plan of every segment and report the calls they cause.
-/

namespace Flowpress

/-- Where elements come from. -/
inductive Source (ε α : Type) where
  /-- A list, whose length is known. -/
  | items (items : List α)
  /-- The elements `element start`, `element (start + 1)` and so on, `size` of them; the length
  counts as unknown. -/
  | indexed (start size : Nat) (element : Nat → α)
  /-- A producer that records `calls` when it is asked for its elements, and whatever is in the flow
  while they are pulled; the length counts as unknown. -/
  | generated (calls : List ε) (elements : Unit → Flow ε α)

namespace Source

variable {ε α : Type}

/-- A producer of a list. -/
def produced (calls : List ε) (items : List α) : Source ε α :=
  .generated calls fun _ => .ofList items

/-- The elements, and the calls of asking for them. -/
def start : Source ε α → Traced ε (Unit → Flow ε α)
  | .items values => .silent fun _ => .ofList values
  | .indexed start size element => .silent fun _ => .ofFunction element size start
  | .generated calls elements => ⟨calls, elements⟩

def knownLength : Source ε α → Option Nat
  | .items values => some values.length
  | _ => none

/-- Takes skips and limits at the front of a plan into an indexed source, so that they cost nothing
per element. -/
def absorb : Source ε α → List (Action ε α) → Source ε α × List (Action ε α)
  | .indexed start size element, .skip count :: rest =>
    absorb (.indexed (start + count) (size - count) element) rest
  | .indexed start size element, .limit count :: rest =>
    absorb (.indexed start (min size count) element) rest
  | source, actions => (source, actions)

end Source

/-- What a segment of elements of one type is fed by: a source, or a segment of another type whose
elements are mapped. -/
inductive Feed (ε : Type) : ElementType → Type where
  | source {type : ElementType} (source : Source ε type.Carrier) : Feed ε type
  | stage {inner outer : ElementType} (feed : Feed ε inner)
      (actions : List (Action ε inner.Carrier)) (mapper : inner.Carrier → Traced ε outer.Carrier) :
      Feed ε outer

namespace Feed

variable {ε : Type}

/-- Starts the feed and applies a plan to its elements. -/
def run {type : ElementType} (feed : Feed ε type) (plan : List (Action ε type.Carrier)) :
    Traced ε (Unit → Flow ε type.Carrier) :=
  match feed with
  | .source origin =>
    let (origin, plan) := origin.absorb plan
    origin.start.map (Action.applyAll plan)
  | .stage feed actions mapper =>
    (feed.run (Plan.optimize actions)).map fun flow =>
      Action.applyAll plan fun _ => (flow ()).map mapper

/-- The steps of the feed. The map at the end of a segment takes the elements of that segment. -/
def steps {type : ElementType} : Feed ε type → List ActionInfo
  | .source _ => []
  | @stage _ inner _ feed actions _ =>
    feed.steps ++ actions.map Action.info ++ [⟨.mapTo, inner⟩]

def knownLength {type : ElementType} : Feed ε type → Option Nat
  | .source origin => origin.knownLength
  | .stage .. => none

/-- Whether some step watches the elements that pass. -/
def hasSideEffects {type : ElementType} (feed : Feed ε type) : Bool :=
  feed.steps.any fun info => info.kind.hasSideEffects

end Feed

/-- A pipeline that has not run. -/
structure View (ε : Type) (type : ElementType) where
  feed : Feed ε type
  /-- The actions of the last segment, in the order they were added. -/
  actions : List (Action ε type.Carrier)

namespace View

variable {ε : Type} {type : ElementType}

/-- All elements of a source. -/
def ofSource (source : Source ε type.Carrier) : View ε type := ⟨.source source, []⟩

/-- The view with one more action at its end. -/
def append (view : View ε type) (action : Action ε type.Carrier) : View ε type :=
  ⟨view.feed, view.actions ++ [action]⟩

/-- The view continued with elements of another type. -/
def mapTo (view : View ε type) {outer : ElementType}
    (mapper : type.Carrier → Traced ε outer.Carrier) : View ε outer :=
  ⟨.stage view.feed view.actions mapper, []⟩

/-- How many actions the last segment has. -/
def length (view : View ε type) : Nat := view.actions.length

/-- All steps, with those in front of every change of the element type. -/
def steps (view : View ε type) : List ActionInfo :=
  view.feed.steps ++ view.actions.map Action.info

/-! ## Terminal operations -/

/-- Starts the view: the calls of its source, and what a consumer can pull. -/
def start (view : View ε type) : Traced ε (Unit → Flow ε type.Carrier) :=
  view.feed.run (Plan.optimize view.actions)

/-- Runs a consumer over the view. -/
def terminate {ρ : Type} (view : View ε type)
    (consumer : (Unit → Flow ε type.Carrier) → Traced ε ρ) : Traced ε ρ :=
  view.start.bind consumer

/-- All elements. -/
def collect (view : View ε type) : Traced ε (List type.Carrier) :=
  view.terminate fun flow => (flow ()).collect

/-- All elements, each shown to a visitor when it has arrived. -/
def forEach (view : View ε type) (visitor : type.Carrier → List ε) : Traced ε (List type.Carrier) :=
  view.terminate fun flow => ((flow ()).peek visitor).collect

/-- The first element, if there is one. -/
def first (view : View ε type) : Traced ε (Option type.Carrier) :=
  view.terminate fun flow => (flow ()).first

/-- The answers to `count` pulls. -/
def pulls (view : View ε type) (count : Nat) : Traced ε (List (Option type.Carrier)) :=
  view.terminate fun flow => Flow.pulls count flow

/-- The sum of the elements. Nothing is pulled once it is out of range. -/
def sum (view : View ε type) : Traced ε (Except PipelineError type.Carrier) :=
  (view.terminate fun flow => (flow ()).foldWhile Element.add? Element.zero).map fun
    | some total => .ok total
    | none => .error (.sumOverflow type)

/-- The plan that counting runs. -/
def countPlan (view : View ε type) : List (Action ε type.Carrier) :=
  Plan.stripForCount (Plan.optimize view.actions) view.feed.hasSideEffects

/-- The number of elements, without running anything if it follows from the length of the source. -/
def count (view : View ε type) : Traced ε Nat :=
  match view.feed.knownLength.bind fun length => Plan.knownCount length view.countPlan with
  | some count => .silent count
  | none => (view.feed.run view.countPlan).bind fun flow => (flow ()).count

end View

end Flowpress
