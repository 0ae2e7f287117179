import Flowpress.Element
import Flowpress.Flow

/-!
# Actions

An `Action` is one step of a pipeline: a function on flows together with what it
was built from, so that plans can look at it. An action is built directly or, by
`Action.ofTransform`, from a kind and a transform whose shape has to fit the kind.

`Action.apply` takes and gives flows that have not started.
-/

namespace Flowpress

/-- The kinds of step. -/
inductive ActionKind where
  | filter
  | map
  /-- A map into another element type, which ends a segment of a pipeline. -/
  | mapTo
  | flatMap
  | peek
  | sorted
  | distinct
  | limit
  | skip
deriving DecidableEq, Repr

namespace ActionKind

/-- Every kind, in the order in which messages list them. -/
def all : List ActionKind :=
  [.filter, .map, .mapTo, .flatMap, .peek, .sorted, .distinct, .limit, .skip]

/-- The name of the kind in data. -/
def name : ActionKind → String
  | .filter => "filter"
  | .map => "map"
  | .mapTo => "map_to"
  | .flatMap => "flat_map"
  | .peek => "peek"
  | .sorted => "sorted"
  | .distinct => "distinct"
  | .limit => "limit"
  | .skip => "skip"

/-- The name of the kind in messages. -/
def title : ActionKind → String
  | .filter => "FILTER"
  | .map => "MAP"
  | .mapTo => "MAP_TO"
  | .flatMap => "FLAT_MAP"
  | .peek => "PEEK"
  | .sorted => "SORTED"
  | .distinct => "DISTINCT"
  | .limit => "LIMIT"
  | .skip => "SKIP"

/-- The name of the kind where a structure is spelled out. -/
def label : ActionKind → String
  | .filter => "Filter"
  | .map => "Map"
  | .mapTo => "MapTo"
  | .flatMap => "FlatMap"
  | .peek => "Peek"
  | .sorted => "Sorted"
  | .distinct => "Distinct"
  | .limit => "Limit"
  | .skip => "Skip"

/-- Whether an output can depend on more than the current element. -/
def isStateful : ActionKind → Bool
  | .sorted | .distinct | .limit | .skip => true
  | _ => false

def hasSideEffects : ActionKind → Bool
  | .peek => true
  | _ => false

end ActionKind

/-- A step as a list of steps shows it: its kind, and the type of the elements it takes. -/
structure ActionInfo where
  kind : ActionKind
  elementType : ElementType
deriving DecidableEq, Repr

/-- The step spelled out. -/
def ActionInfo.spell (info : ActionInfo) : String :=
  "ActionInfo \x7b kind: " ++ info.kind.label ++ ", element_type: " ++ info.elementType.label ++
    " \x7d"

/-- Why a pipeline refuses a request. -/
inductive PipelineError where
  | alreadyConsumed
  | sumOverflow (elementType : ElementType)
  | typeChangingKind
  | shapeMismatch (kind : ActionKind) (shape : String)
deriving DecidableEq, Repr

/-- The error in words. -/
def PipelineError.message : PipelineError → String
  | .alreadyConsumed => "Pipeline already consumed by a terminal operation"
  | .sumOverflow elementType => "Invalid argument: " ++ elementType.name ++ " sum overflowed"
  | .typeChangingKind =>
    "Invalid argument: MAP_TO changes the element type; use Pipeline::map_to"
  | .shapeMismatch kind shape =>
    "Invalid argument: " ++ kind.title ++ " action cannot be built from a '" ++ shape ++
      "' transform"

/-- One step over elements of one type. -/
inductive Action (ε α : Type) where
  | filter (predicate : α → Traced ε Bool)
  | map (operator : α → Traced ε α)
  | flatMap (expander : α → Traced ε (List α))
  | peek (observer : α → List ε)
  /-- Without an order of its own, in the natural order of the elements. -/
  | sorted (order : Option (α → α → Ordering))
  | distinct
  | limit (count : Nat)
  | skip (count : Nat)

/-- What an action can be made of. -/
inductive Transform (ε α : Type) where
  | predicate (predicate : α → Traced ε Bool)
  | operator (operator : α → Traced ε α)
  | expander (expander : α → Traced ε (List α))
  | observer (observer : α → List ε)
  | comparator (order : Option (α → α → Ordering))
  | count (count : Nat)
  | none

/-- The name of the shape of a transform. -/
def Transform.shape {ε α : Type} : Transform ε α → String
  | .predicate _ => "predicate"
  | .operator _ => "operator"
  | .expander _ => "expander"
  | .observer _ => "observer"
  | .comparator _ => "comparator"
  | .count _ => "count"
  | .none => "none"

namespace Action

variable {ε α : Type}

def kind : Action ε α → ActionKind
  | .filter _ => .filter
  | .map _ => .map
  | .flatMap _ => .flatMap
  | .peek _ => .peek
  | .sorted _ => .sorted
  | .distinct => .distinct
  | .limit _ => .limit
  | .skip _ => .skip

/-- The action of a kind made of a transform, if the shape of the transform fits. A map into
another element type is never an action. -/
def ofTransform : ActionKind → Transform ε α → Except PipelineError (Action ε α)
  | .filter, .predicate predicate => .ok (.filter predicate)
  | .map, .operator operator => .ok (.map operator)
  | .flatMap, .expander expander => .ok (.flatMap expander)
  | .peek, .observer observer => .ok (.peek observer)
  | .sorted, .comparator order => .ok (.sorted order)
  | .sorted, .none => .ok (.sorted none)
  | .distinct, .none => .ok .distinct
  | .limit, .count count => .ok (.limit count)
  | .skip, .count count => .ok (.skip count)
  | .mapTo, _ => .error .typeChangingKind
  | kind, transform => .error (.shapeMismatch kind transform.shape)

variable [Element α]

def info (action : Action ε α) : ActionInfo := ⟨action.kind, Element.elementType α⟩

/-- The action spelled out: its kind, its element type, and its count or whether it sorts in the
natural order. -/
def spell (action : Action ε α) : String :=
  let detail := match action with
    | .limit count | .skip count => ", count: " ++ toString count
    | .sorted order => ", natural_order: " ++ toString order.isNone
    | _ => ""
  "Action \x7b kind: " ++ action.kind.label ++ ", element_type: " ++
    (Element.elementType α).label ++ detail ++ " \x7d"

variable [DecidableEq α]

/-- The action as a step between flows that have not started. -/
def apply (action : Action ε α) (flow : Unit → Flow ε α) : Unit → Flow ε α :=
  match action with
  | .filter predicate => fun _ => (flow ()).filter predicate
  | .map operator => fun _ => (flow ()).map operator
  | .flatMap expander => fun _ => (flow ()).flatMap expander
  | .peek observer => fun _ => (flow ()).peek observer
  | .sorted order => fun _ => (flow ()).sorted (order.getD Element.order)
  | .distinct => fun _ => (flow ()).distinct
  | .limit count => fun _ => Flow.limit count flow
  | .skip count => fun _ => (flow ()).skip count

/-- All actions, one after another. -/
def applyAll (actions : List (Action ε α)) (flow : Unit → Flow ε α) : Unit → Flow ε α :=
  actions.foldl (fun flow action => action.apply flow) flow

end Action

end Flowpress
