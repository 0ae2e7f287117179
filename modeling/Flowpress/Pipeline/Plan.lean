import Flowpress.Pipeline.Action

/-!
# Plans

Before a pipeline runs, its actions are simplified. `Plan.optimize` merges
neighbours of one kind: filters into their conjunction, maps into their
composition, runs of `distinct`, skips into their sum and limits into the
smaller one. `Plan.stripForCount` drops what cannot change how many elements
there are. `Plan.knownCount` tells that number from the number of elements at
the start, if only skips and limits are left.
-/

namespace Flowpress.Plan

variable {ε α : Type}

/-- The greatest count an action can hold; sums of counts stop there. -/
def maximalCount : Nat := UInt64.size - 1

/-- The one action that does what two neighbours of the same kind do. -/
def merge : Action ε α → Action ε α → Option (Action ε α)
  | .filter first, .filter second =>
    some (.filter fun value =>
      (first value).bind fun passed => if passed then second value else .silent false)
  | .map first, .map second => some (.map fun value => (first value).bind second)
  | .distinct, .distinct => some .distinct
  | .skip first, .skip second => some (.skip (min (first + second) maximalCount))
  | .limit first, .limit second => some (.limit (min first second))
  | _, _ => none

/-- Adds an action to an optimized list, of which the last action comes first. -/
def push (optimized : List (Action ε α)) (action : Action ε α) : List (Action ε α) :=
  match optimized with
  | [] => [action]
  | last :: others =>
    match merge last action with
    | some merged => merged :: others
    | none => action :: last :: others

/-- Merges neighbours of one kind wherever that is possible, in one pass. -/
def optimize (actions : List (Action ε α)) : List (Action ε α) :=
  (actions.foldl push []).reverse

/-- Whether the number of elements behind an action depends on what the elements are, or
somebody watches them. -/
def inspects : Action ε α → Bool
  | .filter _ | .flatMap _ | .peek _ | .distinct => true
  | _ => false

def isPeek : Action ε α → Bool
  | .peek _ => true
  | _ => false

/-- How many actions there are up to the last one that inspects its elements. -/
def inspectedLength : List (Action ε α) → Nat
  | [] => 0
  | action :: rest =>
    match inspectedLength rest with
    | 0 => if inspects action then 1 else 0
    | length => length + 1

/-- Whether an action behind the last inspection matters to a count. A sort does if elements are
watched in front of it, because it takes all of them before a later limit can stop. -/
def matters (watched : Bool) : Action ε α → Bool
  | .map _ => false
  | .sorted _ => watched
  | _ => true

/-- Drops the maps and sorts that cannot change how many elements there are or which of them are
watched. `watchedBefore` says that elements are watched in front of all these actions. -/
def stripForCount (actions : List (Action ε α)) (watchedBefore : Bool) : List (Action ε α) :=
  let inspected := actions.take (inspectedLength actions)
  let watched := watchedBefore || inspected.any isPeek
  inspected ++ (actions.drop (inspectedLength actions)).filter (matters watched)

/-- The number of elements behind one action if it follows from the number in front of it. -/
def countAfter (length : Nat) : Action ε α → Option Nat
  | .skip count => some (length - count)
  | .limit count => some (min length count)
  | _ => none

/-- The number of elements behind all actions if it follows from the number in front of them. -/
def knownCount (length : Nat) (actions : List (Action ε α)) : Option Nat :=
  actions.foldlM countAfter length

end Flowpress.Plan
