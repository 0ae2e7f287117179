/-!
# Consuming a view

All handles of a view share one flag that says whether the view is consumed. A
request to derive another view reads the flag; a request to run the view reads it
and sets it, in one step. Requests from several clients interleave in some order,
and each takes effect at its one access, so a run of requests is a list of
accesses in the order in which they happen.
-/

namespace Flowpress.Consumption

/-- What a request does with the flag. -/
inductive Access where
  /-- Adding an action or changing the element type: the flag is read. -/
  | derive
  /-- Running the view: the flag is read and set. -/
  | terminate
deriving DecidableEq, Repr

/-- Whether a request finds the view unconsumed, and the flag after it. -/
def access (consumed : Bool) : Access → Bool × Bool
  | .derive => (!consumed, consumed)
  | .terminate => (!consumed, true)

/-- The answers to a run of requests, and the flag after it. -/
def accesses (consumed : Bool) : List Access → List Bool × Bool
  | [] => ([], consumed)
  | request :: requests =>
    let (granted, consumed) := access consumed request
    let (answers, consumed) := accesses consumed requests
    (granted :: answers, consumed)

end Flowpress.Consumption
