import Flowpress.Proofs.Flow.Demand

/-!
# Two flows of which one is only counted

A flow that is counted agrees with one that is collected if it has as many
elements, and if every number of pulls causes the same calls on both. If nobody
watches the elements it is enough that the calls on the first are the beginning
of those on the second. Agreement passes through all that does not inspect an
element. The counted flow need not take part in a map that makes no calls, nor,
if nobody watches, in a sort.
-/

namespace Flowpress

variable {ε α : Type}

/-- The calls of a count are those of a collection if elements are watched, and the beginning of
them if not. -/
def CallsAgree (watched : Bool) (counted collected : List ε) : Prop :=
  if watched then counted = collected else counted <+: collected

namespace CallsAgree

variable {watched : Bool} {counted collected : List ε}

theorem refl (calls : List ε) : CallsAgree watched calls calls := by
  cases watched
  · exact List.prefix_rfl
  · rfl

theorem append_left (agree : CallsAgree watched counted collected) (before : List ε) :
    CallsAgree watched (before ++ counted) (before ++ collected) := by
  cases watched
  · exact (List.prefix_append_right_inj before).mpr agree
  · exact congrArg (before ++ ·) agree

theorem extend (agree : CallsAgree false counted collected) {more : List ε}
    (longer : collected <+: more) : CallsAgree false counted more :=
  List.IsPrefix.trans agree longer

end CallsAgree

namespace Flow

/-- A flow that is counted agrees with a flow that is collected. -/
structure Agrees (watched : Bool) (counted collected : Flow ε α) : Prop where
  length : counted.items.length = collected.items.length
  calls (count : Nat) :
    CallsAgree watched (counted.callsWithin count) (collected.callsWithin count)

namespace Agrees

variable {watched : Bool}

theorem refl (flow : Flow ε α) : Agrees watched flow flow := ⟨rfl, fun _ => .refl _⟩

/-- The calls of both flows agree up to the end. -/
theorem trace {counted collected : Flow ε α} (agrees : Agrees watched counted collected) :
    CallsAgree watched counted.trace collected.trace := by
  have calls := agrees.calls (counted.items.length + 1)
  rwa [callsWithin_eq_trace counted (Nat.lt_succ_self _),
    callsWithin_eq_trace collected (agrees.length ▸ Nat.lt_succ_self _)] at calls

/-- A map that makes no calls may be left out. -/
theorem map {counted collected : Flow ε α} (agrees : Agrees watched counted collected)
    {operator : α → Traced ε α} (silent : ∀ value, (operator value).calls = []) :
    Agrees watched counted (collected.map operator) where
  length := by rw [items_map, List.length_map, agrees.length]
  calls count := callsWithin_map_of_silent silent count collected ▸ agrees.calls count

theorem limit {counted collected : Unit → Flow ε α}
    (agrees : Agrees watched (counted ()) (collected ())) (width : Nat) :
    Agrees watched (Flow.limit width counted) (Flow.limit width collected) where
  length := by simp [items_limit, agrees.length]
  calls count := by
    rw [callsWithin_limit, callsWithin_limit]
    exact agrees.calls _

theorem skip {counted collected : Flow ε α} (agrees : Agrees watched counted collected)
    (dropped : Nat) : Agrees watched (counted.skip dropped) (collected.skip dropped) where
  length := by simp [items_skip, agrees.length]
  calls count := by
    cases count with
    | zero => simpa using CallsAgree.refl []
    | succ count =>
        rw [callsWithin_skip, callsWithin_skip]
        exact agrees.calls _

/-- A sort makes all calls at the first pull, on both sides. -/
theorem sorted {counted collected : Flow ε α} (agrees : Agrees watched counted collected)
    (order : α → α → Ordering) :
    Agrees watched (counted.sorted order) (collected.sorted order) where
  length := by simp [items_sorted, sortList, agrees.length]
  calls count := by
    cases count with
    | zero => simpa using CallsAgree.refl []
    | succ count =>
        rw [callsWithin_sorted, callsWithin_sorted]
        exact agrees.trace

/-- A sort may be left out where nobody watches. The calls before some element are then made at the
first pull, together with all others. -/
theorem sorted_unwatched {counted collected : Flow ε α} (agrees : Agrees false counted collected)
    (order : α → α → Ordering) : Agrees false counted (collected.sorted order) where
  length := by simp [items_sorted, sortList, agrees.length]
  calls count := by
    cases count with
    | zero => simpa using CallsAgree.refl []
    | succ count =>
        rw [callsWithin_sorted]
        exact (agrees.calls _).extend (callsWithin_isPrefix_trace collected _)

end Agrees

end Flow

end Flowpress
