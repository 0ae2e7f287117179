import Flowpress.Proofs.Flow.Demand

/-!
# Two adaptors of one kind

Two neighbouring filters, maps, runs of `distinct`, skips or limits do what one
adaptor of that kind does. The equations are between flows, not between what the
flows hold: every pull causes the same calls on both sides.
-/

namespace Flowpress.Flow

variable {ε α β γ : Type}

/-- The second filter is asked only about elements the first one accepts. -/
theorem filter_filter (first second : α → Traced ε Bool) (flow : Flow ε α) :
    (flow.filter first).filter second =
      flow.filter fun value =>
        (first value).bind fun passed => if passed then second value else .silent false := by
  induction flow with
  | done => rfl
  | call event rest inductionHypothesis => simp [filter, inductionHypothesis]
  | yield value rest inductionHypothesis =>
      cases accepted : (first value).value <;>
        simp [filter, precede_eq_afterCalls, filter_afterCalls, afterCalls_append, accepted,
          inductionHypothesis]

/-- The second map takes each image as soon as the first one has given it. -/
theorem map_map (first : α → Traced ε β) (second : β → Traced ε γ) (flow : Flow ε α) :
    (flow.map first).map second = flow.map fun value => (first value).bind second := by
  induction flow with
  | done => rfl
  | call event rest inductionHypothesis => simp [map, inductionHypothesis]
  | yield value rest inductionHypothesis =>
      simp [map, precede_eq_afterCalls, map_afterCalls, afterCalls_append, inductionHypothesis]

/-- What has lost its copies loses nothing more to a table that knows less. -/
theorem distinctAfter_distinctAfter [DecidableEq α] {outer inner : List α}
    (known : ∀ value, value ∈ outer → value ∈ inner) (flow : Flow ε α) :
    distinctAfter outer (distinctAfter inner flow) = distinctAfter inner flow := by
  induction flow generalizing outer inner with
  | done => rfl
  | call event rest inductionHypothesis =>
      simp [distinctAfter, inductionHypothesis () known]
  | yield value rest inductionHypothesis =>
      by_cases seen : value ∈ inner
      · simp [distinctAfter, seen, inductionHypothesis () known]
      · have unseen : value ∉ outer := fun member => seen (known value member)
        have grown : ∀ other, other ∈ value :: outer → other ∈ value :: inner := by
          intro other member
          rcases List.mem_cons.mp member with rfl | member
          · exact List.mem_cons_self
          · exact List.mem_cons_of_mem value (known other member)
        simp [distinctAfter, seen, unseen, inductionHypothesis () grown]

theorem distinct_distinct [DecidableEq α] (flow : Flow ε α) :
    flow.distinct.distinct = flow.distinct :=
  distinctAfter_distinctAfter (fun _ member => member) flow

/-- A skip that drops nothing changes nothing. -/
@[simp] theorem skip_zero (flow : Flow ε α) : flow.skip 0 = flow := by
  induction flow with
  | done => rfl
  | call event rest inductionHypothesis => simp [skip, inductionHypothesis]
  | yield value rest inductionHypothesis => rfl

/-- Two skips drop the sum. -/
theorem skip_skip (first second : Nat) (flow : Flow ε α) :
    (flow.skip first).skip second = flow.skip (first + second) := by
  induction flow generalizing first with
  | done => rfl
  | call event rest inductionHypothesis => simp [skip, inductionHypothesis]
  | yield value rest inductionHypothesis =>
      cases first with
      | zero => cases second <;> simp [skip]
      | succ first => simp [skip, inductionHypothesis, Nat.add_right_comm first 1 second]

theorem takeMore_takeMore (first second : Nat) (flow : Flow ε α) :
    takeMore second (takeMore first flow) = takeMore (min first second) flow := by
  induction flow generalizing first second with
  | done => rfl
  | call event rest inductionHypothesis => simp [takeMore, inductionHypothesis]
  | yield value rest inductionHypothesis =>
      cases first with
      | zero => cases second <;> simp [takeMore]
      | succ first =>
          cases second with
          | zero => simp [takeMore]
          | succ second =>
              simp [takeMore, inductionHypothesis, Nat.add_min_add_right first second 1]

/-- Two limits are as wide as the narrower one. -/
theorem limit_limit (first second : Nat) (flow : Unit → Flow ε α) :
    (limit second fun _ => limit first flow) = limit (min first second) flow := by
  cases first with
  | zero => cases second <;> simp [limit, takeMore]
  | succ first =>
      cases second with
      | zero => simp [limit]
      | succ second => simp [limit, takeMore_takeMore, Nat.add_min_add_right first second 1]

/-- Skips that drop at least everything are the same. -/
theorem skip_eq_skip {first second : Nat} {flow : Flow ε α}
    (all : flow.items.length ≤ first) (all' : flow.items.length ≤ second) :
    flow.skip first = flow.skip second := by
  induction flow generalizing first second with
  | done => rfl
  | call event rest inductionHypothesis =>
      simp only [skip]
      congr 1
      funext _
      exact inductionHypothesis () all all'
  | yield value rest inductionHypothesis =>
      obtain ⟨first, rfl⟩ := Nat.exists_eq_add_one_of_ne_zero (Nat.ne_zero_of_lt all)
      obtain ⟨second, rfl⟩ := Nat.exists_eq_add_one_of_ne_zero (Nat.ne_zero_of_lt all')
      exact inductionHypothesis () (Nat.le_of_succ_le_succ all) (Nat.le_of_succ_le_succ all')

end Flowpress.Flow
