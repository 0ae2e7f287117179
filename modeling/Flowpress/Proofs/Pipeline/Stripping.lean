import Flowpress.Proofs.Pipeline.CountCalls

/-!
# Stripped plans and known counts

Stripping a plan for a count is sound on every plan, optimized or not: as many elements
come out of what is left, and nothing is left that stripping again would drop. What is
known of a number of elements does not depend on whether the plan was optimized first,
because the sum of two skips is cut off only where both drop everything.
-/

namespace Flowpress.Plan

variable {ε α : Type}

/-! ## Stripping again -/

/-- A plan falls apart into the actions up to the last inspection and those behind it. -/
theorem exists_front_rest (actions : List (Action ε α)) :
    ∃ front rest, actions = front ++ rest ∧ EndsInspecting front ∧
      ∀ action ∈ rest, inspects action = false :=
  ⟨_, _, (List.take_append_drop (inspectedLength actions) actions).symm,
    endsInspecting_take actions, fun _ => not_inspects_of_mem_drop⟩

/-- Nothing in a stripped plan can be dropped. -/
theorem stripForCount_stripForCount (actions : List (Action ε α)) (watchedBefore : Bool) :
    stripForCount (stripForCount actions watchedBefore) watchedBefore =
      stripForCount actions watchedBefore := by
  obtain ⟨front, rest, rfl, ends, free⟩ := exists_front_rest actions
  have freeKept {watched : Bool} : ∀ action ∈ rest.filter (matters watched),
      inspects action = false := fun action kept => free action (List.mem_filter.mp kept).1
  rw [stripForCount_append ends free, stripForCount_append ends freeKept, List.filter_filter]
  simp only [Bool.and_self]

/-! ## Known counts -/

/-- No action that tells how many elements it leaves leaves more than there were. -/
theorem le_of_countAfter {length total : Nat} {action : Action ε α}
    (known : countAfter length action = some total) : total ≤ length := by
  cases action <;> simp only [countAfter, reduceCtorEq, Option.some.injEq] at known <;> omega

/-- A merger tells of a number of elements what both of its actions tell one after the other. -/
theorem countAfter_merge {first second merged : Action ε α}
    (fits : merge first second = some merged) {length : Nat} (bounded : length ≤ maximalCount) :
    countAfter length merged =
      (countAfter length first).bind fun left => countAfter left second := by
  cases first <;> cases second <;> simp only [merge, reduceCtorEq, Option.some.injEq] at fits <;>
    subst fits
  case skip.skip first second =>
    -- Where the sum is cut off, it still drops all elements there can be.
    simp only [countAfter, Option.bind_some, Option.some.injEq]
    omega
  case limit.limit first second =>
    simp only [countAfter, Option.bind_some, Nat.min_assoc]
  all_goals rfl

theorem knownCount_singleton (length : Nat) (action : Action ε α) :
    knownCount length [action] = countAfter length action :=
  List.foldlM_cons.trans (bind_pure _)

theorem knownCount_append (length : Nat) (front rest : List (Action ε α)) :
    knownCount length (front ++ rest) =
      (knownCount length front).bind fun left => knownCount left rest :=
  List.foldlM_append

/-- A group tells what its merger tells. -/
theorem Merges.knownCount_eq {group : List (Action ε α)} {merged : Action ε α}
    (merges : Merges group merged) {length : Nat} (bounded : length ≤ maximalCount) :
    knownCount length group = countAfter length merged := by
  induction merges with
  | single action => exact knownCount_singleton length action
  | @more group last next merged prior fits inductionHypothesis =>
      rw [knownCount_append, inductionHypothesis, countAfter_merge fits bounded]
      exact congrArg _ (funext fun left => knownCount_singleton left next)

/-- Optimizing does not change what is known of a number of elements. -/
theorem knownCount_optimize (actions : List (Action ε α)) {length : Nat}
    (bounded : length ≤ maximalCount) :
    knownCount length (optimize actions) = knownCount length actions := by
  obtain ⟨groups, split, optimized, merges⟩ := optimize_groups actions
  rw [optimized, split]
  clear optimized split
  induction groups generalizing length with
  | nil => rfl
  | cons group groups inductionHypothesis =>
      obtain ⟨first, others⟩ := List.forall_mem_cons.mp merges
      rw [List.flatMap_cons, knownCount_append, first.knownCount_eq bounded]
      refine Option.bind_congr fun left known => ?_
      exact inductionHypothesis ((le_of_countAfter known).trans bounded) others

/-- A number is known exactly where there are only limits and skips. -/
theorem exists_knownCount_iff (actions : List (Action ε α)) (length : Nat) :
    (∃ total, knownCount length actions = some total) ↔
      ∀ action ∈ actions, action.kind ∈ [.limit, .skip] := by
  refine ⟨fun known => ?_, fun plain => knownCount_isSome plain length⟩
  induction actions generalizing length with
  | nil => exact List.forall_mem_nil _
  | cons action actions inductionHypothesis =>
      obtain ⟨total, known⟩ := known
      obtain ⟨left, first, rest⟩ := Option.bind_eq_some_iff.mp known
      refine List.forall_mem_cons.mpr ⟨?_, inductionHypothesis left ⟨total, rest⟩⟩
      cases action <;> simp_all [countAfter, Action.kind]

/-- A number is known behind a stripped plan exactly if no action inspects its elements and no sort
is kept. -/
theorem exists_knownCount_stripForCount_iff (actions : List (Action ε α)) (watchedBefore : Bool)
    (length : Nat) :
    (∃ total, knownCount length (stripForCount actions watchedBefore) = some total) ↔
      ∀ action ∈ actions,
        inspects action = false ∧ (watchedBefore = true → action.kind ≠ .sorted) := by
  rw [exists_knownCount_iff]
  constructor
  · intro plain
    obtain ⟨front, rest, rfl, ends, free⟩ := exists_front_rest actions
    rw [stripForCount_append ends free] at plain
    -- The last inspection would be kept, so there is none.
    obtain rfl : front = [] := by
      apply List.getLast?_eq_none_iff.mp
      refine Option.eq_none_iff_forall_not_mem.mpr fun last found => ?_
      have kind := plain last (List.mem_append_left _ (List.mem_of_getLast? found))
      have inspecting := (inspects_iff last).mp (ends last found)
      revert kind inspecting
      cases last.kind <;> decide
    refine fun action member => ⟨free action member, ?_⟩
    rintro rfl sorts
    have kept : matters true action = true := by
      cases action <;> first | rfl | cases sorts
    have kind := plain action (List.mem_filter.mpr ⟨member, kept⟩)
    rw [sorts] at kind
    exact absurd kind (by decide)
  · intro free action kept
    rw [stripForCount_eq_filter fun action member => (free action member).1] at kept
    obtain ⟨member, remains⟩ := List.mem_filter.mp kept
    obtain ⟨inspects, unsorted⟩ := free action member
    cases action <;> simp_all [Plan.inspects, matters, Action.kind]

variable [Element α] [DecidableEq α]

/-- Stripping a plan for a count is sound on every plan, and for every flow. What is left of the plan
gives as many elements as the plan, and stripping it again leaves it as it is. A number that is known
of what is left is the number of elements that the plan gives on every flow with as many elements,
and it is known exactly if no action inspects its elements and no sort has to be kept. Of a number
that a count can hold the optimized plan tells the same as the plan, although it may cut sums of
skips off. -/
theorem strip_sound (actions : List (Action ε α)) (watchedBefore : Bool) :
    (∀ flow : Unit → Flow ε α,
      (Action.applyAll (stripForCount actions watchedBefore) flow ()).items.length =
        (Action.applyAll actions flow ()).items.length) ∧
    stripForCount (stripForCount actions watchedBefore) watchedBefore =
      stripForCount actions watchedBefore ∧
    (∀ length,
      (∀ total, knownCount length (stripForCount actions watchedBefore) = some total →
        ∀ flow : Unit → Flow ε α, (flow ()).items.length = length →
          (Action.applyAll actions flow ()).items.length = total) ∧
      ((∃ total, knownCount length (stripForCount actions watchedBefore) = some total) ↔
        ∀ action ∈ actions,
          inspects action = false ∧ (watchedBefore = true → action.kind ≠ .sorted))) ∧
    ∀ length ≤ maximalCount, knownCount length (optimize actions) = knownCount length actions := by
  refine ⟨length_stripForCount actions watchedBefore,
    stripForCount_stripForCount actions watchedBefore, fun length => ⟨?_, ?_⟩,
    fun length bounded => knownCount_optimize actions bounded⟩
  · intro total known flow size
    obtain ⟨free, left⟩ := knownCount_eq_some known
    rw [← length_stripForCount actions watchedBefore, length_applyAll free, size, left]
  · exact exists_knownCount_stripForCount_iff actions watchedBefore length

/-- Maps, sorts, skips and limits in turn. -/
def alternating : List (Action Int32 Int32) :=
  [.map fun value => ⟨[value], -value⟩, .limit 9, .sorted none, .skip 2,
    .map fun value => ⟨[value], value + 1⟩, .limit 5, .skip 1]

/-- Of ten elements four are left, and of as many as a count can hold two skips whose sum is cut off
leave none. -/
theorem alternating_stripped :
    let flow : Unit → Flow Int32 Int32 := fun _ => .ofList [3, 1, 4, 1, 5, 9, 2, 6, 5, 3]
    let skips : List (Action Int32 Int32) := [.skip 3, .skip maximalCount]
    (knownCount 10 (stripForCount alternating false) = some 4 ∧ (flow ()).items.length = 10 ∧
      (Action.applyAll alternating flow ()).items.length = 4) ∧
    maximalCount ≤ maximalCount ∧
      knownCount maximalCount (optimize skips) = knownCount maximalCount skips := by
  intro flow skips
  obtain ⟨-, -, counts, -⟩ := strip_sound alternating false
  obtain ⟨-, -, -, optimized⟩ := strip_sound skips false
  have known : knownCount 10 (stripForCount alternating false) = some 4 := by decide
  have ten : (flow ()).items.length = 10 := by decide
  exact ⟨⟨known, ten, (counts 10).1 4 known flow ten⟩, le_rfl, optimized maximalCount le_rfl⟩

end Flowpress.Plan
