import Mathlib.Data.List.Induction
import Flowpress.Proofs.Pipeline.Recast

/-!
# The optimized plan does what the plan does

`Plan.optimize` turns every run of neighbours of one kind into one action. Each
of these groups does what its actions do, on every flow and pull by pull, with
one exception: the sum of a run of skips stops at the greatest count. That makes
a difference only if more elements than that reach the run, so a consumer cannot
tell the plans apart as long as they do not.
-/

namespace Flowpress

variable {ε α : Type}

/-! ## Groups of neighbours -/

namespace Plan

/-- How many elements an action drops by itself, whatever they are. -/
def dropped : Action ε α → Nat
  | .skip count => count
  | _ => 0

/-- How many elements the skips of a list of actions drop. -/
def totalDropped : List (Action ε α) → Nat
  | [] => 0
  | action :: actions => dropped action + totalDropped actions

@[simp] theorem totalDropped_append (first second : List (Action ε α)) :
    totalDropped (first ++ second) = totalDropped first + totalDropped second := by
  induction first with
  | nil => simp [totalDropped]
  | cons action first inductionHypothesis =>
      rw [List.cons_append, totalDropped, inductionHypothesis, totalDropped, Nat.add_assoc]

/-- Whatever is recast, as many elements are dropped. -/
theorem totalDropped_recast {δ : Type} (change : ε → List δ)
    (actions : List (Action ε α)) :
    totalDropped (actions.map (Action.recast change)) = totalDropped actions := by
  induction actions with
  | nil => rfl
  | cons action actions inductionHypothesis =>
      rw [List.map_cons, totalDropped, inductionHypothesis, totalDropped]
      cases action <;> rfl

/-- A group of neighbours and the one action they are merged into. -/
inductive Merges : List (Action ε α) → Action ε α → Prop where
  | single (action : Action ε α) : Merges [action] action
  | more {group : List (Action ε α)} {last next merged : Action ε α}
      (prior : Merges group last) (fits : merge last next = some merged) :
      Merges (group ++ [next]) merged

/-- Adding one action to a list adds it to the optimized list. -/
theorem optimize_append_singleton (actions : List (Action ε α)) (action : Action ε α) :
    optimize (actions ++ [action]) = (push (optimize actions).reverse action).reverse := by
  simp [optimize]

/-- Optimizing cuts a plan into groups and merges each of them. -/
theorem optimize_groups (actions : List (Action ε α)) :
    ∃ groups : List (List (Action ε α) × Action ε α),
      actions = groups.flatMap Prod.fst ∧ optimize actions = groups.map Prod.snd ∧
        ∀ group ∈ groups, Merges group.1 group.2 := by
  induction actions using List.reverseRecOn with
  | nil => exact ⟨[], rfl, rfl, by simp⟩
  | append_singleton actions action inductionHypothesis =>
      obtain ⟨groups, split, optimized, merges⟩ := inductionHypothesis
      rw [optimize_append_singleton, optimized]
      -- The last group either takes the new action in or is followed by a new one.
      rcases List.eq_nil_or_concat groups with rfl | ⟨others, ⟨group, last⟩, rfl⟩
      · exact ⟨[([action], action)], by simp [split], rfl, by simp [Merges.single]⟩
      · have ended : (others ++ [(group, last)]).map Prod.snd = others.map Prod.snd ++ [last] := by
          simp
        rw [List.concat_eq_append] at split merges ⊢
        rw [ended, List.reverse_append, List.reverse_singleton, List.singleton_append, push]
        cases fits : merge last action with
        | none =>
            refine ⟨others ++ [(group, last), ([action], action)], ?_, by simp, ?_⟩
            · simp [split]
            · intro member found
              simp only [List.mem_append, List.mem_cons, List.not_mem_nil, or_false] at found
              rcases found with found | rfl | rfl
              · exact merges member (List.mem_append_left _ found)
              · exact merges (group, last) (by simp)
              · exact .single action
        | some merged =>
            refine ⟨others ++ [(group ++ [action], merged)], ?_, by simp, ?_⟩
            · simp [split]
            · intro member found
              simp only [List.mem_append, List.mem_cons, List.not_mem_nil, or_false] at found
              rcases found with found | rfl
              · exact merges member (List.mem_append_left _ found)
              · exact .more (merges (group, last) (by simp)) fits

/-- Only neighbours of one kind are merged, and the merger is of that kind. -/
theorem merge_kind {first second merged : Action ε α} (fits : merge first second = some merged) :
    first.kind = merged.kind ∧ second.kind = merged.kind := by
  cases first <;> cases second <;> simp only [merge, reduceCtorEq, Option.some.injEq] at fits <;>
    subst fits <;> exact ⟨rfl, rfl⟩

/-- All actions of a group are of the kind of their merger. -/
theorem Merges.kind_eq {group : List (Action ε α)} {merged : Action ε α}
    (merges : Merges group merged) : ∀ action ∈ group, action.kind = merged.kind := by
  induction merges with
  | single action => simp
  | @more group last next merged prior fits inductionHypothesis =>
      obtain ⟨held, added⟩ := merge_kind fits
      intro action member
      rcases List.mem_append.mp member with inside | outside
      · exact (inductionHypothesis action inside).trans held
      · exact List.mem_singleton.mp outside ▸ added

theorem exists_skip {action : Action ε α} (skips : action.kind = .skip) :
    ∃ count, action = .skip count := by
  cases action <;> cases skips
  exact ⟨_, rfl⟩

/-- Actions that are no skips drop nothing by themselves. -/
theorem totalDropped_eq_zero {actions : List (Action ε α)}
    (others : ∀ action ∈ actions, action.kind ≠ .skip) : totalDropped actions = 0 := by
  induction actions with
  | nil => rfl
  | cons action actions inductionHypothesis =>
      obtain ⟨first, rest⟩ := List.forall_mem_cons.mp others
      rw [totalDropped, inductionHypothesis rest]
      cases action <;> first | rfl | exact absurd rfl first

/-- A skip that stands for a group drops no more than the group. -/
theorem Merges.count_le {group : List (Action ε α)} {merged : Action ε α}
    (merges : Merges group merged) : dropped merged ≤ totalDropped group := by
  induction merges with
  | single action => simp [totalDropped]
  | @more group last next merged prior fits inductionHypothesis =>
      cases last <;> cases next <;> simp only [merge, reduceCtorEq, Option.some.injEq] at fits
      case skip.skip held added =>
        subst fits
        rw [totalDropped_append]
        simp only [totalDropped, dropped] at inductionHypothesis ⊢
        omega
      all_goals
        subst fits
        simp [dropped]

variable [Element α] [DecidableEq α]

/-- Two neighbours do what their merger does, unless a sum of skips is cut off and somebody could
notice. -/
theorem merge_apply {first second merged : Action ε α} (merges : merge first second = some merged)
    (flow : Unit → Flow ε α)
    (fits : (flow ()).items.length ≤ maximalCount ∨
      dropped first + dropped second ≤ maximalCount) :
    merged.apply flow = second.apply (first.apply flow) := by
  cases first <;> cases second <;> simp only [merge, reduceCtorEq, Option.some.injEq] at merges <;>
    subst merges <;> funext _ <;> simp only [Action.apply]
  case filter.filter first second _ => exact (Flow.filter_filter first second _).symm
  case map.map first second _ => exact (Flow.map_map first second _).symm
  case distinct.distinct => exact (Flow.distinct_distinct _).symm
  case limit.limit first second _ => exact (Flow.limit_limit first second flow).symm
  case skip.skip first second _ =>
    rw [Flow.skip_skip]
    by_cases cut : first + second ≤ maximalCount
    · rw [Nat.min_eq_left cut]
    · have short : (flow ()).items.length ≤ maximalCount := fits.resolve_right cut
      exact Flow.skip_eq_skip (by omega) (by omega)

/-- A group does what its merger does, unless a sum of skips is cut off and somebody could
notice. -/
theorem Merges.apply {group : List (Action ε α)} {merged : Action ε α}
    (merges : Merges group merged) (flow : Unit → Flow ε α)
    (fits : (flow ()).items.length ≤ maximalCount ∨ totalDropped group ≤ maximalCount) :
    merged.apply flow = Action.applyAll group flow := by
  induction merges with
  | single action => rfl
  | @more group last next merged prior mergesNext inductionHypothesis =>
      have total : totalDropped (group ++ [next]) = totalDropped group + dropped next := by
        simp [totalDropped]
      rw [total] at fits
      have held : dropped last ≤ totalDropped group := prior.count_le
      rw [merge_apply mergesNext flow (fits.imp_right fun sum => by omega),
        inductionHypothesis (fits.imp_right fun sum => by omega), Action.applyAll_append]
      rfl

/-! ## Limits that take nothing -/

/-- Whatever lies in front of a limit that takes nothing is never pulled. -/
theorem applyAll_eq_of_mem {actions : List (Action ε α)} (blind : .limit 0 ∈ actions)
    (first second : Unit → Flow ε α) :
    Action.applyAll actions first = Action.applyAll actions second := by
  obtain ⟨before, after, rfl⟩ := List.append_of_mem blind
  rw [Action.applyAll_append, Action.applyAll_append, Action.applyAll_cons, Action.applyAll_cons]
  rfl

omit [Element α] [DecidableEq α] in
/-- A limit that takes nothing still does so when it is merged. -/
theorem Merges.eq_limit_zero {group : List (Action ε α)} {merged : Action ε α}
    (merges : Merges group merged) (blind : .limit 0 ∈ group) : merged = .limit 0 := by
  induction merges with
  | single action => exact (List.mem_singleton.mp blind).symm
  | @more group last next merged prior fits inductionHypothesis =>
      rcases List.mem_append.mp blind with inside | added
      · obtain rfl := inductionHypothesis inside
        cases next <;> simp only [merge, reduceCtorEq, Option.some.injEq] at fits
        simpa using fits.symm
      · obtain rfl := List.mem_singleton.mp added
        cases last <;> simp only [merge, reduceCtorEq, Option.some.injEq] at fits
        simpa using fits.symm

/-! ## Plans as a whole -/

/-- No sum of skips that is cut off can be noticed: every run of skips that is pulled at all drops
no more than a count can hold, or meets no more elements than that. -/
def SkipsFit (actions : List (Action ε α)) (flow : Unit → Flow ε α) : Prop :=
  ∀ before run after, actions = before ++ run ++ after → (∀ action ∈ run, action.kind = .skip) →
    .limit 0 ∉ after →
      totalDropped run ≤ maximalCount ∨
        (Action.applyAll before flow ()).items.length ≤ maximalCount

theorem SkipsFit.tail {front rest : List (Action ε α)} {flow : Unit → Flow ε α}
    (fits : SkipsFit (front ++ rest) flow) : SkipsFit rest (Action.applyAll front flow) := by
  intro before run after split skips pulled
  rw [← Action.applyAll_append]
  exact fits (front ++ before) run after (by simp [split]) skips pulled

theorem applyAll_groups (groups : List (List (Action ε α) × Action ε α))
    (merges : ∀ group ∈ groups, Merges group.1 group.2) (flow : Unit → Flow ε α)
    (fits : SkipsFit (groups.flatMap Prod.fst) flow) :
    Action.applyAll (groups.map Prod.snd) flow =
      Action.applyAll (groups.flatMap Prod.fst) flow := by
  induction groups generalizing flow with
  | nil => rfl
  | cons head groups inductionHypothesis =>
      obtain ⟨group, merged⟩ := head
      have mergesHead : Merges group merged := merges (group, merged) List.mem_cons_self
      have mergesTail : ∀ group ∈ groups, Merges group.1 group.2 :=
        fun other found => merges other (List.mem_cons_of_mem _ found)
      rw [List.flatMap_cons] at fits
      rw [List.map_cons, Action.applyAll_cons, List.flatMap_cons, Action.applyAll_append,
        ← inductionHypothesis mergesTail _ fits.tail]
      by_cases blind : .limit 0 ∈ groups.flatMap Prod.fst
      · obtain ⟨last, found, inside⟩ := List.mem_flatMap.mp blind
        have merged : last.2 = .limit 0 := (mergesTail last found).eq_limit_zero inside
        exact applyAll_eq_of_mem (merged ▸ List.mem_map_of_mem found) _ _
      · congr 1
        apply mergesHead.apply
        by_cases skips : merged.kind = .skip
        · have only : ∀ action ∈ group, action.kind = .skip :=
            fun action member => (mergesHead.kind_eq action member).trans skips
          exact (fits [] group _ rfl only blind).symm
        · have nothing : totalDropped group = 0 :=
            totalDropped_eq_zero fun action member => mergesHead.kind_eq action member ▸ skips
          exact .inr (by simp [nothing])

/-- The optimized plan gives the same flow as the plan if no sum of skips that is cut off can be
noticed. -/
theorem applyAll_optimize {actions : List (Action ε α)} {flow : Unit → Flow ε α}
    (fits : SkipsFit actions flow) :
    Action.applyAll (optimize actions) flow = Action.applyAll actions flow := by
  obtain ⟨groups, split, optimized, merges⟩ := optimize_groups actions
  rw [split] at fits
  rw [optimized, split]
  exact applyAll_groups groups merges flow fits

/-! ## What a consumer can tell -/

/-- The flow with a mark in front of every element. -/
def marked (flow : Flow ε α) : Flow (Option ε) α :=
  (flow.recast fun event => [some event]).peek fun _ => [none]

/-- How many elements of a flow reach some actions while a consumer behind these actions pulls
`count` times. -/
def reaching (count : Nat) (actions : List (Action ε α)) (flow : Unit → Flow ε α) : Nat :=
  (Flow.pulls count
    (Action.applyAll (actions.map (Action.recast fun event => [some event])) fun _ =>
      marked (flow ()))).calls.countP Option.isNone

omit [Element α] [DecidableEq α] in
/-- Pulling meets one mark for each element. -/
theorem countP_callsWithin_marked (count : Nat) (flow : Flow ε α) :
    ((marked flow).callsWithin count).countP Option.isNone = min count flow.items.length := by
  induction flow generalizing count with
  | done => simp [marked, Flow.recast, Flow.peek, Flow.map, Flow.items]
  | call event rest inductionHypothesis =>
      cases count with
      | zero => simp
      | succ count =>
          simpa [marked, Flow.recast, Flow.afterCalls, Flow.peek, Flow.map, Flow.items] using
            inductionHypothesis () (count + 1)
  | yield value rest inductionHypothesis =>
      cases count with
      | zero => simp
      | succ count =>
          simpa [marked, Flow.recast, Flow.afterCalls, Flow.peek, Flow.map, Flow.items,
            Flow.precede, Nat.add_min_add_right] using inductionHypothesis () count

/-- The first pull on an action passes on at least one pull, unless it is a limit that takes
nothing. -/
theorem callsWithin_one_isPrefix_apply {action : Action ε α} (pulls : action ≠ .limit 0)
    (flow : Unit → Flow ε α) :
    (flow ()).callsWithin 1 <+: (action.apply flow ()).callsWithin 1 := by
  cases action with
  | limit count =>
      cases count with
      | zero => exact absurd rfl pulls
      | succ more => exact Flow.callsWithin_one_isPrefix (fun _ _ => rfl) _
  | _ => exact Flow.callsWithin_one_isPrefix (fun _ _ => rfl) _

theorem callsWithin_one_isPrefix_applyAll {actions : List (Action ε α)}
    (pulls : .limit 0 ∉ actions) (flow : Unit → Flow ε α) :
    (flow ()).callsWithin 1 <+: (Action.applyAll actions flow ()).callsWithin 1 := by
  induction actions generalizing flow with
  | nil => exact List.prefix_rfl
  | cons action actions inductionHypothesis =>
      rw [List.mem_cons, not_or] at pulls
      exact (callsWithin_one_isPrefix_apply (Ne.symm pulls.1) flow).trans
        (inductionHypothesis pulls.2 _)

/-- A run of skips drops the sum. -/
theorem applyAll_skips {run : List (Action ε α)} (skips : ∀ action ∈ run, action.kind = .skip)
    (flow : Unit → Flow ε α) :
    Action.applyAll run flow = fun _ => (flow ()).skip (totalDropped run) := by
  induction run generalizing flow with
  | nil => simp [totalDropped]
  | cons action run inductionHypothesis =>
      obtain ⟨first, rest⟩ := List.forall_mem_cons.mp skips
      obtain ⟨count, rfl⟩ := exists_skip first
      rw [Action.applyAll_cons, inductionHypothesis rest, totalDropped]
      simp only [Action.apply, Flow.skip_skip, dropped]

/-- A run of skips that is pulled meets all that it drops and one element more, as far as there are
so many. -/
theorem le_reaching (count : Nat) {run after : List (Action ε α)}
    (skips : ∀ action ∈ run, action.kind = .skip) (pulled : .limit 0 ∉ after)
    (flow : Unit → Flow ε α) :
    min (totalDropped run + 1) (flow ()).items.length ≤
      reaching (count + 1) (run ++ after) flow := by
  have skips' : ∀ action ∈ run.map (Action.recast fun event => [some event]),
      action.kind = .skip := by
    simpa using skips
  have pulled' : .limit 0 ∉ after.map (Action.recast fun event => [some event]) := by
    intro member
    obtain ⟨action, found, recast⟩ := List.mem_map.mp member
    cases action <;> simp only [Action.recast, reduceCtorEq, Action.limit.injEq] at recast
    exact pulled (recast ▸ found)
  have reached : reaching (count + 1) (run ++ after) flow =
      ((Action.applyAll (after.map (Action.recast fun event => [some event]))
        (fun _ => (marked (flow ())).skip (totalDropped run)) ()).callsWithin
          (count + 1)).countP Option.isNone := by
    rw [reaching, List.map_append, Flow.pulls_eq, Action.applyAll_append, applyAll_skips skips',
      totalDropped_recast]
  have dropped : ((marked (flow ())).skip (totalDropped run)).callsWithin 1 =
      (marked (flow ())).callsWithin (totalDropped run + 1) := Flow.callsWithin_skip _ 0 _
  rw [reached, ← countP_callsWithin_marked, ← dropped]
  have first := callsWithin_one_isPrefix_applyAll pulled' fun _ =>
    (marked (flow ())).skip (totalDropped run)
  exact (first.trans (Flow.callsWithin_isPrefix_of_le _ (by omega))).sublist.countP_le

/-- No more elements reach a run of skips than a count can hold, while a consumer pulls `count`
times. A run begins where no skip is in front of it. -/
def SkipsBounded (count : Nat) (actions : List (Action ε α)) (flow : Unit → Flow ε α) : Prop :=
  ∀ before skipped after, actions = before ++ .skip skipped :: after →
    (∀ last ∈ before.getLast?, last.kind ≠ .skip) →
      reaching count (.skip skipped :: after) (Action.applyAll before flow) ≤ maximalCount

omit [Element α] [DecidableEq α] in
/-- The skips at the end of some actions are the end of a run. -/
theorem exists_run_start (actions : List (Action ε α)) :
    ∃ front run, actions = front ++ run ∧ (∀ action ∈ run, action.kind = .skip) ∧
      ∀ last ∈ front.getLast?, last.kind ≠ .skip := by
  induction actions using List.reverseRecOn with
  | nil => exact ⟨[], [], rfl, by simp, by simp⟩
  | append_singleton actions action inductionHypothesis =>
      by_cases skips : action.kind = .skip
      · obtain ⟨front, run, rfl, only, start⟩ := inductionHypothesis
        refine ⟨front, run ++ [action], List.append_assoc .., ?_, start⟩
        simpa [or_imp, forall_and, skips] using only
      · exact ⟨actions ++ [action], [], (List.append_nil _).symm, by simp, by simpa using skips⟩

theorem skipsFit_of_bounded {count : Nat} {actions : List (Action ε α)} {flow : Unit → Flow ε α}
    (bounded : SkipsBounded (count + 1) actions flow) : SkipsFit actions flow := by
  intro before run after split skips pulled
  obtain ⟨front, earlier, rfl, skipsEarlier, start⟩ := exists_run_start before
  -- The run may have begun earlier, where no fewer elements arrive than in its midst.
  have whole : ∀ action ∈ earlier ++ run, action.kind = .skip := by
    simpa [or_imp, forall_and] using ⟨skipsEarlier, skips⟩
  have many := le_reaching count whole pulled (Action.applyAll front flow)
  have fewer : (Action.applyAll (front ++ earlier) flow ()).items.length ≤
      (Action.applyAll front flow ()).items.length := by
    rw [Action.applyAll_append, applyAll_skips skipsEarlier, Flow.items_skip, List.length_drop]
    exact Nat.sub_le _ _
  rw [totalDropped_append] at many
  cases found : earlier ++ run with
  | nil => exact .inl (by simp [(List.append_eq_nil_iff.mp found).2, totalDropped])
  | cons action rest =>
      obtain ⟨skipped, rfl⟩ := exists_skip (whole action (found ▸ List.mem_cons_self))
      have few := bounded front skipped (rest ++ after)
        (by rw [split, List.append_assoc front, found]; simp) start
      rw [found, List.cons_append] at many
      omega

theorem pulls_optimize_of_bounded {count : Nat} {actions : List (Action ε α)}
    {flow : Unit → Flow ε α} (bounded : SkipsBounded count actions flow) :
    Flow.pulls count (Action.applyAll (optimize actions) flow) =
      Flow.pulls count (Action.applyAll actions flow) := by
  cases count with
  | zero => rfl
  | succ count => rw [applyAll_optimize (skipsFit_of_bounded bounded)]

/-! ## Upstreams that need not end -/

/-- Something to pull on: each pull records calls and gives an element, or nothing once it is
exhausted. -/
structure Upstream (ε α : Type) where
  State : Type
  initial : State
  next : State → Traced ε (Option (α × State))

namespace Upstream

omit [Element α] [DecidableEq α] in
/-- The first `depth` pulls on an upstream in some state. A mark stands for what lies beyond. -/
def cutFrom (upstream : Upstream ε α) : Nat → upstream.State → Flow (Option ε) α
  | 0, _ => .call none fun _ => .done
  | depth + 1, state =>
    .afterCalls ((upstream.next state).calls.map some) fun _ =>
      match (upstream.next state).value with
      | none => .done
      | some (value, state) => .yield value fun _ => upstream.cutFrom depth state

omit [Element α] [DecidableEq α] in
/-- The first `depth` pulls on an upstream. -/
def cut (upstream : Upstream ε α) (depth : Nat) : Unit → Flow (Option ε) α :=
  fun _ => upstream.cutFrom depth upstream.initial

/-- A plan over an upstream answers `count` pulls with a result: it does so without looking beyond
some depth. -/
def Answers (upstream : Upstream ε α) (actions : List (Action ε α)) (count : Nat)
    (result : Traced ε (List (Option α))) : Prop :=
  ∃ depth, Flow.pulls count
    (Action.applyAll (actions.map (Action.recast fun event => [some event]))
      (upstream.cut depth)) = result.recast fun event => [some event]

end Upstream

/-- Optimizing a plan cannot be noticed. A consumer that pulls any number of times gets the same
answers from the optimized plan as from the plan, and causes the same calls in the same order, if
no more elements reach a run of skips meanwhile than a count can hold. Over an upstream that need
not end both plans come to the same answers and calls, or neither comes to any. -/
theorem pulls_optimize (actions : List (Action ε α)) (count : Nat) :
    (∀ flow : Unit → Flow ε α, SkipsBounded count actions flow →
      Flow.pulls count (Action.applyAll (optimize actions) flow) =
        Flow.pulls count (Action.applyAll actions flow)) ∧
    (∀ upstream : Upstream ε α,
      (∀ depth, SkipsBounded count (actions.map (Action.recast fun event => [some event]))
        (upstream.cut depth)) →
      ∀ result, upstream.Answers (optimize actions) count result ↔
        upstream.Answers actions count result) := by
  refine ⟨fun flow bounded => pulls_optimize_of_bounded bounded, ?_⟩
  intro upstream bounded result
  simp only [Upstream.Answers, ← (unseen_recast _).optimize]
  exact exists_congr fun depth => by rw [pulls_optimize_of_bounded (bounded depth)]

/-- A plan with two maps, and with two skips whose sum is more than a count can hold. -/
def cutOffPlan : List (Action (String × Int32) Int32) :=
  [.map fun value => ⟨[("double", value)], value * 2⟩,
    .map fun value => ⟨[("increase", value)], value + 1⟩, .skip 2, .skip maximalCount]

theorem cutOffPlan_bounded :
    SkipsBounded 3 cutOffPlan fun _ => .ofList [1, 2, 3, 4] := by
  intro before skipped after split
  rcases before with _ | ⟨first, _ | ⟨second, _ | ⟨third, _ | ⟨fourth, before⟩⟩⟩⟩ <;>
    simp only [cutOffPlan, List.nil_append, List.cons_append, List.cons.injEq, reduceCtorEq,
      false_and, and_false, List.nil_eq, List.append_eq_nil_iff, Action.skip.injEq] at split
  · obtain ⟨rfl, rfl, rfl, rfl⟩ := split
    decide
  · obtain ⟨rfl, rfl, rfl, rfl, rfl⟩ := split
    decide

theorem cutOffPlan_unnoticed :
    SkipsBounded 3 cutOffPlan (fun _ => .ofList [1, 2, 3, 4]) ∧
      Flow.pulls 3 (Action.applyAll (optimize cutOffPlan) fun _ => .ofList [1, 2, 3, 4]) =
        Flow.pulls 3 (Action.applyAll cutOffPlan fun _ => .ofList [1, 2, 3, 4]) :=
  ⟨cutOffPlan_bounded, (pulls_optimize cutOffPlan 3).1 _ cutOffPlan_bounded⟩

end Plan

end Flowpress
