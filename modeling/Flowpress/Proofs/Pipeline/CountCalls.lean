import Mathlib.Data.List.Forall2
import Flowpress.Proofs.Flow.Agreement
import Flowpress.Proofs.Pipeline.Counting
import Flowpress.Proofs.Pipeline.Labels
import Flowpress.Proofs.Pipeline.NormalForms

/-!
# The calls of a count

Counting a view makes the calls that collecting it makes, without those of the
maps behind the last inspection, whose results nobody looks at. It makes all of
them if a peek watches the elements anywhere in the view. Otherwise it may stop
earlier, since a sort in front of a limit is left out, or is not needed at all.
-/

namespace Flowpress

variable {ε δ α β : Type} {type : ElementType}

namespace Plan

/-! ## A plan falls apart at its last inspection -/

theorem inspects_congr {first : Action ε α} {second : Action δ β}
    (same : first.kind = second.kind) : inspects first = inspects second := by
  rw [Bool.eq_iff_iff, inspects_iff, inspects_iff, same]

/-- The last inspection is found by the kinds of the actions alone. -/
theorem inspectedLength_congr {first : List (Action ε α)} {second : List (Action δ β)}
    (same : first.map Action.kind = second.map Action.kind) :
    inspectedLength first = inspectedLength second := by
  induction first generalizing second with
  | nil =>
      obtain rfl := List.map_eq_nil_iff.mp same.symm
      rfl
  | cons action first inductionHypothesis =>
      cases second with
      | nil => cases same
      | cons other second =>
          obtain ⟨head, tail⟩ := List.cons_eq_cons.mp same
          rw [inspectedLength, inspectedLength, inductionHypothesis tail, inspects_congr head]

/-- The last action of a plan inspects its elements, if there is a last action. -/
def EndsInspecting (actions : List (Action ε α)) : Prop :=
  ∀ last ∈ actions.getLast?, inspects last = true

/-- What lies in front of the last inspection ends with it. -/
theorem endsInspecting_take (actions : List (Action ε α)) :
    EndsInspecting (actions.take (inspectedLength actions)) := by
  induction actions with
  | nil => simp [EndsInspecting]
  | cons action actions inductionHypothesis =>
      rw [inspectedLength]
      cases length : inspectedLength actions with
      | zero => cases decided : inspects action <;> simp [EndsInspecting, decided]
      | succ index =>
          rw [length] at inductionHypothesis
          cases actions with
          | nil => simp [inspectedLength] at length
          | cons next actions =>
              simpa [EndsInspecting, List.getLast?_cons_cons] using inductionHypothesis

/-- Adding an action to an optimized plan gives a plan that ends with an action of that kind. -/
theorem kind_head?_push (optimized : List (Action ε α)) (action : Action ε α) :
    (push optimized action).head?.map Action.kind = some action.kind := by
  cases optimized with
  | nil => rfl
  | cons last others =>
      rw [push]
      cases fits : merge last action with
      | none => rfl
      | some merged => exact congrArg some (merge_kind fits).2.symm

/-- An optimized plan ends with an action of the kind that the plan ends with. -/
theorem kind_getLast?_optimize (actions : List (Action ε α)) :
    (optimize actions).getLast?.map Action.kind = actions.getLast?.map Action.kind := by
  induction actions using List.reverseRecOn with
  | nil => rfl
  | append_singleton actions action _ =>
      rw [optimize_append_singleton, List.getLast?_reverse, kind_head?_push]
      simp

theorem EndsInspecting.optimize {actions : List (Action ε α)} (ends : EndsInspecting actions) :
    EndsInspecting (optimize actions) := by
  intro last found
  have kinds := kind_getLast?_optimize actions
  rw [Option.mem_def.mp found] at kinds
  obtain ⟨original, present, same⟩ := Option.map_eq_some_iff.mp kinds.symm
  exact (inspects_congr same).symm.trans (ends original present)

/-- Where neighbours differ in kind, a plan may be optimized in two parts. -/
theorem optimize_append {front rest : List (Action ε α)}
    (differs : ∀ last ∈ front.getLast?, ∀ first ∈ rest.head?, last.kind ≠ first.kind) :
    optimize (front ++ rest) = optimize front ++ optimize rest := by
  refine optimize_append_of_apart fun last ends first leads same => ?_
  have kinds := kind_getLast?_optimize front
  rw [Option.mem_def.mp ends] at kinds
  obtain ⟨original, present, sameKind⟩ := Option.map_eq_some_iff.mp kinds.symm
  exact absurd (sameKind.trans same) (differs original present first leads)

theorem inspectedLength_append {front rest : List (Action ε α)} (ends : EndsInspecting front)
    (free : ∀ action ∈ rest, inspects action = false) :
    inspectedLength (front ++ rest) = front.length := by
  apply Nat.le_antisymm
  · rw [inspectedLength_le_iff, List.drop_left]
    exact free
  · rcases List.eq_nil_or_concat front with rfl | ⟨start, last, rfl⟩
    · exact Nat.zero_le _
    · rw [List.concat_eq_append] at ends ⊢
      have inspecting : inspects last = true := ends last (by simp)
      by_contra shorter
      have least : inspectedLength (start ++ [last] ++ rest) ≤ start.length := by
        rw [List.length_append, List.length_singleton] at shorter
        omega
      have quiet := (inspectedLength_le_iff _ _).mp least last (by simp)
      exact absurd (inspecting.symm.trans quiet) nofun

theorem stripForCount_append {front rest : List (Action ε α)} (ends : EndsInspecting front)
    (free : ∀ action ∈ rest, inspects action = false) (watchedBefore : Bool) :
    stripForCount (front ++ rest) watchedBefore =
      front ++ rest.filter (matters (watchedBefore || front.any isPeek)) := by
  simp [stripForCount, inspectedLength_append ends free]

theorem any_isPeek_optimize (actions : List (Action ε α)) :
    (optimize actions).any isPeek = actions.any isPeek := by
  have kinds := mem_kinds_optimize .peek actions
  simp only [List.mem_map] at kinds
  rw [Bool.eq_iff_iff]
  simpa only [List.any_eq_true, isPeek_iff] using kinds

/-! ## Maps without calls -/

/-- An action that does not inspect its elements, and the same action, but without calls if it is a
map. -/
inductive Silenced : Action ε α → Action ε α → Prop where
  | same {action : Action ε α} (plain : action.kind ∈ [.sorted, .limit, .skip]) :
      Silenced action action
  | map {operator quiet : α → Traced ε α} (silent : ∀ value, (quiet value).calls = []) :
      Silenced (.map operator) (.map quiet)

theorem Silenced.kind_eq {first second : Action ε α} (silenced : Silenced first second) :
    first.kind = second.kind := by
  cases silenced <;> rfl

theorem Silenced.inspects_eq_false {first second : Action ε α} (silenced : Silenced first second) :
    inspects first = false := by
  cases silenced with
  | same plain => cases first <;> simp_all [Action.kind, inspects]
  | map silent => rfl

/-- What maps without calls are merged into makes no calls either. -/
theorem Silenced.merge {first second next quietNext : Action ε α}
    (head : Silenced first second) (tail : Silenced next quietNext) :
    Option.Rel Silenced (merge first next) (merge second quietNext) := by
  cases head with
  | same plain =>
      cases tail with
      | same plainNext =>
          cases fits : Plan.merge first next with
          | none => exact .none
          | some merged => exact .some (.same ((merge_kind fits).1 ▸ plain))
      | map silent =>
          cases first <;> first | exact .none | simp [Action.kind] at plain
  | map silent =>
      cases tail with
      | same plainNext =>
          cases next <;> first | exact .none | simp [Action.kind] at plainNext
      | map silentNext =>
          exact .some (.map fun value => by simp [silent, silentNext])

theorem Silenced.push {counted collected : List (Action ε α)}
    (silenced : List.Forall₂ Silenced counted collected) {next quietNext : Action ε α}
    (added : Silenced next quietNext) :
    List.Forall₂ Silenced (push counted next) (push collected quietNext) := by
  cases silenced with
  | nil => exact .cons added .nil
  | cons head others =>
      rw [Plan.push, Plan.push]
      have merged := head.merge added
      revert merged
      generalize Plan.merge _ next = left, Plan.merge _ quietNext = right
      rintro (merged | _)
      · exact .cons merged others
      · exact .cons added (.cons head others)

theorem Silenced.optimize {counted collected : List (Action ε α)}
    (silenced : List.Forall₂ Silenced counted collected) :
    List.Forall₂ Silenced (optimize counted) (optimize collected) := by
  have folded : ∀ optimized quiet : List (Action ε α), List.Forall₂ Silenced optimized quiet →
      List.Forall₂ Silenced (counted.foldl Plan.push optimized)
        (collected.foldl Plan.push quiet) := by
    induction silenced with
    | nil => exact fun _ _ held => held
    | cons head others inductionHypothesis =>
        exact fun _ _ held => inductionHypothesis _ _ (Silenced.push held head)
  exact List.rel_reverse (folded [] [] .nil)

theorem Silenced.free {counted collected : List (Action ε α)}
    (silenced : List.Forall₂ Silenced counted collected) :
    ∀ action ∈ counted, inspects action = false := by
  induction silenced with
  | nil => exact fun _ member => absurd member List.not_mem_nil
  | cons head others inductionHypothesis =>
      exact List.forall_mem_cons.mpr ⟨head.inspects_eq_false, inductionHypothesis⟩

/-- A map that is recast to make no calls is silenced; other actions behind the last inspection make
none. -/
theorem silenced_recast {action : Action ε α} (free : inspects action = false)
    {change quiet : ε → List δ} (silent : action.kind = .map → ∀ event, quiet event = []) :
    Silenced (action.recast change) (action.recast quiet) := by
  cases action with
  | map operator => exact .map fun value => by simp [silent rfl]
  | sorted order => exact .same (by simp [Action.recast, Action.kind])
  | limit count => exact .same (by simp [Action.recast, Action.kind])
  | skip count => exact .same (by simp [Action.recast, Action.kind])
  | _ => cases free

variable [Element α] [DecidableEq α]

/-- Counting may leave out what does not matter, one action at a time. -/
theorem Silenced.agrees_apply {watched : Bool} {first second : Action ε α}
    (silenced : Silenced first second) {counted collected : Unit → Flow ε α}
    (agrees : Flow.Agrees watched (counted ()) (collected ())) :
    Flow.Agrees watched ((if matters watched first then first.apply counted else counted) ())
      (second.apply collected ()) := by
  cases silenced with
  | map silent => exact agrees.map silent
  | same plain =>
      cases first with
      | limit count => exact agrees.limit count
      | skip count => exact agrees.skip count
      | sorted order =>
          cases watched
          · exact agrees.sorted_unwatched _
          · exact agrees.sorted _
      | _ => simp [Action.kind] at plain

theorem Silenced.agrees_applyAll {watched : Bool} {first second : List (Action ε α)}
    (silenced : List.Forall₂ Silenced first second) {counted collected : Unit → Flow ε α}
    (agrees : Flow.Agrees watched (counted ()) (collected ())) :
    Flow.Agrees watched (Action.applyAll (first.filter (matters watched)) counted ())
      (Action.applyAll second collected ()) := by
  induction silenced generalizing counted collected with
  | nil => exact agrees
  | @cons action quiet first second head others inductionHypothesis =>
      have step := inductionHypothesis (head.agrees_apply agrees)
      rw [Action.applyAll_cons, List.filter_cons]
      cases decided : matters watched action <;> rw [decided] at step <;> exact step

/-- Counting with a stripped plan agrees with collecting where the maps behind the last inspection
make no calls. -/
theorem agrees_stripForCount {front counted collected : List (Action ε α)}
    (ends : EndsInspecting front) (silenced : List.Forall₂ Silenced counted collected)
    (watchedBefore : Bool) (flow : Unit → Flow ε α) :
    Flow.Agrees (watchedBefore || front.any isPeek)
      (Action.applyAll (stripForCount (optimize (front ++ counted)) watchedBefore) flow ())
      (Action.applyAll (optimize (front ++ collected)) flow ()) := by
  have apart : ∀ last ∈ front.getLast?, ∀ first ∈ counted.head?, last.kind ≠ first.kind := by
    intro last found first present same
    have free := Silenced.free silenced first (List.mem_of_mem_head? present)
    exact absurd ((inspects_congr same).symm.trans (ends last found)) (by simp [free])
  have apartQuiet : ∀ last ∈ front.getLast?, ∀ first ∈ collected.head?,
      last.kind ≠ first.kind := by
    intro last found first present
    cases silenced with
    | nil => cases present
    | cons head others =>
        obtain rfl := Option.some.inj present
        exact head.kind_eq ▸ apart last found _ rfl
  have optimized := Silenced.optimize silenced
  rw [optimize_append apart, optimize_append apartQuiet,
    stripForCount_append ends.optimize (Silenced.free optimized), any_isPeek_optimize,
    Action.applyAll_append, Action.applyAll_append]
  exact Silenced.agrees_applyAll optimized (.refl _)

end Plan

/-! ## Labelled views -/

namespace View

/-- Whether a call comes from a map of the last segment behind which there is no filter, no
expansion, no peek and no `distinct`. -/
def uncounted (view : View ε type) : CallSite → Bool
  | .action 0 index =>
    (view.actions[index]?).any (fun action => action.kind = .map) &&
      (view.actions.drop (index + 1)).all fun action =>
        action.kind ∉ [.filter, .flatMap, .peek, .distinct]
  | _ => false

theorem uncounted_iff (view : View ε type) (index : Nat) :
    view.uncounted (.action 0 index) = true ↔
      (∃ action ∈ view.actions[index]?, action.kind = .map) ∧
        Plan.inspectedLength view.actions ≤ index := by
  rw [Plan.inspectedLength_le_iff]
  simp only [uncounted, Bool.and_eq_true, Option.any_eq_true, decide_eq_true_eq, List.all_eq_true,
    ← Plan.inspects_iff, Bool.not_eq_true, Option.mem_def]
  refine and_congr_right fun ⟨action, found, map⟩ => ?_
  obtain ⟨bound, rfl⟩ := List.getElem?_eq_some_iff.mp found
  rw [List.drop_eq_getElem_cons bound, List.forall_mem_cons]
  have free : Plan.inspects view.actions[index] = false := by
    rw [Bool.eq_false_iff, Ne, Plan.inspects_iff, map]
    decide
  simp [free]

/-- The labelled view without the calls of the maps that a count leaves out. -/
def quiet (view : View ε type) : View (CallSite × ε) type :=
  view.recastAt fun site event => if view.uncounted site then [] else [(site, event)]

theorem recast_labelled_eq_quiet (view : View ε type) :
    (view.labelled.recast fun call => if view.uncounted call.1 then [] else [call]) =
      view.quiet := by
  rw [labelled, recast_recastAt, quiet]
  simp

/-- Leaving calls out of a view leaves them out of what collecting it calls. -/
theorem calls_collect_quiet (view : View ε type) :
    view.quiet.collect.calls =
      view.labelled.collect.calls.filter fun call => !view.uncounted call.1 := by
  rw [← recast_labelled_eq_quiet, collect_recast, Traced.calls_recast]
  induction view.labelled.collect.calls with
  | nil => rfl
  | cons call calls inductionHypothesis =>
      rw [List.flatMap_cons, List.filter_cons, inductionHypothesis]
      cases view.uncounted call.1 <;> rfl

/-- The feed of a view has no part in the calls that are left out. -/
theorem feed_quiet (view : View ε type) : view.quiet.feed = view.labelled.feed := by
  refine Feed.recastAt_congr (fun site other => ?_) view.feed (Nat.le_refl 0)
  have counts : view.uncounted site = false := by
    match site with
    | .source => rfl
    | .boundary _ => rfl
    | .action 0 index => exact absurd rfl (other index)
    | .action (_ + 1) _ => rfl
  simp [counts]

/-- Nor have the actions up to the last inspection. -/
theorem take_actions_quiet (view : View ε type) :
    view.quiet.actions.take (Plan.inspectedLength view.actions) =
      view.labelled.actions.take (Plan.inspectedLength view.actions) := by
  refine List.ext_getElem (by simp [quiet, labelled, recastAt]) fun index bound _ => ?_
  have inside : index < Plan.inspectedLength view.actions :=
    Nat.lt_of_lt_of_le bound (List.length_take_le _ _)
  have counts : view.uncounted (.action 0 index) = false := by
    rw [Bool.eq_false_iff, Ne, uncounted_iff]
    exact fun left => absurd left.2 (Nat.not_le_of_lt inside)
  simp [quiet, labelled, recastAt, Action.recastAt, counts]

/-- The maps behind the last inspection make no calls if those that are left out are. -/
theorem silenced_drop_actions (view : View ε type) :
    List.Forall₂ Plan.Silenced
      (view.labelled.actions.drop (Plan.inspectedLength view.actions))
      (view.quiet.actions.drop (Plan.inspectedLength view.actions)) := by
  refine List.forall₂_iff_get.mpr ⟨by simp [quiet, labelled, recastAt], ?_⟩
  intro index bound _
  have within : Plan.inspectedLength view.actions + index < view.actions.length := by
    simp only [labelled, recastAt, List.length_drop, Action.length_recastAt] at bound
    omega
  have free : Plan.inspects view.actions[Plan.inspectedLength view.actions + index] = false :=
    Plan.not_inspects_of_mem_drop
      (List.mem_drop_iff_getElem.mpr ⟨index, by rwa [Nat.add_comm], rfl⟩)
  simp only [labelled, quiet, recastAt, Action.recastAt, List.get_eq_getElem, List.getElem_drop,
    List.getElem_mapIdx]
  refine Plan.silenced_recast free fun map event => ?_
  have left := (uncounted_iff view _).mpr
    ⟨⟨_, List.getElem?_eq_getElem within, map⟩, Nat.le_add_right _ index⟩
  simp [left]

/-! ## Counting and collecting -/

/-- Elements are watched in front of the last inspection, or by it, if a peek occurs anywhere. -/
theorem watched_iff (view : View ε type) :
    (view.feed.hasSideEffects ||
      (view.actions.take (Plan.inspectedLength view.actions)).any Plan.isPeek) = true ↔
      ∃ info ∈ view.steps, info.kind = .peek := by
  have watches (kind : ActionKind) : kind.hasSideEffects = true ↔ kind = .peek := by
    cases kind <;> simp [ActionKind.hasSideEffects]
  have own : (∃ action ∈ view.actions.take (Plan.inspectedLength view.actions),
      action.kind = .peek) ↔ ∃ action ∈ view.actions, action.kind = .peek := by
    constructor
    · rintro ⟨action, member, peek⟩
      exact ⟨action, List.mem_of_mem_take member, peek⟩
    · rintro ⟨action, member, peek⟩
      rw [← List.take_append_drop (Plan.inspectedLength view.actions) view.actions] at member
      rcases List.mem_append.mp member with inside | behind
      · exact ⟨action, inside, peek⟩
      · have free := Plan.not_inspects_of_mem_drop behind
        exact absurd ((Plan.inspects_iff action).mpr (by simp [peek])) (by simp [free])
  simp only [Bool.or_eq_true, Feed.hasSideEffects, List.any_eq_true, watches, Plan.isPeek_iff,
    own, steps, List.mem_append, List.mem_map, or_and_right, exists_or, exists_exists_and_eq_and,
    Action.info]

/-- What counting pulls agrees with what collecting pulls, if the maps behind the last inspection
make no calls. -/
theorem agrees_countFlow (view : View ε type) :
    Flow.Agrees
      (view.labelled.feed.hasSideEffects ||
        (view.labelled.actions.take (Plan.inspectedLength view.labelled.actions)).any Plan.isPeek)
      view.labelled.countFlow view.quiet.flow := by
  have length : Plan.inspectedLength view.labelled.actions = Plan.inspectedLength view.actions :=
    Plan.inspectedLength_congr (Action.map_kind_recastAt _ _)
  have ends := Plan.endsInspecting_take view.labelled.actions
  rw [length] at ends ⊢
  have agrees := Plan.agrees_stripForCount ends view.silenced_drop_actions
    view.labelled.feed.hasSideEffects (view.labelled.feed.run []).value
  -- Both plans begin with the same actions, so each of them can be put together again.
  rw [← take_actions_quiet, List.take_append_drop] at agrees
  rw [take_actions_quiet, List.take_append_drop] at agrees
  rw [flow_eq, feed_quiet]
  exact agrees

/-- The calls of counting and of collecting agree, apart from those that are left out. -/
theorem callsAgree_count (view : View ε type) (watched : Bool)
    (watches : watched = true ↔ ∃ info ∈ view.steps, info.kind = .peek) :
    CallsAgree watched view.labelled.count.calls
      (view.labelled.collect.calls.filter fun call => !view.uncounted call.1) := by
  have steps : view.labelled.steps = view.steps := steps_recastAt _ view
  rw [← steps] at watches
  have agrees := view.agrees_countFlow.trace
  rw [← calls_collect_quiet, collect_eq, count_eq, start_calls, start_calls, feed_quiet,
    Bool.eq_iff_iff.mpr (watches.trans (watched_iff view.labelled).symm)]
  exact agrees.append_left _

/-- Counting a view makes the calls that collecting it makes. Labels say where each call comes from
and change nothing else. If a peek occurs anywhere, the calls of a count are those of a collection
without the calls of the maps behind the last inspection, and so each peek sees the same elements
in the same order. If no peek occurs they are the beginning of them. -/
theorem calls_count (view : View ε type) :
    (view.labelled.recast fun call => [call.2]) = view ∧
    ((∃ info ∈ view.steps, info.kind = .peek) →
      view.labelled.count.calls =
          view.labelled.collect.calls.filter (fun call => !view.uncounted call.1) ∧
        ∀ site, view.uncounted site = false →
          view.labelled.count.calls.filter (fun call => call.1 = site) =
            view.labelled.collect.calls.filter fun call => call.1 = site) ∧
    ((¬ ∃ info ∈ view.steps, info.kind = .peek) →
      view.labelled.count.calls <+:
        view.labelled.collect.calls.filter fun call => !view.uncounted call.1) := by
  refine ⟨recast_labelled view, fun peek => ?_, fun noPeek => ?_⟩
  · have same : view.labelled.count.calls =
        view.labelled.collect.calls.filter fun call => !view.uncounted call.1 :=
      callsAgree_count view true (by simpa using peek)
    refine ⟨same, fun site counts => ?_⟩
    rw [same, List.filter_filter]
    refine List.filter_congr fun call _ => ?_
    by_cases own : call.1 = site <;> simp [own, counts]
  · exact callsAgree_count view false (by simpa using noPeek)

/-- The least of three integers, increased, behind some action. -/
def leastBehind (action : Action Int32 Int32) : View Int32 .int :=
  ⟨.source (.items [3, 1, 2]),
    [action, .map fun value => ⟨[value], value + 1⟩, .sorted none, .limit 1]⟩

theorem leastBehind_calls :
    let peeked := leastBehind (.peek fun value => [value])
    let filtered := leastBehind (.filter fun value => ⟨[value], true⟩)
    ((∃ info ∈ peeked.steps, info.kind = .peek) ∧
      peeked.labelled.count.calls =
        peeked.labelled.collect.calls.filter fun call => !peeked.uncounted call.1) ∧
    ((¬ ∃ info ∈ filtered.steps, info.kind = .peek) ∧
      filtered.labelled.count.calls <+:
        filtered.labelled.collect.calls.filter fun call => !filtered.uncounted call.1) := by
  intro peeked filtered
  have peek : ∃ info ∈ peeked.steps, info.kind = .peek := by decide
  have noPeek : ¬ ∃ info ∈ filtered.steps, info.kind = .peek := by decide
  exact ⟨⟨peek, ((calls_count peeked).2.1 peek).1⟩, noPeek, (calls_count filtered).2.2 noPeek⟩

end View

end Flowpress
