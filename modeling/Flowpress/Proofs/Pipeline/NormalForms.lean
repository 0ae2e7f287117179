import Mathlib.Data.List.Chain
import Flowpress.Proofs.Pipeline.Optimize

/-!
# Normal forms of plans

A plan is normal if no two neighbours in it could be merged. One pass over a plan
gives a normal plan, although it looks at nothing but the last action of what it has
so far: merging is associative, and a merger can be merged with the same neighbours
as each of the actions it stands for. For the same reason a plan may be optimized in
parts, cut anywhere, and the parts together once more.

Observers, expansions and sorts are never merged. What lies in front of one of them
and what lies behind it are optimized apart.
-/

namespace Flowpress

variable {ε α β γ : Type}

/-- Calls that depend on earlier ones may be grouped in any way. -/
theorem Traced.bind_assoc (traced : Traced ε α) (first : α → Traced ε β)
    (second : β → Traced ε γ) :
    (traced.bind first).bind second = traced.bind fun value => (first value).bind second := by
  simp [bind]

namespace Plan

/-! ## Merging -/

/-- The kinds of action that are merged with a neighbour of the same kind. -/
def mergedKinds : List ActionKind := [.filter, .map, .distinct, .skip, .limit]

/-- Neighbours stay apart unless they are of one kind, and of one that is merged. -/
def Apart (first second : Action ε α) : Prop :=
  first.kind = second.kind → first.kind ∉ mergedKinds

theorem Apart.symm {first second : Action ε α} (apart : Apart first second) :
    Apart second first := by
  intro same
  rw [same]
  exact apart same.symm

/-- Whether neighbours are merged is a matter of their kinds. -/
theorem exists_merge_iff (first second : Action ε α) :
    (∃ merged, merge first second = some merged) ↔
      first.kind = second.kind ∧ first.kind ∈ mergedKinds := by
  cases first <;> cases second <;> simp [merge, Action.kind, mergedKinds]

theorem merge_eq_none_iff (first second : Action ε α) :
    merge first second = none ↔ Apart first second := by
  rw [Option.eq_none_iff_forall_ne_some, ← not_exists, exists_merge_iff, not_and, Apart]

/-- Merging is associative. -/
theorem merge_merge {first second third front back : Action ε α}
    (fitsFront : merge first second = some front) (fitsBack : merge second third = some back) :
    merge front third = merge first back := by
  cases first <;> cases second <;>
    simp only [merge, reduceCtorEq, Option.some.injEq] at fitsFront <;> subst fitsFront <;>
    cases third <;> simp only [merge, reduceCtorEq, Option.some.injEq] at fitsBack <;>
    subst fitsBack
  case filter.filter.filter first second third =>
    simp only [merge, Option.some.injEq, Action.filter.injEq]
    funext value
    rw [Traced.bind_assoc]
    congr 1
    funext passed
    cases passed <;> rfl
  case map.map.map first second third =>
    simp only [merge, Traced.bind_assoc]
  case distinct.distinct.distinct => rfl
  case limit.limit.limit first second third =>
    rw [merge, merge, Nat.min_assoc]
  case skip.skip.skip first second third =>
    -- Both sums stop at the greatest count exactly if the sum of all three exceeds it.
    simp only [merge, Option.some.injEq, Action.skip.injEq]
    omega

/-! ## One pass -/

theorem optimize_nil : optimize ([] : List (Action ε α)) = [] := rfl

/-- Adding two neighbours is adding their merger. -/
theorem push_push {first second merged : Action ε α} (fits : merge first second = some merged)
    (optimized : List (Action ε α)) :
    push (push optimized first) second = push optimized merged := by
  cases optimized with
  | nil => simp only [push, fits]
  | cons last others =>
      obtain ⟨firstKind, -⟩ := merge_kind fits
      cases joined : merge last first with
      | none =>
          have apart : merge last merged = none := by
            rw [merge_eq_none_iff, Apart, ← firstKind]
            exact (merge_eq_none_iff last first).mp joined
          simp only [push, joined, fits, apart]
      | some held =>
          -- The merger of the last two is of their kind, so it takes the third in as well.
          obtain ⟨-, heldKind⟩ := merge_kind joined
          obtain ⟨whole, closed⟩ : ∃ whole, merge held second = some whole := by
            rw [exists_merge_iff, ← heldKind]
            exact (exists_merge_iff first second).mp ⟨merged, fits⟩
          have same : merge last merged = some whole := (merge_merge joined fits).symm.trans closed
          simp only [push, joined, closed, same]

/-- Adding the actions of an optimized plan is adding those of the plan. -/
theorem foldl_push_optimize (optimized actions : List (Action ε α)) :
    (optimize actions).foldl push optimized = actions.foldl push optimized := by
  induction actions using List.reverseRecOn with
  | nil => rfl
  | append_singleton actions action inductionHypothesis =>
      rw [List.foldl_append, ← inductionHypothesis, optimize_append_singleton]
      rcases List.eq_nil_or_concat (optimize actions) with none | ⟨others, last, split⟩
      · rw [none]
        rfl
      · rw [split, List.concat_eq_append, List.reverse_append, List.reverse_singleton,
          List.singleton_append, push]
        cases fits : merge last action with
        | none => simp
        | some merged => simp [push_push fits]

/-- Optimizing again changes nothing. -/
theorem optimize_optimize (actions : List (Action ε α)) :
    optimize (optimize actions) = optimize actions := by
  rw [optimize, foldl_push_optimize, ← optimize]

/-- A plan may be optimized in two parts, and the parts together once more. -/
theorem optimize_append_optimize (front rest : List (Action ε α)) :
    optimize (optimize front ++ optimize rest) = optimize (front ++ rest) := by
  rw [optimize, List.foldl_append, foldl_push_optimize, foldl_push_optimize, ← List.foldl_append,
    ← optimize]

/-! ## Normal plans -/

/-- No two neighbours of the plan could be merged. -/
def Normal (actions : List (Action ε α)) : Prop := actions.IsChain Apart

/-- Adding an action to the reversal of a normal plan keeps it normal. -/
theorem isChain_push {optimized : List (Action ε α)} (normal : optimized.IsChain Apart)
    (action : Action ε α) : (push optimized action).IsChain Apart := by
  cases optimized with
  | nil => exact List.isChain_singleton action
  | cons last others =>
      rw [push]
      cases fits : merge last action with
      | none =>
          have apart : Apart last action := (merge_eq_none_iff last action).mp fits
          exact List.isChain_cons_cons.mpr ⟨apart.symm, normal⟩
      | some merged =>
          obtain ⟨lastKind, -⟩ := merge_kind fits
          rw [List.isChain_cons] at normal ⊢
          refine ⟨fun next follows => ?_, normal.2⟩
          rw [Apart, ← lastKind]
          exact normal.1 next follows

theorem isChain_reverse_iff (actions : List (Action ε α)) :
    actions.reverse.IsChain Apart ↔ Normal actions := by
  rw [List.isChain_reverse, Normal]
  constructor
  · exact fun chain => chain.imp fun _ _ apart => apart.symm
  · exact fun chain => chain.imp fun _ _ apart => apart.symm

theorem normal_optimize (actions : List (Action ε α)) : Normal (optimize actions) := by
  induction actions using List.reverseRecOn with
  | nil => exact List.isChain_nil
  | append_singleton actions action inductionHypothesis =>
      rw [optimize_append_singleton, ← isChain_reverse_iff, List.reverse_reverse]
      exact isChain_push ((isChain_reverse_iff _).mpr inductionHypothesis) action

/-! ## Parts that stay apart -/

/-- Behind an action that has been added the list of those in front of it stays as it is. -/
theorem foldl_push_append (actions : List (Action ε α)) {recent : List (Action ε α)}
    (recently : recent ≠ []) (earlier : List (Action ε α)) :
    actions.foldl push (recent ++ earlier) = actions.foldl push recent ++ earlier := by
  induction actions generalizing recent with
  | nil => rfl
  | cons action actions inductionHypothesis =>
      cases recent with
      | nil => exact absurd rfl recently
      | cons last others =>
          rw [List.foldl_cons, List.foldl_cons, List.cons_append, push, push]
          cases merge last action with
          | none => exact inductionHypothesis (List.cons_ne_nil action (last :: others))
          | some merged => exact inductionHypothesis (List.cons_ne_nil merged others)

/-- Where the first part ends with an action that is not merged with the next, a plan may be
optimized in two parts. -/
theorem optimize_append_of_apart {front rest : List (Action ε α)}
    (apart : ∀ last ∈ (optimize front).getLast?, ∀ first ∈ rest.head?, Apart last first) :
    optimize (front ++ rest) = optimize front ++ optimize rest := by
  cases rest with
  | nil => simp [optimize]
  | cons first rest =>
      have fresh : push (front.foldl push []) first = [first] ++ front.foldl push [] := by
        cases folded : front.foldl push [] with
        | nil => rfl
        | cons last others =>
            have ends : last ∈ (optimize front).getLast? := by
              simp [optimize, folded]
            have unmerged : merge last first = none :=
              (merge_eq_none_iff last first).mpr (apart last ends first rfl)
            simp [push, unmerged]
      rw [optimize, List.foldl_append, List.foldl_cons, fresh,
        foldl_push_append rest (List.cons_ne_nil _ _), List.reverse_append]
      rfl

/-- An action of a kind that is not merged is a barrier. -/
theorem optimize_append_barrier {barrier : Action ε α} (single : barrier.kind ∉ mergedKinds)
    (front rest : List (Action ε α)) :
    optimize (front ++ [barrier] ++ rest) = optimize front ++ [barrier] ++ optimize rest := by
  have alone (other : Action ε α) : Apart barrier other := fun _ => single
  have ended : optimize (front ++ [barrier]) = optimize front ++ [barrier] := by
    refine optimize_append_of_apart fun last _ first leads => ?_
    obtain rfl := Option.some.inj leads
    exact (alone last).symm
  rw [optimize_append_of_apart, ended]
  rintro last ends first -
  rw [ended, List.getLast?_concat] at ends
  obtain rfl := Option.some.inj ends
  exact alone first

/-- A plan is its own normal form exactly if it is normal. -/
theorem optimize_eq_self_iff (actions : List (Action ε α)) :
    optimize actions = actions ↔ Normal actions := by
  refine ⟨fun same => same ▸ normal_optimize actions, fun normal => ?_⟩
  induction actions using List.reverseRecOn with
  | nil => rfl
  | append_singleton actions action inductionHypothesis =>
      obtain ⟨front, -, apart⟩ := List.isChain_append.mp normal
      have same := inductionHypothesis front
      rw [optimize_append_of_apart, same]
      · rfl
      · rwa [same]

/-- Optimizing computes a normal form. The optimized plan has no neighbours that could be merged, so
a plan is left as it is exactly if it has none, and optimizing again changes nothing. A plan may be
cut anywhere and optimized in parts, and the parts together once more. What stands in front of an
observer, an expansion or a sort and what stands behind it are optimized apart, so that these are
neither merged nor dropped nor crossed. Actions are equal here if they agree in kind and count and
their functions agree in every value and every call. -/
theorem optimize_normalizes (actions others : List (Action ε α)) :
    Normal (optimize actions) ∧
    (optimize actions = actions ↔ Normal actions) ∧
    optimize (optimize actions) = optimize actions ∧
    optimize (actions ++ others) = optimize (optimize actions ++ optimize others) ∧
    ∀ barrier : Action ε α, barrier.kind ∈ [.peek, .flatMap, .sorted] →
      optimize (actions ++ [barrier] ++ others) =
        optimize actions ++ [barrier] ++ optimize others := by
  refine ⟨normal_optimize actions, optimize_eq_self_iff actions, optimize_optimize actions,
    (optimize_append_optimize actions others).symm, fun barrier kind => ?_⟩
  have single : ∀ kind ∈ [ActionKind.peek, .flatMap, .sorted], kind ∉ mergedKinds := by decide
  exact optimize_append_barrier (single barrier.kind kind) actions others

/-- Limits on both sides of an observer stay apart, and a sum of skips behind it stops at the
greatest count. -/
theorem aroundObserver_normalized :
    let observer : Action Int32 Int32 := .peek fun value => [value]
    observer.kind ∈ [.peek, .flatMap, .sorted] ∧
      optimize ([.limit 7, .limit 3] ++ [observer] ++
        [.limit 5, .limit 9, .skip 2, .skip maximalCount]) =
          [.limit 3, observer, .limit 5, .skip maximalCount] := by
  intro observer
  let front : List (Action Int32 Int32) := [.limit 7, .limit 3]
  let rest : List (Action Int32 Int32) := [.limit 5, .limit 9, .skip 2, .skip maximalCount]
  obtain ⟨-, -, -, -, barriers⟩ := optimize_normalizes front rest
  have watches : observer.kind ∈ [.peek, .flatMap, .sorted] := List.mem_cons_self
  exact ⟨watches, barriers observer watches⟩

end Plan
end Flowpress
