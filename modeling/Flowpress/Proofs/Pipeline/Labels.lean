import Flowpress.Proofs.Pipeline.Recast

/-!
# Where calls come from

Every call of a view belongs to its source, to one of its actions, or to the map
at the end of a segment. `View.recastAt` recasts calls by where they come from,
and `View.labelled` is the view with every call labelled that way.
-/

namespace Flowpress

variable {ε δ ζ α : Type} {type : ElementType}

/-- What makes a call. Segments are counted from the last one on, which is segment 0, and the
actions of a segment from the first one on. -/
inductive CallSite where
  | source
  | action (segment index : Nat)
  /-- The map behind a segment. -/
  | boundary (segment : Nat)
deriving DecidableEq

namespace Action

/-- The actions of a segment with the calls of each recast by its place in the segment. -/
def recastAt (change : Nat → ε → List δ) (actions : List (Action ε α)) : List (Action δ α) :=
  actions.mapIdx fun index action => action.recast (change index)

/-- Recasting every call as itself changes nothing. -/
theorem recast_self (action : Action ε α) : (action.recast fun event => [event]) = action := by
  cases action <;> simp [recast, Traced.recast_self]

theorem recast_recastAt (first : Nat → ε → List δ) (second : δ → List ζ)
    (actions : List (Action ε α)) :
    (recastAt first actions).map (recast second) =
      recastAt (fun index event => (first index event).flatMap second) actions :=
  List.ext_getElem (by simp [recastAt]) (by simp [recastAt, recast_recast])

theorem recastAt_self (actions : List (Action ε α)) :
    recastAt (fun _ event => [event]) actions = actions :=
  List.ext_getElem (by simp [recastAt]) (by simp [recastAt, recast_self])

@[simp] theorem length_recastAt (change : Nat → ε → List δ) (actions : List (Action ε α)) :
    (recastAt change actions).length = actions.length := by
  simp [recastAt]

theorem map_kind_recastAt (change : Nat → ε → List δ) (actions : List (Action ε α)) :
    (recastAt change actions).map kind = actions.map kind :=
  List.ext_getElem (by simp) (by simp [recastAt])

@[simp] theorem map_info_recastAt [Element α] (change : Nat → ε → List δ)
    (actions : List (Action ε α)) : (recastAt change actions).map info = actions.map info :=
  List.ext_getElem (by simp) (by simp [recastAt])

end Action

namespace Feed

/-- The feed of a segment with every call recast by where it comes from. -/
def recastAt (change : CallSite → ε → List δ) :
    {type : ElementType} → (segment : Nat) → Feed ε type → Feed δ type
  | _, _, .source origin => .source (origin.recast (change .source))
  | _, segment, .stage feed actions mapper =>
    .stage (feed.recastAt change (segment + 1))
      (Action.recastAt (fun index => change (.action (segment + 1) index)) actions) fun value =>
        (mapper value).recast (change (.boundary (segment + 1)))

theorem recast_recastAt (first : CallSite → ε → List δ) (second : δ → List ζ) (segment : Nat)
    (feed : Feed ε type) :
    (feed.recastAt first segment).recast second =
      feed.recastAt (fun site event => (first site event).flatMap second) segment := by
  induction feed generalizing segment with
  | source origin => simp [recastAt, recast, Source.recast_recast]
  | stage feed actions mapper inductionHypothesis =>
      simp [recastAt, recast, inductionHypothesis, Action.recast_recastAt, Traced.recast_recast]

theorem recastAt_self (segment : Nat) (feed : Feed ε type) :
    feed.recastAt (fun _ event => [event]) segment = feed := by
  induction feed generalizing segment with
  | source origin => cases origin <;> simp [recastAt, Source.recast, Flow.recast_self]
  | stage feed actions mapper inductionHypothesis =>
      simp [recastAt, inductionHypothesis, Action.recastAt_self, Traced.recast_self]

/-- Recasting every call as itself changes nothing. -/
theorem recast_self (feed : Feed ε type) : (feed.recast fun event => [event]) = feed := by
  induction feed with
  | source origin => cases origin <;> simp [recast, Source.recast, Flow.recast_self]
  | stage feed actions mapper inductionHypothesis =>
      simp [recast, inductionHypothesis, List.map_id'' Action.recast_self, Traced.recast_self]

/-- No call of a feed comes from an action of the segment it feeds. -/
theorem recastAt_congr {first second : CallSite → ε → List δ} {segment : Nat}
    (same : ∀ site, (∀ index, site ≠ .action segment index) → first site = second site)
    (feed : Feed ε type) {level : Nat} (inside : segment ≤ level) :
    feed.recastAt first level = feed.recastAt second level := by
  induction feed generalizing level with
  | source origin => rw [recastAt, recastAt, same .source nofun]
  | stage feed actions mapper inductionHypothesis =>
      have deeper (index : Nat) : first (.action (level + 1) index) =
          second (.action (level + 1) index) := by
        refine same _ fun own equal => ?_
        have level := (CallSite.action.inj equal).1
        omega
      rw [recastAt, recastAt, inductionHypothesis (Nat.le_succ_of_le inside), funext deeper,
        same (.boundary _) nofun]

@[simp] theorem steps_recastAt (change : CallSite → ε → List δ) (segment : Nat)
    (feed : Feed ε type) : (feed.recastAt change segment).steps = feed.steps := by
  induction feed generalizing segment with
  | source origin => rfl
  | stage feed actions mapper inductionHypothesis =>
      simp [recastAt, steps, inductionHypothesis]

end Feed

namespace View

/-- The view with every call recast by where it comes from. -/
def recastAt (change : CallSite → ε → List δ) (view : View ε type) : View δ type :=
  ⟨view.feed.recastAt change 0,
    Action.recastAt (fun index => change (.action 0 index)) view.actions⟩

/-- The view with every call labelled by where it comes from. -/
def labelled (view : View ε type) : View (CallSite × ε) type :=
  view.recastAt fun site event => [(site, event)]

theorem recast_recastAt (first : CallSite → ε → List δ) (second : δ → List ζ)
    (view : View ε type) :
    (view.recastAt first).recast second =
      view.recastAt fun site event => (first site event).flatMap second := by
  simp [recastAt, recast, Feed.recast_recastAt, Action.recast_recastAt]

theorem recast_self (view : View ε type) : (view.recast fun event => [event]) = view := by
  simp [recast, Feed.recast_self, List.map_id'' Action.recast_self]

/-- Labels change nothing else. -/
theorem recast_labelled (view : View ε type) :
    (view.labelled.recast fun call => [call.2]) = view := by
  rw [labelled, recast_recastAt]
  simp [recastAt, Feed.recastAt_self, Action.recastAt_self]

@[simp] theorem steps_recastAt (change : CallSite → ε → List δ) (view : View ε type) :
    (view.recastAt change).steps = view.steps := by
  simp [recastAt, steps]

end View

end Flowpress
