import Flowpress.Proofs.Pipeline.Sessions
import Mathlib.Data.List.Induction

/-!
# Ancestry

A view of a session is made in a few of the steps that made the other views: a
source, and the steps that continue it one after another. The `Ancestry` of the view
is these steps alone. It says what the view has to show, and it is a program that
makes the view in a session of its own.

A `Chronicle` runs a program and keeps the ancestry of every view beside its
session. Views are told apart by their flags, which are handed out in order, so the
ancestry of a view stands at the position of its flag. That every handle of a
session holds just what its ancestry makes is an invariant of the steps.
-/

namespace Flowpress

/-! ## What an ancestry makes -/

/-- The steps by which a view is made: a source, and steps that continue one view each. -/
inductive Ancestry : ElementType → Type where
  | source {type : ElementType} (source : Source Event type.Carrier) : Ancestry type
  | append {type : ElementType} (before : Ancestry type)
      (action : (type : ElementType) → Action Event type.Carrier) : Ancestry type
  | appendKind {type : ElementType} (before : Ancestry type) (kind : ActionKind)
      (transform : (type : ElementType) → Transform Event type.Carrier)
      (action : Action Event type.Carrier)
      (fits : Action.ofTransform kind (transform type) = .ok action) : Ancestry type
  | mapTo {inner : ElementType} (before : Ancestry inner) (outer : ElementType)
      (mapper : (inner : ElementType) → inner.Carrier → Traced Event outer.Carrier) :
      Ancestry outer

namespace Ancestry

/-- The view that is made. -/
def view {type : ElementType} : Ancestry type → View Event type
  | .source origin => .ofSource origin
  | .append before action => before.view.append (action type)
  | .appendKind before _ _ action _ => before.view.append action
  | @mapTo inner before _ mapper => before.view.mapTo (mapper inner)

/-- The actions that are added behind the last change of the element type. -/
def actions {type : ElementType} : Ancestry type → List (Action Event type.Carrier)
  | .source _ => []
  | .append before action => before.actions ++ [action type]
  | .appendKind before _ _ action _ => before.actions ++ [action]
  | .mapTo .. => []

/-- Every step behind the source, with the element type that it is applied at. -/
def steps {type : ElementType} : Ancestry type → List ActionInfo
  | .source _ => []
  | .append before action => before.steps ++ [⟨(action type).kind, type⟩]
  | .appendKind before kind _ _ _ => before.steps ++ [⟨kind, type⟩]
  | @mapTo inner before _ _ => before.steps ++ [⟨.mapTo, inner⟩]

/-- The program that makes the view in one slot. -/
def program (slot : String) {type : ElementType} : Ancestry type → List Step
  | .source origin => [.source slot type origin]
  | .append before action => before.program slot ++ [.append slot slot action]
  | .appendKind before kind transform _ _ =>
    before.program slot ++ [.appendKind slot slot kind transform]
  | .mapTo before outer mapper => before.program slot ++ [.mapTo slot slot outer mapper]

variable {type : ElementType}

/-- The ancestry continued with the action that a transform makes, if the transform fits. -/
def withKind (before : Ancestry type) (kind : ActionKind)
    (transform : (type : ElementType) → Transform Event type.Carrier) :
    Option ((type : ElementType) × Ancestry type) :=
  match fits : Action.ofTransform kind (transform type) with
  | .ok action => some ⟨type, .appendKind before kind transform action fits⟩
  | .error _ => none

theorem withKind_ok (before : Ancestry type) {kind : ActionKind}
    {transform : (type : ElementType) → Transform Event type.Carrier}
    {action : Action Event type.Carrier}
    (fits : Action.ofTransform kind (transform type) = .ok action) :
    before.withKind kind transform =
      some ⟨type, .appendKind before kind transform action fits⟩ := by
  unfold withKind
  split
  · next other made =>
      obtain rfl : other = action := Except.ok.inj (made.symm.trans fits)
      rfl
  · next error fails => cases fails.symm.trans fits

theorem withKind_error (before : Ancestry type) {kind : ActionKind}
    {transform : (type : ElementType) → Transform Event type.Carrier} {error : PipelineError}
    (fails : Action.ofTransform kind (transform type) = .error error) :
    before.withKind kind transform = none := by
  unfold withKind
  split
  · next action fits => cases fits.symm.trans fails
  · rfl

theorem actions_view (ancestry : Ancestry type) : ancestry.view.actions = ancestry.actions := by
  induction ancestry with
  | source => rfl
  | append before action inductionHypothesis =>
      rw [view, actions, View.append, inductionHypothesis]
  | appendKind before kind transform action fits inductionHypothesis =>
      rw [view, actions, View.append, inductionHypothesis]
  | mapTo => rfl

/-- An action that is made of a transform has the kind it is made for. -/
theorem kind_of_ofTransform {α : Type} {kind : ActionKind} {transform : Transform Event α}
    {action : Action Event α} (fits : Action.ofTransform kind transform = .ok action) :
    action.kind = kind := by
  cases kind <;> cases transform <;> cases fits <;> rfl

theorem elementType_carrier (type : ElementType) : Element.elementType type.Carrier = type := by
  cases type <;> rfl

theorem steps_append (view : View Event type) (action : Action Event type.Carrier) :
    (view.append action).steps = view.steps ++ [⟨action.kind, type⟩] := by
  simp [View.steps, View.append, Action.info, elementType_carrier]

theorem steps_mapTo {outer : ElementType} (view : View Event type)
    (mapper : type.Carrier → Traced Event outer.Carrier) :
    (view.mapTo mapper).steps = view.steps ++ [⟨.mapTo, type⟩] := by
  simp [View.steps, View.mapTo, Feed.steps]

theorem steps_view (ancestry : Ancestry type) : ancestry.view.steps = ancestry.steps := by
  induction ancestry with
  | source => rfl
  | append before action inductionHypothesis =>
      rw [view, steps, steps_append, inductionHypothesis]
  | appendKind before kind transform action fits inductionHypothesis =>
      rw [view, steps, steps_append, inductionHypothesis, kind_of_ofTransform fits]
  | mapTo before outer mapper inductionHypothesis =>
      rw [view, steps, steps_mapTo, inductionHypothesis]

end Ancestry

/-- The step with every slot replaced by one. -/
def Step.relocate (slot : String) : Step → Step
  | .source _ type origin => .source slot type origin
  | .append _ _ action => .append slot slot action
  | .appendKind _ _ kind transform => .appendKind slot slot kind transform
  | .duplicate _ _ => .duplicate slot slot
  | .mapTo _ _ outer mapper => .mapTo slot slot outer mapper
  | .terminal _ operation => .terminal slot operation
  | .race _ requests => .race slot requests
  | .inspect _ => .inspect slot

/-! ## Sessions with one view -/

namespace Session

/-- A session with one view, which is not consumed. -/
def single (slot : String) (handle : Handle) : Session :=
  ⟨[(slot, handle)], [], handle.flag + 1⟩

theorem withHandle_single (slot : String) (handle : Handle)
    (use : Handle → Session × Traced Event Answer) :
    (single slot handle).withHandle slot use = use handle := by
  simp [withHandle, single]

/-- A step that continues the only view of a session takes its place. -/
theorem derive_single (slot : String) (handle : Handle) {type : ElementType}
    (view : View Event type) :
    ((single slot handle).derive slot handle view).1 =
      single slot ⟨type, view, handle.flag + 1⟩ := by
  simp [derive, Consumption.access, isConsumed, single, make, store]

/-- The program of an ancestry makes the view, and leaves no other. -/
theorem after_program (slot : String) {type : ElementType} (ancestry : Ancestry type) :
    ∃ flag, empty.after (ancestry.program slot) = single slot ⟨type, ancestry.view, flag⟩ := by
  induction ancestry with
  | source origin => exact ⟨0, rfl⟩
  | @append type before action inductionHypothesis =>
      obtain ⟨flag, made⟩ := inductionHypothesis
      refine ⟨flag + 1, ?_⟩
      rw [Ancestry.program, after_concat, made, step, withHandle_single]
      exact derive_single slot _ _
  | @appendKind type before kind transform action fits inductionHypothesis =>
      obtain ⟨flag, made⟩ := inductionHypothesis
      refine ⟨flag + 1, ?_⟩
      rw [Ancestry.program, after_concat, made, step, withHandle_single]
      simp only [fits]
      exact derive_single slot _ _
  | mapTo before outer mapper inductionHypothesis =>
      obtain ⟨flag, made⟩ := inductionHypothesis
      refine ⟨flag + 1, ?_⟩
      rw [Ancestry.program, after_concat, made, step, withHandle_single]
      exact derive_single slot _ _

end Session

/-! ## Chronicles -/

/-- A session, and the ancestry of each of its views at the position of the flag of the view. -/
structure Chronicle where
  session : Session
  lineage : List ((type : ElementType) × Ancestry type)

namespace Chronicle

/-- The ancestry of the view in a slot unless the view is consumed. -/
def origin (chronicle : Chronicle) (slot : String) :
    Option ((type : ElementType) × Ancestry type) :=
  (chronicle.session.slots.lookup slot).bind fun handle =>
    if chronicle.session.isConsumed handle.flag then none else chronicle.lineage[handle.flag]?

/-- The ancestry of the view that a step makes, if it makes one. -/
def offspring (chronicle : Chronicle) : Step → Option ((type : ElementType) × Ancestry type)
  | .source _ type source => some ⟨type, .source source⟩
  | .append origin _ action =>
    (chronicle.origin origin).map fun before => ⟨before.1, .append before.2 action⟩
  | .appendKind origin _ kind transform =>
    (chronicle.origin origin).bind fun before => before.2.withKind kind transform
  | .mapTo origin _ outer mapper =>
    (chronicle.origin origin).map fun before => ⟨outer, .mapTo before.2 outer mapper⟩
  | .duplicate .. | .terminal .. | .race .. | .inspect .. => none

/-- Runs one step. -/
def step (chronicle : Chronicle) (step : Step) : Chronicle :=
  ⟨(chronicle.session.step step).1, chronicle.lineage ++ (chronicle.offspring step).toList⟩

/-- The chronicle of a program. -/
def of (program : List Step) : Chronicle := program.foldl step ⟨.empty, []⟩

theorem of_concat (program : List Step) (step : Step) :
    of (program ++ [step]) = (of program).step step :=
  List.foldl_append

theorem session_of (program : List Step) : (of program).session = Session.empty.after program := by
  induction program using List.reverseRecOn with
  | nil => rfl
  | append_singleton program step inductionHypothesis =>
      rw [of_concat, Session.after_concat, ← inductionHypothesis]
      rfl

/-- Ancestries are kept, each at its position. -/
theorem lineage_of_append (program later : List Step) :
    (of program).lineage <+: (of (program ++ later)).lineage := by
  induction later using List.reverseRecOn with
  | nil => exact (List.append_nil program).symm ▸ List.prefix_rfl
  | append_singleton later step inductionHypothesis =>
      rw [← List.append_assoc, of_concat]
      exact inductionHypothesis.trans (List.prefix_append _ _)

/-- What a session owes the ancestries beside it: flags are handed out in their order, and a handle
holds the view that the ancestry at its flag makes. -/
structure Sound (chronicle : Chronicle) : Prop where
  next : chronicle.session.nextFlag = chronicle.lineage.length
  consumed : ∀ flag ∈ chronicle.session.consumed, flag < chronicle.lineage.length
  handles : ∀ slot handle, chronicle.session.slots.lookup slot = some handle →
    ∃ ancestry : Ancestry handle.type,
      chronicle.lineage[handle.flag]? = some ⟨handle.type, ancestry⟩ ∧ handle.view = ancestry.view

variable {chronicle : Chronicle}

/-- No view is made. -/
theorem Sound.unchanged (sound : chronicle.Sound) :
    Sound ⟨chronicle.session, chronicle.lineage ++ []⟩ := by
  rwa [List.append_nil]

/-- A new view with its ancestry. -/
theorem Sound.make (sound : chronicle.Sound) (target : String) {type : ElementType}
    (ancestry : Ancestry type) :
    Sound ⟨(chronicle.session.make target type ancestry.view).1,
      chronicle.lineage ++ [⟨type, ancestry⟩]⟩ where
  next := by rw [List.length_append, ← sound.next]; rfl
  consumed flag set := by
    rw [List.length_append]
    exact Nat.lt_add_right _ (sound.consumed flag set)
  handles slot handle holds := by
    replace holds : (chronicle.session.store target
      ⟨type, ancestry.view, chronicle.session.nextFlag⟩).slots.lookup slot = some handle := holds
    rw [Session.lookup_store] at holds
    split_ifs at holds with same
    · obtain rfl := Option.some.inj holds
      exact ⟨ancestry, by simp [sound.next], rfl⟩
    · obtain ⟨older, stands, shows⟩ := sound.handles slot handle holds
      have within := (List.getElem?_eq_some_iff.mp stands).1
      exact ⟨older, by rw [List.getElem?_append_left within, stands],
        shows⟩

/-- Another handle of a view. -/
theorem Sound.store (sound : chronicle.Sound) {origin : String} {handle : Handle}
    (holds : chronicle.session.slots.lookup origin = some handle) (target : String) :
    Sound ⟨chronicle.session.store target handle, chronicle.lineage⟩ where
  next := sound.next
  consumed := sound.consumed
  handles slot other found := by
    rw [Session.lookup_store] at found
    split_ifs at found with same
    · obtain rfl := Option.some.inj found
      exact sound.handles origin handle holds
    · exact sound.handles slot other found

/-- A flag that is set. -/
theorem Sound.consume (sound : chronicle.Sound) {origin : String} {handle : Handle}
    (holds : chronicle.session.slots.lookup origin = some handle) :
    Sound ⟨{ chronicle.session with consumed := handle.flag :: chronicle.session.consumed },
      chronicle.lineage⟩ where
  next := sound.next
  consumed := by
    obtain ⟨ancestry, stands, -⟩ := sound.handles origin handle holds
    rw [List.forall_mem_cons]
    exact ⟨(List.getElem?_eq_some_iff.mp stands).1, sound.consumed⟩
  handles := sound.handles

/-- A view that continues another one, unless that is consumed. -/
theorem Sound.derive (sound : chronicle.Sound) (target : String) {handle : Handle}
    {type : ElementType} (ancestry : Ancestry type) :
    Sound ⟨(chronicle.session.derive target handle ancestry.view).1,
      chronicle.lineage ++ (if chronicle.session.isConsumed handle.flag then none
        else some ⟨type, ancestry⟩).toList⟩ := by
  cases consumed : chronicle.session.isConsumed handle.flag with
  | true => simpa [Session.derive_of_consumed consumed] using sound
  | false => simpa [Session.derive_of_unconsumed consumed] using sound.make target ancestry

/-- The ancestry that the view in a slot can hand on. -/
theorem Sound.origin (sound : chronicle.Sound) {slot : String} {handle : Handle}
    (holds : chronicle.session.slots.lookup slot = some handle) :
    ∃ ancestry : Ancestry handle.type, handle.view = ancestry.view ∧
      chronicle.origin slot = if chronicle.session.isConsumed handle.flag then none
        else some ⟨handle.type, ancestry⟩ := by
  obtain ⟨ancestry, stands, shows⟩ := sound.handles slot handle holds
  refine ⟨ancestry, shows, ?_⟩
  rw [Chronicle.origin, holds, Option.bind_some, stands]

/-- A step on the view in a slot, which makes no view if the slot is empty. -/
theorem Sound.withHandle (sound : chronicle.Sound) {slot : String}
    {use : Handle → Session × Traced Event Answer}
    {offspring : Option ((type : ElementType) × Ancestry type)}
    (barren : chronicle.origin slot = none → offspring = none)
    (next : ∀ handle, chronicle.session.slots.lookup slot = some handle →
      Sound ⟨(use handle).1, chronicle.lineage ++ offspring.toList⟩) :
    Sound ⟨(chronicle.session.withHandle slot use).1,
      chronicle.lineage ++ offspring.toList⟩ := by
  cases holds : chronicle.session.slots.lookup slot with
  | none =>
      rw [Session.withHandle_of_empty holds, barren (by rw [Chronicle.origin, holds]; rfl)]
      exact sound.unchanged
  | some handle =>
      rw [Session.withHandle_of_lookup holds]
      exact next handle holds

/-- Every step keeps what a session owes the ancestries. -/
theorem Sound.step (sound : chronicle.Sound) (step : Step) : (chronicle.step step).Sound := by
  rw [Chronicle.step]
  cases step with
  | source target type origin => exact sound.make target (.source origin)
  | append origin target action =>
      refine sound.withHandle (fun empty => by rw [offspring, empty, Option.map_none]) ?_
      intro handle holds
      obtain ⟨ancestry, shows, hands⟩ := sound.origin holds
      rw [offspring, hands, shows, apply_ite (Option.map _)]
      exact sound.derive target (.append ancestry action)
  | appendKind origin target kind transform =>
      refine sound.withHandle (fun empty => by rw [offspring, empty, Option.bind_none]) ?_
      intro handle holds
      obtain ⟨ancestry, shows, hands⟩ := sound.origin holds
      rw [offspring, hands, shows, apply_ite (Option.bind · _), Option.bind_none, Option.bind_some]
      cases made : Action.ofTransform kind (transform handle.type) with
      | error error =>
          rw [ancestry.withKind_error made, ite_self]
          exact sound.unchanged
      | ok action =>
          rw [ancestry.withKind_ok made]
          exact sound.derive target (.appendKind ancestry kind transform action made)
  | duplicate origin target =>
      refine sound.withHandle (fun _ => rfl) ?_
      exact fun handle holds => (sound.store holds target).unchanged
  | mapTo origin target outer mapper =>
      refine sound.withHandle (fun empty => by rw [offspring, empty, Option.map_none]) ?_
      intro handle holds
      obtain ⟨ancestry, shows, hands⟩ := sound.origin holds
      rw [offspring, hands, shows, apply_ite (Option.map _)]
      exact sound.derive target (.mapTo ancestry outer mapper)
  | terminal origin terminal =>
      refine sound.withHandle (fun _ => rfl) ?_
      intro handle holds
      rw [Session.terminate]
      split_ifs
      · exact (sound.consume holds).unchanged
      · exact sound.unchanged
  | race origin requests =>
      refine sound.withHandle (fun _ => rfl) ?_
      intro handle holds
      rw [Session.race]
      split_ifs
      · exact (sound.consume holds).unchanged
      · exact sound.unchanged
  | inspect origin => exact sound.withHandle (fun _ => rfl) fun handle holds => sound.unchanged

/-- The session of a program holds the views that its ancestries make. -/
theorem sound_of (program : List Step) : (of program).Sound := by
  induction program using List.reverseRecOn with
  | nil => exact ⟨rfl, nofun, nofun⟩
  | append_singleton program step inductionHypothesis =>
      rw [of_concat]
      exact inductionHypothesis.step step

/-! ## Steps of the program -/

theorem mem_lineage_of_origin {slot : String} {entry : (type : ElementType) × Ancestry type}
    (hands : chronicle.origin slot = some entry) : entry ∈ chronicle.lineage := by
  rw [origin, Option.bind_eq_some_iff] at hands
  obtain ⟨handle, -, stands⟩ := hands
  split_ifs at stands
  exact List.mem_of_getElem? stands

/-- The last step of an ancestry is the one that makes the view, and the steps before it are those
of an older ancestry. -/
theorem program_offspring (slot : String) {step : Step}
    {entry : (type : ElementType) × Ancestry type} (made : chronicle.offspring step = some entry) :
    entry.2.program slot = [step.relocate slot] ∨
      ∃ older ∈ chronicle.lineage,
        entry.2.program slot = older.2.program slot ++ [step.relocate slot] := by
  cases step with
  | source target type origin =>
      obtain rfl := Option.some.inj made
      exact .inl rfl
  | append origin target action =>
      obtain ⟨older, hands, rfl⟩ := Option.map_eq_some_iff.mp made
      exact .inr ⟨older, mem_lineage_of_origin hands, rfl⟩
  | appendKind origin target kind transform =>
      obtain ⟨older, hands, continued⟩ := Option.bind_eq_some_iff.mp made
      refine .inr ⟨older, mem_lineage_of_origin hands, ?_⟩
      cases fits : Action.ofTransform kind (transform older.1) with
      | error error => cases (older.2.withKind_error fits).symm.trans continued
      | ok action =>
          obtain rfl := Option.some.inj ((older.2.withKind_ok fits).symm.trans continued)
          rfl
  | mapTo origin target outer mapper =>
      obtain ⟨older, hands, rfl⟩ := Option.map_eq_some_iff.mp made
      exact .inr ⟨older, mem_lineage_of_origin hands, rfl⟩
  | duplicate | terminal | race | inspect => cases made

/-- The steps of an ancestry are among those of the program, but for the slots. -/
theorem program_sublist (slot : String) (program : List Step)
    {entry : (type : ElementType) × Ancestry type} (among : entry ∈ (of program).lineage) :
    (entry.2.program slot).Sublist (program.map (Step.relocate slot)) := by
  induction program using List.reverseRecOn generalizing entry with
  | nil => cases among
  | append_singleton program step inductionHypothesis =>
      rw [of_concat, Chronicle.step, List.mem_append, Option.mem_toList] at among
      rw [List.map_append, List.map_singleton]
      rcases among with older | made
      · exact (inductionHypothesis older).trans (List.sublist_append_left _ _)
      · rcases program_offspring slot made with alone | ⟨older, kept, continued⟩
        · rw [alone]
          exact List.sublist_append_right _ _
        · rw [continued]
          exact (inductionHypothesis kept).append (List.Sublist.refl _)

end Chronicle
end Flowpress
