import Flowpress.Command.Program
import Flowpress.Proofs.Files.Replacement
import Flowpress.Proofs.Outcome

/-!
# What tasks leave behind

A task that goes on after another one leaves behind what both leave behind, the
second one on the tree of the first; after a failure nothing more happens. The
tasks that read settings and documents only look: the tree stays as it is, and
nothing is printed.
-/

namespace Flowpress.Command

open Files (Path Tree)

variable {α β : Type}

namespace Script

/-- A script that goes on leaves behind the trails of its two parts. -/
theorem run_bind (tree : Tree) (script : Script α) (next : α → Script β) :
    (script.bind next).run tree =
      let first := script.run tree
      let second := (next first.result).run first.tree
      ⟨second.tree, first.printed ++ second.printed, first.replaced ++ second.replaced,
        second.result⟩ := by
  induction script generalizing tree with
  | done result => simp [bind, run]
  | print text script inductionHypothesis =>
      simp [bind, run, inductionHypothesis, String.append_assoc]
  | readText path script inductionHypothesis => exact inductionHypothesis _ tree
  | isPresent path script inductionHypothesis => exact inductionHypothesis _ tree
  | isDirectory path script inductionHypothesis => exact inductionHypothesis _ tree
  | makeDirectory path script inductionHypothesis =>
      rw [bind, run, run]
      cases tree.makeDirectory path with
      | ok tree => exact inductionHypothesis _ tree
      | error error => exact inductionHypothesis _ tree
  | replaceFile path text script inductionHypothesis =>
      rw [bind, run, run]
      cases tree.replaceFile path text with
      | ok tree => simp only [inductionHypothesis, List.cons_append]
      | error error => exact inductionHypothesis _ tree

/-- The script replaces no file. -/
def Spares (script : Script α) : Prop := ∀ tree, (script.run tree).replaced = []

namespace Spares

theorem done (result : α) : (Script.done result).Spares := fun _ => rfl

theorem makeDirectory (path : Path) : (Script.makeDirectory path .done).Spares := by
  intro tree
  rw [run]
  cases tree.makeDirectory path <;> rfl

theorem bind {script : Script α} {next : α → Script β} (spares : script.Spares)
    (later : ∀ value, (next value).Spares) : (script >>= next).Spares := by
  intro tree
  refine (congrArg Trail.replaced (run_bind tree script next)).trans ?_
  dsimp only
  rw [spares tree, later, List.append_nil]

theorem tolerate (path : Path) (error : Files.FileError) :
    (Script.tolerate path error).Spares := fun _ => rfl

/-- Directories are made without replacing a file. -/
theorem ensureDirectoryWithin (bound : Nat) (path : Path) :
    (Script.ensureDirectoryWithin bound path).Spares := by
  induction bound generalizing path with
  | zero => exact .done _
  | succ bound inductionHypothesis =>
      rw [Script.ensureDirectoryWithin]
      split_ifs
      · exact .done _
      · refine .bind (.makeDirectory path) fun made => ?_
        split
        · exact .done _
        · exact .done _
        · refine .bind (inductionHypothesis _) fun answer => ?_
          cases answer with
          | error error => exact .done _
          | ok none =>
              refine .bind (.makeDirectory path) fun made => ?_
              cases made with
              | error error => exact .tolerate path error
              | ok none => exact .done _
        · exact .tolerate path _

end Spares

end Script

namespace Task

/-- What a task leaves behind. -/
def trail (task : Task α) (tree : Tree) : Script.Trail (Except Failure α) := task.run.run tree

theorem trail_bind (task : Task α) (next : α → Task β) (tree : Tree) :
    (task >>= next).trail tree =
      match task.trail tree with
      | ⟨tree, printed, replaced, .error failure⟩ => ⟨tree, printed, replaced, .error failure⟩
      | ⟨tree, printed, replaced, .ok value⟩ =>
        let second := (next value).trail tree
        ⟨second.tree, printed ++ second.printed, replaced ++ second.replaced, second.result⟩ := by
  refine (Script.run_bind tree task.run _).trans ?_
  unfold trail
  cases task.run.run tree with
  | mk tree printed replaced result =>
      cases result with
      | error failure => simp [ExceptT.bindCont, Script.run, pure]
      | ok value => rfl

@[simp] theorem result_ofExcept (result : Except Failure α) (tree : Tree) :
    ((ofExcept result).trail tree).result = result := rfl

/-- The task changes no file and prints nothing. -/
def Looks (task : Task α) : Prop :=
  ∀ tree, task.trail tree = ⟨tree, "", [], (task.trail tree).result⟩

namespace Looks

theorem readText (path : Path) (failure : Files.FileError → Failure) :
    (Task.readText path failure).Looks := fun _ => rfl

theorem isPresent (path : Path) : (Task.isPresent path).Looks := fun _ => rfl

theorem ofExcept (result : Except Failure α) : (Task.ofExcept result).Looks := fun _ => rfl

theorem pure (value : α) : (Pure.pure value : Task α).Looks := fun _ => rfl

variable {task : Task α} {next : α → Task β}

/-- Behind a task that only looks, the rest runs on the same tree. -/
theorem trail_bind (looks : task.Looks) (next : α → Task β) (tree : Tree) :
    (task >>= next).trail tree =
      match (task.trail tree).result with
      | .error failure => ⟨tree, "", [], .error failure⟩
      | .ok value => (next value).trail tree := by
  rw [Task.trail_bind, looks tree]
  dsimp only
  cases (task.trail tree).result with
  | error failure => rfl
  | ok value => simp

theorem bind (looks : task.Looks) (later : ∀ value, (next value).Looks) :
    (task >>= next).Looks := by
  intro tree
  rw [looks.trail_bind next tree]
  cases (task.trail tree).result with
  | error failure => rfl
  | ok value => exact later value tree

/-- A task that goes on after one that only looks succeeds exactly if both succeed on the tree. -/
theorem result_bind_eq_ok_iff (looks : task.Looks) {tree : Tree} {result : β} :
    ((task >>= next).trail tree).result = .ok result ↔
      ∃ value, (task.trail tree).result = .ok value ∧
        ((next value).trail tree).result = .ok result := by
  rw [looks.trail_bind next tree]
  cases (task.trail tree).result with
  | error failure => simp
  | ok value => simp

end Looks

/-! ### What tasks do apart from printing -/

/-- What a task leaves behind apart from what it prints. -/
def deeds (task : Task α) (tree : Tree) : Script.Trail (Except Failure α) :=
  { task.trail tree with printed := "" }

theorem deeds_print_bind (text : String) (next : Unit → Task α) (tree : Tree) :
    (Task.print text >>= next).deeds tree = (next ()).deeds tree := by
  unfold deeds
  rw [trail_bind]
  rfl

/-- What is printed in the end changes nothing else. -/
theorem deeds_bind_print (task : Task Unit) (text : String) (tree : Tree) :
    (task >>= fun _ => Task.print text).deeds tree = task.deeds tree := by
  unfold deeds
  rw [trail_bind]
  obtain ⟨tree, printed, replaced, result⟩ := task.trail tree
  cases result with
  | error failure => rfl
  | ok value =>
      have same : replaced ++ ((Task.print text).trail tree).replaced = replaced :=
        List.append_nil replaced
      dsimp only
      rw [same]
      rfl

theorem Looks.deeds_bind {task : Task α} (looks : task.Looks) {tree : Tree} {value : α}
    (result : (task.trail tree).result = .ok value) (next : α → Task β) :
    (task >>= next).deeds tree = (next value).deeds tree := by
  unfold deeds
  rw [looks.trail_bind, result]

end Task

/-! ## Reading settings and documents -/

theorem looks_readSettings (path : Path) : (readSettings path).Looks :=
  (Task.Looks.readText path _).bind fun _ => .ofExcept _

theorem looks_findSettings (path : Path) : (findSettings path).Looks := by
  refine (Task.Looks.isPresent path).bind fun there => ?_
  cases there with
  | true => exact (looks_readSettings path).bind fun _ => .pure _
  | false => exact .pure none

theorem looks_readDocument (path : Path) : (readDocument path).Looks :=
  (Task.Looks.readText path _).bind fun _ => .ofExcept _

/-- A document is read exactly if there is a text that is read as the document. -/
theorem result_readDocument_eq_ok_iff {path : Path} {tree : Tree} {document : Document} :
    ((readDocument path).trail tree).result = .ok document ↔
      ∃ text, tree.readText path = .ok text ∧ Document.read text = .ok document := by
  rw [readDocument, (Task.Looks.readText path _).result_bind_eq_ok_iff]
  refine exists_congr fun text => and_congr Outcome.mapError_eq_ok_iff Outcome.mapError_eq_ok_iff

/-! ## Writing files -/

/-- What is left behind if all that is done is to write a text to a file: the text is in the file, or
the file could not be written. -/
inductive WritesOnly (trail : Script.Trail (Except Failure Unit)) (path : Path) (text : String) :
    Prop where
  | written (result : trail.result = .ok ()) (replaced : trail.replaced = [(path, text)])
      (readable : trail.tree.readText path = .ok text)
  | noDirectory (error : Files.FileError)
      (result : trail.result = .error (.directoryNotMade (directoryOf path) error))
      (replaced : trail.replaced = [])
  | notReplaced (error : Files.FileError)
      (result : trail.result = .error (.fileNotReplaced path error)) (replaced : trail.replaced = [])

/-- Making directories replaces no file. -/
theorem trail_ensureDirectory (path : Path) (tree : Tree) :
    let made := (Script.ensureDirectory path).run tree
    (Task.ensureDirectory path).trail tree =
      ⟨made.tree, made.printed, [], made.result.mapError (Failure.directoryNotMade path)⟩ := by
  have spared : ((Script.ensureDirectory path).run tree).replaced = [] :=
    Script.Spares.ensureDirectoryWithin (path.text.length + 1) path tree
  have trail := Script.run_bind tree (Script.ensureDirectory path) fun made =>
    Script.done (made.mapError (Failure.directoryNotMade path))
  simp only [Script.run, spared, List.append_nil, String.append_empty] at trail
  exact trail

theorem trail_replaceFile (path : Path) (text : String) (tree : Tree) :
    (Task.replaceFile path text).trail tree =
      match tree.replaceFile path text with
      | .ok after => ⟨after, "", [(path, text)], .ok ()⟩
      | .error error => ⟨tree, "", [], .error (.fileNotReplaced path error)⟩ := by
  unfold Task.replaceFile Task.trail
  simp only [ExceptT.run, ExceptT.mk, Script.run]
  cases tree.replaceFile path text <;> rfl

theorem writesOnly_writeFile (path : Path) (text : String) (tree : Tree) :
    WritesOnly ((writeFile path text).deeds tree) path text := by
  unfold writeFile Task.deeds
  rw [Task.trail_bind, trail_ensureDirectory]
  obtain ⟨made, printed, _, result⟩ := (Script.ensureDirectory (directoryOf path)).run tree
  cases result with
  | error error => exact .noDirectory error rfl rfl
  | ok done =>
      simp only [Except.mapError, trail_replaceFile]
      cases outcome : made.replaceFile path text with
      | error error => exact .notReplaced error rfl rfl
      | ok after => exact .written rfl rfl (Tree.readText_replaceFile outcome)

end Flowpress.Command
