import Flowpress.Emission.Emitter
import Flowpress.Proofs.Emission.Tokens
import Flowpress.Proofs.Flow.Sorting
import Flowpress.Proofs.Outcome

/-!
# What drivers build

A driver runs procedures by their indices, and those that share an index in the
order in which they stand. So it builds the same text, or is refused for the same
reason, for all lists of procedures that differ only in how procedures of distinct
indices stand to each other. The text is what the literals mean one after another;
if some of them cannot be read, the first one in that order decides.
-/

namespace Flowpress

namespace Procedure

/-- Procedures compared by their indices. -/
def byIndex : Procedure → Procedure → Ordering := compareOn Procedure.index

instance : Std.TransCmp byIndex := inferInstanceAs (Std.TransCmp (compareOn Procedure.index))

theorem isLE_byIndex (first second : Procedure) :
    (byIndex first second).isLE = decide (first.index ≤ second.index) := by
  rw [Bool.eq_iff_iff, decide_eq_true_eq]
  exact Nat.isLE_compare

theorem isEq_byIndex (first second : Procedure) :
    (byIndex first second).isEq = decide (second.index = first.index) := by
  rw [Bool.eq_iff_iff, decide_eq_true_eq, Ordering.isEq_iff_eq_eq, eq_comm (a := second.index)]
  exact Nat.compare_eq_eq

end Procedure

namespace GeneratedUnit

open Literal (unescape BreaksAt)
open Procedure (byIndex)

/-- Procedures in the order in which they run are sorted by their indices, and keep their order where
these are equal. -/
theorem inOrder_isStable (procedures : List Procedure) :
    StableSort byIndex procedures (inOrder procedures) := by
  have same : Flow.sortList byIndex procedures = inOrder procedures := by
    rw [Flow.sortList, inOrder]
    simp only [Procedure.isLE_byIndex]
  exact same ▸ sortList_isStable procedures

/-- Two lists have the same procedures, and procedures of equal index stand in the same order in
both. -/
structure Reordering (first second : List Procedure) : Prop where
  perm : first.Perm second
  kept : ∀ index, (first.filter fun procedure => procedure.index = index) =
    second.filter fun procedure => procedure.index = index

theorem Reordering.inOrder_eq {first second : List Procedure} (reordering : Reordering first second) :
    inOrder first = inOrder second := by
  have sorted := inOrder_isStable first
  have stable : StableSort byIndex second (inOrder first) := {
    perm := sorted.perm.trans reordering.perm
    ordered := sorted.ordered
    stable value := by
      rw [sorted.stable]
      simp only [Procedure.isEq_byIndex]
      exact reordering.kept value.index }
  exact stable.unique (inOrder_isStable second)

/-- Procedures build the text of their literals in the order in which they run. -/
theorem runProcedures_eq_ok_iff (procedures : List Procedure) (text : String) :
    runProcedures procedures = .ok text ↔
      ∃ pieces, List.Forall₂ (fun literal piece => unescape literal = .ok piece)
        ((inOrder procedures).flatMap Procedure.literals) pieces ∧ text = String.join pieces := by
  unfold runProcedures
  simp only [Outcome.bind_eq_ok_iff, Outcome.mapM_eq_ok_iff, Except.ok.injEq]
  exact exists_congr fun pieces => and_congr_right fun _ => eq_comm

/-- Procedures are refused for the first of their literals that cannot be read, in the order in which
they run. -/
theorem runProcedures_eq_error_iff (procedures : List Procedure) (error : EmitError) :
    runProcedures procedures = .error error ↔
      ∃ before literal after,
        (inOrder procedures).flatMap Procedure.literals = before ++ literal :: after ∧
        (∀ earlier ∈ before, ∃ piece, unescape earlier = .ok piece) ∧
        unescape literal = .error error := by
  rw [← Outcome.mapM_eq_error_iff, runProcedures]
  cases ((inOrder procedures).flatMap Procedure.literals).mapM unescape <;> simp

/-- A driver depends only on the order of indices. It does the same for every list of procedures that
has those of one index in the same order, and what it does is this: procedures run by ascending
index and otherwise as they stand, and the text is made of what their literals mean; if some literal
cannot be read, the first one is reported with the place in it where reading breaks off. -/
theorem runDriver_by_index (unit : GeneratedUnit) :
    (∀ other : GeneratedUnit, Reordering unit.procedures other.procedures →
      other.runDriver = unit.runDriver) ∧
    ∃ ordered, StableSort byIndex unit.procedures ordered ∧
      (∀ text, unit.runDriver = .ok text ↔
        ∃ pieces, List.Forall₂ (fun literal piece => unescape literal = .ok piece)
          (ordered.flatMap Procedure.literals) pieces ∧ text = String.join pieces) ∧
      ∀ error, unit.runDriver = .error error ↔
        ∃ before literal after,
          ordered.flatMap Procedure.literals = before ++ literal :: after ∧
          (∀ earlier ∈ before, ∃ piece, unescape earlier = .ok piece) ∧
          ∃ read behind fault, BreaksAt literal read behind fault ∧
            error = .malformedLiteral read.utf8ByteSize fault := by
  constructor
  · intro other reordering
    rw [runDriver, runDriver, runProcedures, runProcedures, reordering.inOrder_eq]
  · refine ⟨inOrder unit.procedures, inOrder_isStable _, runProcedures_eq_ok_iff _, ?_⟩
    intro error
    simp only [← Literal.unescape_eq_error_iff_breaksAt]
    exact runProcedures_eq_error_iff _ error

/-- A unit that has nothing but procedures. -/
def ofProcedures (procedures : List Procedure) : GeneratedUnit where
  target := .rust
  driverName := "init"
  segments := []
  procedures := procedures
  source := ""

/-- Three procedures in the order in which they run. Two share an index, and a literal of each of
the last two cannot be read. -/
def sharedIndex : List Procedure :=
  [⟨1, "a", ["1", "2\\n"]⟩, ⟨1, "b", ["3", "é\\t"]⟩, ⟨2, "c", ["x\\q"]⟩]

/-- The last procedure is stored first, but the first literal that cannot be read is not its. -/
theorem sharedIndex_by_index :
    Reordering sharedIndex (sharedIndex.rotateRight) ∧
      (ofProcedures sharedIndex.rotateRight).runDriver = (ofProcedures sharedIndex).runDriver ∧
      (ofProcedures sharedIndex).runDriver =
        .error (.malformedLiteral 2 (.unknownEscape 't')) := by
  have reordering : Reordering sharedIndex sharedIndex.rotateRight := {
    perm := by decide
    kept index := by
      by_cases two : index = 2
      · subst two
        decide
      · have last : 2 ≠ index := Ne.symm two
        by_cases one : index = 1
        · subst one
          decide
        · simp [sharedIndex, List.rotateRight, last, Ne.symm one] }
  obtain ⟨same, ordered, stable, -, refused⟩ := runDriver_by_index (ofProcedures sharedIndex)
  obtain rfl : sharedIndex = ordered :=
    StableSort.unique ⟨.refl _, by decide, fun _ => rfl⟩ stable
  have breaks : BreaksAt "é\\t" "é" "t" (.unknownEscape 't') :=
    ⟨by decide, ⟨"é", by rfl⟩, .unknown fun escape => by cases escape <;> decide⟩
  refine ⟨reordering, same (ofProcedures sharedIndex.rotateRight) reordering, ?_⟩
  exact (refused _).mpr
    ⟨["1", "2\\n", "3"], "é\\t", ["x\\q"], rfl,
      by simpa using ⟨⟨"1", by rfl⟩, ⟨"2\n", by rfl⟩, "3", by rfl⟩, _, _, _, breaks, rfl⟩

end GeneratedUnit

end Flowpress
