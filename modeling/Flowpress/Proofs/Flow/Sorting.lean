import Mathlib.Data.List.Sort
import Flowpress.Element
import Flowpress.Flow

/-!
# Stable sorting

A stable sort of a list by an order is a permutation of it that is in order and
leaves elements that tie as they were. If the order is a total preorder there is
exactly one, and the sort of a flow finds it. The natural orders of all element
types are total preorders.
-/

namespace Flowpress

variable {α : Type} {order : α → α → Ordering}

/-- `result` has the elements of `source` in order, and those that tie in the order of `source`. -/
structure StableSort (order : α → α → Ordering) (source result : List α) : Prop where
  perm : result.Perm source
  ordered : result.Pairwise fun first second => (order first second).isLE
  stable : ∀ value, (result.filter fun other => (order value other).isEq) =
    source.filter fun other => (order value other).isEq

namespace StableSort

/-- The first elements of two ordered lists with the same elements and the same ties are equal. -/
theorem head_eq [Std.TransCmp order] {first second : α} {left right : List α}
    (perm : (first :: left).Perm (second :: right))
    (leftOrdered : (first :: left).Pairwise fun one other => (order one other).isLE)
    (rightOrdered : (second :: right).Pairwise fun one other => (order one other).isLE)
    (ties : ((first :: left).filter fun other => (order first other).isEq) =
      (second :: right).filter fun other => (order first other).isEq) : first = second := by
  have least {one other : α} {rest : List α} (member : other ∈ one :: rest)
      (ordered : (one :: rest).Pairwise fun one other => (order one other).isLE) :
      (order one other).isLE := by
    rcases List.mem_cons.mp member with rfl | member
    · simp [Std.ReflCmp.compare_self]
    · exact (List.pairwise_cons.mp ordered).1 other member
  have below : (order first second).isLE :=
    least (perm.mem_iff.mpr List.mem_cons_self) leftOrdered
  have above : (order second first).isLE :=
    least (perm.mem_iff.mp List.mem_cons_self) rightOrdered
  have tie : order first second = .eq := Std.OrientedCmp.isLE_antisymm below above
  simp only [List.filter_cons, tie, Std.ReflCmp.compare_self, Ordering.isEq_eq] at ties
  exact (List.cons.inj ties).1

/-- Ordered lists with the same elements and the same ties are equal. -/
theorem eq_of_ties [Std.TransCmp order] {left right : List α} (perm : left.Perm right)
    (leftOrdered : left.Pairwise fun first second => (order first second).isLE)
    (rightOrdered : right.Pairwise fun first second => (order first second).isLE)
    (ties : ∀ value, (left.filter fun other => (order value other).isEq) =
      right.filter fun other => (order value other).isEq) : left = right := by
  induction left generalizing right with
  | nil => exact (List.nil_perm.mp perm).symm
  | cons first left inductionHypothesis =>
      cases right with
      | nil => exact absurd perm.symm (by simp)
      | cons second right =>
          obtain rfl := head_eq perm leftOrdered rightOrdered (ties first)
          congr 1
          refine inductionHypothesis perm.cons_inv leftOrdered.of_cons rightOrdered.of_cons ?_
          intro value
          have both := ties value
          simp only [List.filter_cons] at both
          split at both
          · exact (List.cons.inj both).2
          · exact both

/-- There is at most one stable sort of a list. -/
theorem unique [Std.TransCmp order] {source left right : List α}
    (first : StableSort order source left) (second : StableSort order source right) :
    left = right :=
  eq_of_ties (first.perm.trans second.perm.symm) first.ordered second.ordered
    fun value => (first.stable value).trans (second.stable value).symm

/-- An ordered permutation that keeps every ordered part of a list keeps its ties. -/
theorem of_sublists [Std.TransCmp order] {source result : List α} (perm : result.Perm source)
    (ordered : result.Pairwise fun first second => (order first second).isLE)
    (keeps : ∀ part : List α, part.Pairwise (fun first second => (order first second).isLE) →
      part.Sublist source → part.Sublist result) : StableSort order source result where
  perm := perm
  ordered := ordered
  stable := by
    intro value
    have tied : (source.filter fun other => (order value other).isEq).Pairwise
        fun first second => (order first second).isLE := by
      rw [List.pairwise_filter]
      refine List.pairwise_of_forall ?_
      intro first second firstTies secondTies
      rw [Ordering.isEq_iff_eq_eq] at firstTies secondTies
      have tie : order first second = .eq :=
        Std.TransCmp.eq_trans (Std.OrientedCmp.eq_symm firstTies) secondTies
      simp [tie]
    have part := (keeps _ tied List.filter_sublist).filter fun other => (order value other).isEq
    simp only [List.filter_filter, Bool.and_self] at part
    exact (part.eq_of_length (perm.filter _).length_eq.symm).symm

end StableSort

/-- Of two elements at least one is not behind the other. -/
theorem isLE_total [Std.TransCmp order] (first second : α) :
    ((order first second).isLE || (order second first).isLE) := by
  have swapped : order second first = (order first second).swap := Std.OrientedCmp.eq_swap
  rw [swapped]
  cases order first second <;> rfl

/-- The stable sort of a list, by insertion. -/
def stableSort (order : α → α → Ordering) (values : List α) : List α :=
  values.insertionSort fun first second => (order first second).isLE

/-- Insertion finds the stable sort. -/
theorem stableSort_isStable [Std.TransCmp order] (values : List α) :
    StableSort order values (stableSort order values) := by
  have total : Std.Total fun first second => ((order first second).isLE : Prop) :=
    ⟨fun first second => by simpa using isLE_total first second⟩
  have trans : IsTrans α fun first second => ((order first second).isLE : Prop) :=
    ⟨fun _ _ _ => Std.TransCmp.isLE_trans⟩
  exact .of_sublists (List.perm_insertionSort _ values) (List.pairwise_insertionSort _ values)
    fun _ ordered part => List.sublist_insertionSort ordered part

/-- The sort of flows finds the stable sort. -/
theorem sortList_isStable [Std.TransCmp order] (values : List α) :
    StableSort order values (Flow.sortList order values) := by
  have trans : ∀ first second third : α, (order first second).isLE → (order second third).isLE →
      (order first third).isLE := fun _ _ _ => Std.TransCmp.isLE_trans
  exact .of_sublists (List.mergeSort_perm values _)
    (List.pairwise_mergeSort trans isLE_total values)
    fun _ ordered part => List.sublist_mergeSort trans isLE_total ordered part

/-- Whatever way it is found, the stable sort of a list is the same. -/
theorem sortList_eq_stableSort [Std.TransCmp order] (values : List α) :
    Flow.sortList order values = stableSort order values :=
  (sortList_isStable values).unique (stableSort_isStable values)

/-! ## Natural orders -/

/-- Comparing elements by a key that is an integer is a total preorder. -/
theorem transCmp_compare_key (key : α → Int) :
    Std.TransCmp fun first second => compare (key first) (key second) where
  eq_swap := Std.OrientedCmp.eq_swap
  isLE_trans := Std.TransCmp.isLE_trans

/-- The natural order of every element type is a total preorder. -/
instance transCmp_order (type : ElementType) :
    Std.TransCmp (Element.order : type.Carrier → type.Carrier → Ordering) :=
  match type with
  | .int => transCmp_compare_key Int32.toInt
  | .long => transCmp_compare_key Int64.toInt
  | .double => transCmp_compare_key Binary64.totalKey

end Flowpress
