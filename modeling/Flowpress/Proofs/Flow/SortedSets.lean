import Flowpress.Proofs.Flow.Sorting

/-!
# Sorted sets

A list that is strictly increasing is determined by what is in it. If an order
has no ties but equality, sorting a list and removing its copies therefore gives
the same, whichever is done first, and doing either once more changes nothing.
-/

namespace Flowpress

variable {α : Type} {order : α → α → Ordering}

/-- `result` has the elements of `source`, each once, in strict order. -/
structure SortedSet (order : α → α → Ordering) (source result : List α) : Prop where
  mem : ∀ value, value ∈ result ↔ value ∈ source
  strict : result.Pairwise fun first second => order first second = .lt

/-- Removing copies leaves some of the elements in their places. -/
theorem sublist_eraseDups [DecidableEq α] : (values : List α) → values.eraseDups.Sublist values
  | [] => .slnil
  | value :: values => by
      rw [List.eraseDups_cons]
      exact ((sublist_eraseDups _).trans List.filter_sublist).cons_cons value
termination_by values => values.length
decreasing_by exact Nat.lt_succ_of_le (List.length_filter_le _ _)

/-- Removing copies leaves no copies. -/
theorem nodup_eraseDups [DecidableEq α] : (values : List α) → values.eraseDups.Nodup
  | [] => .nil
  | value :: values => by
      rw [List.eraseDups_cons]
      refine List.nodup_cons.mpr ⟨?_, nodup_eraseDups _⟩
      simp [List.mem_eraseDups]
termination_by values => values.length
decreasing_by exact Nat.lt_succ_of_le (List.length_filter_le _ _)

namespace SortedSet

variable {source result : List α}

theorem nodup [Std.ReflCmp order] (set : SortedSet order source result) : result.Nodup := by
  refine set.strict.imp ?_
  rintro first second less rfl
  have tie : order first first = .eq := Std.ReflCmp.compare_self
  rw [tie] at less
  contradiction

/-- A list has at most one sorted set. -/
theorem unique [Std.OrientedCmp order] {left right : List α}
    (first : SortedSet order source left) (second : SortedSet order source right) :
    left = right := by
  have perm : left.Perm right := (List.perm_ext_iff_of_nodup first.nodup second.nodup).mpr
    fun value => (first.mem value).trans (second.mem value).symm
  refine perm.eq_of_pairwise ?_ first.strict second.strict
  intro one other _ _ less greater
  have swapped : order other one = (order one other).swap := Std.OrientedCmp.eq_swap
  rw [swapped, less] at greater
  contradiction

/-- A list in order without copies is a sorted set if the order has no ties but equality. -/
theorem of_ordered [Std.LawfulEqCmp order] (mem : ∀ value, value ∈ result ↔ value ∈ source)
    (nodup : result.Nodup)
    (ordered : result.Pairwise fun first second => (order first second).isLE) :
    SortedSet order source result where
  mem := mem
  strict := by
    refine (ordered.and nodup).imp ?_
    rintro first second ⟨below, different⟩
    rcases Ordering.isLE_iff_eq_lt_or_eq_eq.mp below with less | tie
    · exact less
    · exact absurd (Std.LawfulEqCmp.eq_of_compare tie) different

/-- Removing the copies of a sorted list gives its sorted set. -/
theorem eraseDups_sortList [DecidableEq α] [Std.TransCmp order] [Std.LawfulEqCmp order]
    (values : List α) : SortedSet order values (Flow.sortList order values).eraseDups := by
  have sorted : StableSort order values (Flow.sortList order values) := sortList_isStable values
  exact of_ordered (fun value => List.mem_eraseDups.trans sorted.perm.mem_iff) (nodup_eraseDups _)
    (sorted.ordered.sublist (sublist_eraseDups _))

/-- Sorting a list without its copies gives its sorted set. -/
theorem sortList_eraseDups [DecidableEq α] [Std.TransCmp order] [Std.LawfulEqCmp order]
    (values : List α) : SortedSet order values (Flow.sortList order values.eraseDups) := by
  have sorted : StableSort order values.eraseDups (Flow.sortList order values.eraseDups) :=
    sortList_isStable _
  exact of_ordered (fun value => sorted.perm.mem_iff.trans List.mem_eraseDups)
    (sorted.perm.nodup_iff.mpr (nodup_eraseDups values)) sorted.ordered

/-- Sorting a sorted set changes nothing. -/
theorem sortList_eq (set : SortedSet order source result) :
    Flow.sortList order result = result :=
  List.mergeSort_of_pairwise (set.strict.imp fun less => by rw [less]; rfl)

/-- There are no copies to remove from a sorted set. -/
theorem eraseDups_eq [DecidableEq α] [Std.OrientedCmp order] (set : SortedSet order source result) :
    result.eraseDups = result := by
  have kept : SortedSet order source result.eraseDups :=
    ⟨fun value => List.mem_eraseDups.trans (set.mem value),
      set.strict.sublist (sublist_eraseDups _)⟩
  exact kept.unique set

end SortedSet

end Flowpress
