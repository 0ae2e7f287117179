import Mathlib.Data.List.Sort
import Mathlib.Tactic.SplitIfs
import Flowpress.Json.Value

/-!
# Members stay in order

Changing the entry of a name touches no other entry, and sets a new entry where
it belongs. So what is built from nothing by such changes is in ascending order,
and every entry of it was set under its own name. Members in ascending order are
determined by what is found under each name, and they stay in order if values are
changed under their names.
-/

namespace Flowpress.Members

variable {α β γ : Type} {members : Members α} {name : String}

/-- An entry is there after a change if it was there before, or if it is the changed one. -/
theorem mem_alter {change : Option α → α} {entry : String × α}
    (member : entry ∈ members.alter name change) :
    entry ∈ members ∨
      ∃ found, entry = (name, change found) ∧ ∀ value ∈ found, (name, value) ∈ members := by
  induction members with
  | nil => exact .inr ⟨none, List.mem_singleton.mp member, fun _ never => by cases never⟩
  | cons first rest inductionHypothesis =>
      rw [alter] at member
      split_ifs at member with before same
      · rcases List.mem_cons.mp member with changed | kept
        · exact .inr ⟨none, changed, fun _ never => by cases never⟩
        · exact .inl kept
      · rcases List.mem_cons.mp member with changed | kept
        · refine .inr ⟨some first.2, changed, fun value found => ?_⟩
          cases found
          exact same ▸ List.mem_cons_self
        · exact .inl (List.mem_cons_of_mem _ kept)
      · rcases List.mem_cons.mp member with kept | later
        · exact .inl (kept ▸ List.mem_cons_self)
        · rcases inductionHypothesis later with kept | ⟨found, changed, there⟩
          · exact .inl (List.mem_cons_of_mem _ kept)
          · exact .inr ⟨found, changed, fun value known => List.mem_cons_of_mem _ (there value known)⟩

/-- Changing an entry keeps the order. -/
theorem ordered_alter (ordered : Ordered members) (name : String) (change : Option α → α) :
    Ordered (members.alter name change) := by
  unfold Ordered at ordered ⊢
  induction members with
  | nil => exact List.pairwise_singleton _ _
  | cons first rest inductionHypothesis =>
      obtain ⟨least, others⟩ := List.pairwise_cons.mp ordered
      rw [alter]
      split_ifs with before same
      · refine List.pairwise_cons.mpr ⟨fun entry among => ?_, ordered⟩
        rcases List.mem_cons.mp among with rfl | later
        · exact before
        · exact String.lt_trans before (least entry later)
      · exact List.pairwise_cons.mpr ⟨fun entry later => same ▸ least entry later, others⟩
      · refine List.pairwise_cons.mpr ⟨fun entry among => ?_, inductionHypothesis others⟩
        rcases mem_alter among with later | ⟨found, changed, -⟩
        · exact least entry later
        · rw [changed]
          exact Decidable.byContradiction fun behind => same (String.le_antisymm behind before)

/-- A name behind all others is set at the end. -/
theorem insert_append (greatest : ∀ member ∈ members, member.1 < name) (value : α) :
    members.insert name value = members ++ [(name, value)] := by
  unfold insert
  induction members with
  | nil => rfl
  | cons member members inductionHypothesis =>
      obtain ⟨first, others⟩ := List.forall_mem_cons.mp greatest
      rw [alter, if_neg (String.lt_asymm first), if_neg (String.ne_of_lt first).symm,
        inductionHypothesis others, List.cons_append]

/-! ## What is found under a name -/

theorem find?_cons (first : String × α) (rest : Members α) (name : String) :
    find? (first :: rest) name = if name = first.1 then some first.2 else find? rest name := by
  obtain ⟨other, value⟩ := first
  rw [find?, find?, List.lookup_cons]
  by_cases same : name = other
  · simp [same]
  · simp [same, beq_false_of_ne same]

/-- Changing the entry of a name leaves what is found under other names. -/
theorem find?_alter_of_ne {other : String} (differs : other ≠ name) (change : Option α → α) :
    (members.alter name change).find? other = members.find? other := by
  induction members with
  | nil => simp [alter, find?_cons, differs]
  | cons first rest inductionHypothesis =>
      rw [alter]
      split_ifs with before same
      · rw [find?_cons, if_neg differs]
      · rw [find?_cons, find?_cons, ← same, if_neg differs, if_neg differs]
      · rw [find?_cons, find?_cons, inductionHypothesis]

/-- Nothing is found under a name in front of all others. -/
theorem find?_eq_none (least : ∀ member ∈ members, name < member.1) : members.find? name = none := by
  induction members with
  | nil => rfl
  | cons first rest inductionHypothesis =>
      obtain ⟨before, others⟩ := List.forall_mem_cons.mp least
      rw [find?_cons, if_neg (String.ne_of_lt before), inductionHypothesis others]

/-- Under the name of a changed entry, what the change makes of the earlier entry is found. -/
theorem find?_alter_self (ordered : Ordered members) (change : Option α → α) :
    (members.alter name change).find? name = some (change (members.find? name)) := by
  induction members with
  | nil => simp [alter, find?]
  | cons first rest inductionHypothesis =>
      obtain ⟨least, others⟩ := List.pairwise_cons.mp ordered
      rw [alter]
      split_ifs with before same
      · have absent : find? (first :: rest) name = none :=
          find?_eq_none (List.forall_mem_cons.mpr
            ⟨before, fun member later => String.lt_trans before (least member later)⟩)
        rw [find?_cons, if_pos rfl, absent]
      · rw [find?_cons, if_pos rfl, find?_cons, if_pos same]
      · rw [find?_cons, if_neg same, inductionHypothesis others, find?_cons, if_neg same]

/-- The entry of a name is the one that is found under it. -/
theorem mem_iff_find? (ordered : Ordered members) (value : α) :
    (name, value) ∈ members ↔ members.find? name = some value := by
  induction members with
  | nil => simp [find?]
  | cons first rest inductionHypothesis =>
      obtain ⟨least, others⟩ := List.pairwise_cons.mp ordered
      rw [find?_cons, List.mem_cons, inductionHypothesis others]
      split_ifs with same
      · have absent : find? rest name = none := find?_eq_none (same ▸ least)
        rw [absent, Prod.ext_iff]
        simp [same, eq_comm]
      · rw [or_iff_right]
        rintro rfl
        exact same rfl

/-- Members in ascending order under whose names the same is found are the same. -/
theorem ext_find? {first second : Members α} (firstOrdered : Ordered first)
    (secondOrdered : Ordered second) (same : ∀ name, first.find? name = second.find? name) :
    first = second := by
  have irreflexive : Std.Irrefl fun first second : String × α => first.1 < second.1 :=
    ⟨fun member => String.lt_irrefl member.1⟩
  have antisymmetric : Std.Antisymm fun first second : String × α => first.1 < second.1 :=
    ⟨fun _ _ before behind => absurd behind (String.lt_asymm before)⟩
  refine firstOrdered.eq_of_mem_iff secondOrdered fun member => ?_
  rw [mem_iff_find? firstOrdered, mem_iff_find? secondOrdered, same]

/-! ## Changing all values -/

/-- Every value is changed under its name. -/
def mapValues (change : α → β) (members : Members α) : Members β :=
  members.map fun member => (member.1, change member.2)

@[simp] theorem mapValues_nil (change : α → β) : mapValues change [] = [] := rfl

@[simp] theorem mapValues_cons (change : α → β) (first : String × α) (rest : Members α) :
    mapValues change (first :: rest) = (first.1, change first.2) :: rest.mapValues change := rfl

theorem mapValues_mapValues (first : α → β) (second : β → γ) (members : Members α) :
    (members.mapValues first).mapValues second =
      members.mapValues fun value => second (first value) :=
  List.map_map

theorem forall_mem_mapValues {change : α → β} {property : String × β → Prop} :
    (∀ member ∈ members.mapValues change, property member) ↔
      ∀ member ∈ members, property (member.1, change member.2) :=
  List.forall_mem_map

/-- Two changes make the same of members exactly if they make the same of their values. -/
theorem mapValues_inj_left {first second : α → β} :
    members.mapValues first = members.mapValues second ↔
      ∀ member ∈ members, first member.2 = second member.2 := by
  simp [mapValues]

theorem mapValues_eq_self {change : α → α} (kept : ∀ member ∈ members, change member.2 = member.2) :
    members.mapValues change = members := by
  have each : ∀ member ∈ members, (member.1, change member.2) = member := fun member among =>
    Prod.ext rfl (kept member among)
  rw [mapValues, List.map_congr_left each, List.map_id']

theorem Ordered.mapValues (ordered : Ordered members) (change : α → β) :
    Ordered (members.mapValues change) :=
  List.pairwise_map.mpr ordered

end Flowpress.Members
