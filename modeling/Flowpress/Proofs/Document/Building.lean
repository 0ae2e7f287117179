import Mathlib.Data.List.Induction
import Flowpress.Proofs.Document.Equality

/-!
# The order of additions

A document is built by additions, each of which sets a property or adds a child.
What is found in the result depends on the last value that is set for each property
and on the children that are added to each collection, in their order. The order of
additions to different names leaves no trace, in the document or in its text.
-/

namespace Flowpress

open Json (Layout Value)

/-! ## Additions -/

/-- One step in building a document. -/
inductive Addition where
  | property (key : String) (value : Value)
  | child (collection : String) (document : Document)

namespace Addition

/-- The document with the addition made. -/
def addTo (document : Document) : Addition → Document
  | property key value => document.withProperty key value
  | child collection added => document.withChild collection added

/-- The value that the addition sets for a property, if it sets one. -/
def value? (key : String) : Addition → Option Value
  | property other value => if key = other then some value else none
  | child _ _ => none

/-- The child that the addition adds to a collection, if it adds one. -/
def child? (collection : String) : Addition → Option Document
  | property _ _ => none
  | child other added => if collection = other then some added else none

/-- The last value that some additions set for a property. -/
def lastValue? (key : String) (additions : List Addition) : Option Value :=
  (additions.filterMap (value? key)).getLast?

/-- The children that some additions add to a collection, in their order. -/
def childrenAdded (collection : String) (additions : List Addition) : List Document :=
  additions.filterMap (child? collection)

theorem lastValue?_append_singleton (key : String) (additions : List Addition)
    (addition : Addition) :
    lastValue? key (additions ++ [addition]) =
      (addition.value? key).or (lastValue? key additions) := by
  cases set : addition.value? key <;> simp [lastValue?, set]

theorem childrenAdded_append_singleton (collection : String) (additions : List Addition)
    (addition : Addition) :
    childrenAdded collection (additions ++ [addition]) =
      childrenAdded collection additions ++ (addition.child? collection).toList := by
  cases added : addition.child? collection <;> simp [childrenAdded, added]

end Addition

namespace Document

open Addition (lastValue? childrenAdded)

/-- The document with all additions made, one after another. -/
def addAll (document : Document) (additions : List Addition) : Document :=
  additions.foldl Addition.addTo document

/-! ## One addition -/

/-- The names of the properties and those of the collections stand in ascending order. -/
structure InOrder (document : Document) : Prop where
  properties : Members.Ordered document.properties
  collections : Members.Ordered document.collections

theorem Canonical.inOrder {document : Document} (canonical : document.Canonical) :
    document.InOrder := by
  cases document with
  | node properties collections =>
      obtain ⟨⟨ordered, -⟩, orderedCollections, -⟩ := canonical
      exact ⟨ordered, orderedCollections⟩

variable {document : Document}

theorem InOrder.addTo (ordered : document.InOrder) (addition : Addition) :
    (addition.addTo document).InOrder := by
  cases addition with
  | property key value =>
      exact ⟨Members.ordered_alter ordered.properties key _, ordered.collections⟩
  | child collection added =>
      exact ⟨ordered.properties, Members.ordered_alter ordered.collections collection _⟩

/-- An addition replaces the property that it sets, and no other. -/
theorem property?_addTo (ordered : document.InOrder) (addition : Addition) (key : String) :
    (addition.addTo document).property? key = (addition.value? key).or (document.property? key) := by
  cases addition with
  | child collection added => rfl
  | property other value =>
      rw [Addition.value?]
      split_ifs with same
      · subst same
        exact Members.find?_alter_self ordered.properties _
      · exact Members.find?_alter_of_ne same _

/-- An addition puts its child behind the children of its collection, and changes no other. -/
theorem find?_collections_addTo (ordered : document.InOrder) (addition : Addition)
    (collection : String) :
    (addition.addTo document).collections.find? collection =
      ((addition.child? collection).map fun child => document.childrenOf collection ++ [child]).or
        (document.collections.find? collection) := by
  cases addition with
  | property key value => rfl
  | child other added =>
      rw [Addition.child?]
      split_ifs with same
      · subst same
        exact Members.find?_alter_self ordered.collections _
      · exact Members.find?_alter_of_ne same _

/-! ## All additions -/

theorem addAll_append_singleton (document : Document) (additions : List Addition)
    (addition : Addition) :
    document.addAll (additions ++ [addition]) = addition.addTo (document.addAll additions) := by
  rw [addAll, List.foldl_append]
  rfl

theorem InOrder.addAll (ordered : document.InOrder) (additions : List Addition) :
    (document.addAll additions).InOrder := by
  induction additions using List.reverseRecOn with
  | nil => exact ordered
  | append_singleton additions addition inductionHypothesis =>
      rw [addAll_append_singleton]
      exact inductionHypothesis.addTo addition

/-- A property has the last value that is set for it, or else the one it had. -/
theorem property?_addAll (ordered : document.InOrder) (additions : List Addition) (key : String) :
    (document.addAll additions).property? key =
      (lastValue? key additions).or (document.property? key) := by
  induction additions using List.reverseRecOn with
  | nil => rfl
  | append_singleton additions addition inductionHypothesis =>
      rw [addAll_append_singleton, property?_addTo (ordered.addAll additions),
        inductionHypothesis, Addition.lastValue?_append_singleton, Option.or_assoc]

/-- A collection to which nothing is added stays as it is; the children that are added to any other
stand behind those it had. -/
theorem find?_collections_addAll (ordered : document.InOrder) (additions : List Addition)
    (collection : String) :
    (document.addAll additions).collections.find? collection =
      if childrenAdded collection additions = [] then document.collections.find? collection
      else some (document.childrenOf collection ++ childrenAdded collection additions) := by
  induction additions using List.reverseRecOn with
  | nil => rfl
  | append_singleton additions addition inductionHypothesis =>
      rw [addAll_append_singleton, find?_collections_addTo (ordered.addAll additions),
        childrenOf, inductionHypothesis, Addition.childrenAdded_append_singleton]
      cases addition.child? collection with
      | none => simp
      | some child => by_cases first : childrenAdded collection additions = [] <;>
          simp [childrenOf, first]

/-- Additions that set the same last values and add the same children, in the same order, make the
same document. -/
theorem addAll_congr (ordered : document.InOrder) {first second : List Addition}
    (sameValues : ∀ key, lastValue? key first = lastValue? key second)
    (sameChildren : ∀ collection,
      childrenAdded collection first = childrenAdded collection second) :
    document.addAll first = document.addAll second := by
  have firstOrdered := ordered.addAll first
  have secondOrdered := ordered.addAll second
  have properties : (document.addAll first).properties = (document.addAll second).properties := by
    refine Members.ext_find? firstOrdered.properties secondOrdered.properties fun key => ?_
    have left := property?_addAll ordered first key
    rw [sameValues, ← property?_addAll ordered second] at left
    exact left
  have collections : (document.addAll first).collections = (document.addAll second).collections := by
    refine Members.ext_find? firstOrdered.collections secondOrdered.collections fun collection => ?_
    rw [find?_collections_addAll ordered, find?_collections_addAll ordered, sameChildren]
  cases one : document.addAll first with
  | node firstProperties firstCollections =>
      cases other : document.addAll second with
      | node secondProperties secondCollections =>
          rw [one, other] at properties collections
          exact congrArg₂ node properties collections

/-- The children that are added to a collection stand behind those it had. -/
theorem childrenOf_addAll (ordered : document.InOrder) (additions : List Addition)
    (collection : String) :
    (document.addAll additions).childrenOf collection =
      document.childrenOf collection ++ childrenAdded collection additions := by
  rw [childrenOf, find?_collections_addAll ordered]
  split_ifs with none
  · rw [none, List.append_nil, childrenOf]
  · rfl

/-! ## The number of nodes -/

theorem nodeCountAll_append (first second : List Document) :
    nodeCountAll (first ++ second) = nodeCountAll first + nodeCountAll second := by
  induction first with
  | nil => simp [nodeCountAll]
  | cons child first inductionHypothesis =>
      rw [List.cons_append, nodeCountAll, inductionHypothesis, nodeCountAll, Nat.add_assoc]

/-- A child that is added to a collection brings its nodes. -/
theorem nodeCountCollections_alter (collections : Members (List Document)) (collection : String)
    (child : Document) :
    nodeCountCollections
        (collections.alter collection fun children => children.getD [] ++ [child]) =
      nodeCountCollections collections + child.nodeCount := by
  induction collections with
  | nil => simp [Members.alter, nodeCountCollections, nodeCountAll]
  | cons first rest inductionHypothesis =>
      rw [Members.alter]
      split_ifs with before same
      · simp [nodeCountCollections, nodeCountAll, Nat.add_comm]
      · simp only [nodeCountCollections, Option.getD_some, nodeCountAll_append, nodeCountAll]
        omega
      · rw [nodeCountCollections, inductionHypothesis, nodeCountCollections, Nat.add_assoc]

theorem nodeCount_withProperty (document : Document) (key : String) (value : Value) :
    (document.withProperty key value).nodeCount = document.nodeCount := by
  cases document
  rfl

theorem nodeCount_withChild (document : Document) (collection : String) (child : Document) :
    (document.withChild collection child).nodeCount = document.nodeCount + child.nodeCount := by
  cases document with
  | node properties collections =>
      rw [withChild, nodeCount, nodeCount, Nat.add_assoc, ← nodeCountCollections_alter]
      rfl

/-- The order in which a document is built leaves no trace. Two sequences of additions that set the
same last value for each property and add the same children to each collection, in the same order,
make equal documents with the same texts, whatever stands between these additions: a property has
the last value that is set for it, and the children that are added to a collection stand behind those
it had. Setting a property changes neither the number of nodes nor anything but this property, and
adding a child adds the nodes of the child and changes nothing but its collection. -/
theorem additions_leave_no_order (document : Document) (canonical : document.Canonical) :
    (∀ first second : List Addition,
      (∀ key, lastValue? key first = lastValue? key second) →
      (∀ collection, childrenAdded collection first = childrenAdded collection second) →
      document.addAll first = document.addAll second ∧
        (document.addAll first).same (document.addAll second) = true ∧
        ∀ layout, (document.addAll first).write layout = (document.addAll second).write layout) ∧
    (∀ additions,
      (∀ key, (document.addAll additions).property? key =
        (lastValue? key additions).or (document.property? key)) ∧
      ∀ collection, (document.addAll additions).childrenOf collection =
        document.childrenOf collection ++ childrenAdded collection additions) ∧
    (∀ key value,
      (document.withProperty key value).nodeCount = document.nodeCount ∧
      (document.withProperty key value).property? key = some value ∧
      (∀ other ≠ key,
        (document.withProperty key value).property? other = document.property? other) ∧
      (document.withProperty key value).collections = document.collections) ∧
    ∀ collection child,
      (document.withChild collection child).nodeCount = document.nodeCount + child.nodeCount ∧
      (document.withChild collection child).childrenOf collection =
        document.childrenOf collection ++ [child] ∧
      (∀ other ≠ collection, (document.withChild collection child).collections.find? other =
        document.collections.find? other) ∧
      (document.withChild collection child).properties = document.properties := by
  have ordered := canonical.inOrder
  refine ⟨fun first second sameValues sameChildren => ?_, fun additions => ⟨?_, ?_⟩,
    fun key value => ⟨?_, ?_, ?_, rfl⟩, fun collection child => ⟨?_, ?_, ?_, rfl⟩⟩
  · have same := addAll_congr ordered sameValues sameChildren
    rw [same]
    exact ⟨rfl, same_self _, fun _ => rfl⟩
  · exact property?_addAll ordered additions
  · exact childrenOf_addAll ordered additions
  · exact nodeCount_withProperty document key value
  · exact Members.find?_alter_self ordered.properties _
  · exact fun other differs => Members.find?_alter_of_ne differs _
  · exact nodeCount_withChild document collection child
  · exact congrArg (Option.getD · []) (Members.find?_alter_self ordered.collections _)
  · exact fun other differs => Members.find?_alter_of_ne differs _

/-- A document with a property and a child. -/
def shelf : Document := .node [("b", .bool true)] [("x", [empty])]

/-- A property that is set twice, and children of two collections, in two orders. -/
theorem shelf_leaves_no_order :
    let first : List Addition := [.property "a" .null, .child "x" shelf, .child "w" empty,
      .property "c" (.string "last"), .child "x" empty, .property "a" (.bool false)]
    let second : List Addition := [.child "x" shelf, .property "c" .null,
      .property "a" (.bool false), .child "x" empty, .property "c" (.string "last"),
      .child "w" empty]
    shelf.Canonical ∧
      (∀ key, lastValue? key first = lastValue? key second) ∧
      (∀ collection, childrenAdded collection first = childrenAdded collection second) ∧
      shelf.addAll first = shelf.addAll second := by
  intro first second
  have canonical : shelf.Canonical := by decide
  have values : ∀ key, lastValue? key first = lastValue? key second := by
    intro key
    by_cases a : key = "a"
    · subst a
      rfl
    by_cases c : key = "c"
    · subst c
      rfl
    · simp [first, second, lastValue?, Addition.value?, List.filterMap_cons, a, c]
  have children : ∀ collection,
      childrenAdded collection first = childrenAdded collection second := by
    intro collection
    by_cases x : collection = "x"
    · subst x
      rfl
    by_cases w : collection = "w"
    · subst w
      rfl
    · simp [first, second, childrenAdded, Addition.child?, List.filterMap_cons, x, w]
  obtain ⟨confluent, -⟩ := additions_leave_no_order shelf canonical
  exact ⟨canonical, values, children, (confluent first second values children).1⟩

end Document

end Flowpress
