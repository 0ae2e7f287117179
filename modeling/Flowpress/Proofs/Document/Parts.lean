import Flowpress.Document.Codec
import Flowpress.Proofs.Json.Order
import Flowpress.Proofs.Json.Parts

/-!
# Documents as values

The text of a document is the text of a value: `asValue` leaves out what the
printer leaves out, and still tells documents apart. So the nesting, the numbers
and the texts of a document are those of that value, and what holds of every
written value, or of every value with changed numbers, holds of documents.
Documents that are built by adding properties and children one at a time are
`Canonical`.
-/

namespace Flowpress.Document

open Json (Layout Number Value)

/-- Induction over a document and the documents below it. -/
@[elab_as_elim]
theorem induction {motive : Document → Prop}
    (node : ∀ properties collections,
      (∀ collection ∈ collections, ∀ child ∈ collection.2, motive child) →
      motive (.node properties collections))
    (document : Document) : motive document :=
  @Document.rec motive
    (fun collections => ∀ collection ∈ collections, ∀ child ∈ collection.2, motive child)
    (fun collection => ∀ child ∈ collection.2, motive child)
    (fun children => ∀ child ∈ children, motive child)
    node
    (List.forall_mem_nil _) (fun _ _ first others => List.forall_mem_cons.mpr ⟨first, others⟩)
    (fun _ _ holds => holds)
    (List.forall_mem_nil _) (fun _ _ first others => List.forall_mem_cons.mpr ⟨first, others⟩)
    document

/-- The fields that are written for some properties and collections: those that are not empty. -/
def writtenFields (properties collections : Members Value) : Members Value :=
  (if properties.isEmpty then [] else [("properties", .object properties)]) ++
    if collections.isEmpty then [] else [("children", .object collections)]

theorem mem_writtenFields_properties {properties : Members Value} (some : properties ≠ [])
    (collections : Members Value) :
    ("properties", .object properties) ∈ writtenFields properties collections := by
  simp [writtenFields, some]

theorem mem_writtenFields_children (properties : Members Value) {collections : Members Value}
    (some : collections ≠ []) :
    ("children", .object collections) ∈ writtenFields properties collections := by
  simp [writtenFields, some]

mutual

/-- The value whose text is the text of a document. -/
def asValue : Document → Value
  | .node properties collections =>
    .object (writtenFields properties (collectionMembers collections))

/-- A member for each collection. -/
def collectionMembers : List (String × List Document) → List (String × Value)
  | [] => []
  | (name, children) :: rest => (name, .array (childElements children)) :: collectionMembers rest

/-- An element for each document of a collection. -/
def childElements : List Document → List Value
  | [] => []
  | document :: rest => document.asValue :: childElements rest

end

/-- How many containers are open at the deepest place of the text of a document. -/
def nesting (document : Document) : Nat := document.asValue.nesting

/-- The numbers in a document. -/
def numbers (document : Document) : List Number := document.asValue.numbers

/-- The strings and names in a document. -/
def texts (document : Document) : List String := document.asValue.texts

theorem childElements_eq_map (children : List Document) :
    childElements children = children.map asValue := by
  induction children with
  | nil => rfl
  | cons child children inductionHypothesis =>
      rw [childElements, inductionHypothesis, List.map_cons]

theorem collectionMembers_eq_map (collections : Members (List Document)) :
    collectionMembers collections =
      collections.map fun collection => (collection.1, .array (collection.2.map asValue)) := by
  induction collections with
  | nil => rfl
  | cons collection collections inductionHypothesis =>
      rw [collectionMembers, inductionHypothesis, childElements_eq_map, List.map_cons]

/-- The written fields tell the properties and the collections. -/
theorem writtenFields_inj {properties collections others otherCollections : Members Value}
    (same : writtenFields properties collections = writtenFields others otherCollections) :
    properties = others ∧ collections = otherCollections := by
  unfold writtenFields at same
  cases properties <;> cases others <;> cases collections <;> cases otherCollections <;>
    simp_all

mutual

/-- Different documents are written as different values. -/
theorem asValue_inj {document other : Document} (same : document.asValue = other.asValue) :
    document = other := by
  cases document with
  | node properties collections =>
      cases other with
      | node others otherCollections =>
          rw [asValue, asValue, Value.object.injEq] at same
          obtain ⟨rfl, members⟩ := writtenFields_inj same
          rw [collectionMembers_inj members]

theorem collectionMembers_inj {collections others : List (String × List Document)}
    (same : collectionMembers collections = collectionMembers others) : collections = others := by
  cases collections with
  | nil =>
      cases others with
      | nil => rfl
      | cons => cases same
  | cons collection collections =>
      cases others with
      | nil => cases same
      | cons other others =>
          rw [collectionMembers, collectionMembers, List.cons.injEq, Prod.mk.injEq,
            Value.array.injEq] at same
          obtain ⟨⟨name, children⟩, later⟩ := same
          rw [Prod.ext name (childElements_inj children), collectionMembers_inj later]

theorem childElements_inj {children others : List Document}
    (same : childElements children = childElements others) : children = others := by
  cases children with
  | nil =>
      cases others with
      | nil => rfl
      | cons => cases same
  | cons child children =>
      cases others with
      | nil => cases same
      | cons other others =>
          rw [childElements, childElements, List.cons.injEq] at same
          obtain ⟨here, later⟩ := same
          rw [asValue_inj here, childElements_inj later]

end

/-! ## Changing numbers -/

mutual

/-- The document with every number in its properties changed. -/
def mapNumbers (change : Number → Number) : Document → Document
  | .node properties collections =>
    .node (Value.mapNumbersMembers change properties) (mapNumbersCollections change collections)

/-- The collections with every number in their documents changed. -/
def mapNumbersCollections (change : Number → Number) :
    List (String × List Document) → List (String × List Document)
  | [] => []
  | (name, children) :: rest =>
    (name, mapNumbersAll change children) :: mapNumbersCollections change rest

/-- Each document with every number in it changed. -/
def mapNumbersAll (change : Number → Number) : List Document → List Document
  | [] => []
  | document :: rest => document.mapNumbers change :: mapNumbersAll change rest

end

theorem mapNumbersAll_eq_map (change : Number → Number) (children : List Document) :
    mapNumbersAll change children = children.map (mapNumbers change) := by
  induction children with
  | nil => rfl
  | cons child children inductionHypothesis =>
      rw [mapNumbersAll, inductionHypothesis, List.map_cons]

theorem mapNumbersCollections_eq_mapValues (change : Number → Number)
    (collections : Members (List Document)) :
    mapNumbersCollections change collections =
      collections.mapValues fun children => children.map (mapNumbers change) := by
  induction collections with
  | nil => rfl
  | cons collection collections inductionHypothesis =>
      rw [mapNumbersCollections, inductionHypothesis, mapNumbersAll_eq_map, Members.mapValues_cons]

theorem writtenFields_mapNumbers (change : Number → Number)
    (properties collections : Members Value) :
    writtenFields (Value.mapNumbersMembers change properties)
        (Value.mapNumbersMembers change collections) =
      Value.mapNumbersMembers change (writtenFields properties collections) := by
  cases properties <;> cases collections <;> rfl

mutual

/-- The numbers of a document are those of its value, also where they are changed. -/
theorem asValue_mapNumbers (change : Number → Number) (document : Document) :
    (document.mapNumbers change).asValue = document.asValue.mapNumbers change := by
  cases document with
  | node properties collections =>
      rw [mapNumbers, asValue, collectionMembers_mapNumbers change collections,
        writtenFields_mapNumbers, asValue, Value.mapNumbers]

theorem collectionMembers_mapNumbers (change : Number → Number)
    (collections : List (String × List Document)) :
    collectionMembers (mapNumbersCollections change collections) =
      Value.mapNumbersMembers change (collectionMembers collections) := by
  cases collections with
  | nil => rfl
  | cons collection collections =>
      rw [mapNumbersCollections, collectionMembers, childElements_mapNumbers change collection.2,
        collectionMembers_mapNumbers change collections, collectionMembers,
        Value.mapNumbersMembers, Value.mapNumbers]

theorem childElements_mapNumbers (change : Number → Number) (children : List Document) :
    childElements (mapNumbersAll change children) =
      Value.mapNumbersElements change (childElements children) := by
  cases children with
  | nil => rfl
  | cons child children =>
      rw [mapNumbersAll, childElements, asValue_mapNumbers change child,
        childElements_mapNumbers change children, childElements, Value.mapNumbersElements]

end

/-- Changing every number twice is changing it once. -/
theorem mapNumbers_mapNumbers (first second : Number → Number) (document : Document) :
    (document.mapNumbers first).mapNumbers second =
      document.mapNumbers fun number => second (first number) := by
  apply asValue_inj
  rw [asValue_mapNumbers, asValue_mapNumbers, asValue_mapNumbers, Value.mapNumbers_mapNumbers]

/-- Two changes make the same of a document exactly if they make the same of its numbers. -/
theorem mapNumbers_eq_iff {first second : Number → Number} {document : Document} :
    document.mapNumbers first = document.mapNumbers second ↔
      ∀ number ∈ document.numbers, first number = second number := by
  have same : document.mapNumbers first = document.mapNumbers second ↔
      document.asValue.mapNumbers first = document.asValue.mapNumbers second := by
    rw [← asValue_mapNumbers, ← asValue_mapNumbers]
    exact ⟨congrArg asValue, asValue_inj⟩
  exact same.trans Value.mapNumbers_eq_iff

/-- Leaving every number as it is changes nothing. -/
theorem mapNumbers_self (document : Document) :
    (document.mapNumbers fun number => number) = document := by
  apply asValue_inj
  rw [asValue_mapNumbers, Value.mapNumbers_self]

/-! ## Order -/

theorem canonicalAll_iff {children : List Document} :
    CanonicalAll children ↔ ∀ child ∈ children, child.Canonical := by
  induction children with
  | nil => simp [CanonicalAll]
  | cons child children inductionHypothesis =>
      rw [CanonicalAll, inductionHypothesis, List.forall_mem_cons]

theorem canonicalCollections_iff {collections : Members (List Document)} :
    CanonicalCollections collections ↔
      ∀ collection ∈ collections, ∀ child ∈ collection.2, child.Canonical := by
  induction collections with
  | nil => simp [CanonicalCollections]
  | cons collection collections inductionHypothesis =>
      rw [CanonicalCollections, inductionHypothesis, canonicalAll_iff, List.forall_mem_cons]

/-! ## Levels -/

/-- A document is read in one way at every level, but only three levels further a child can be
read. -/
theorem exists_reader_eq (bound levels : Nat) :
    ∃ child, reader bound levels = readWith bound levels child ∧
      ∀ left, levels = left + 3 → child = reader bound left := by
  match levels with
  | 0 | 1 | 2 => exact ⟨_, rfl, fun left never => by omega⟩
  | left + 3 =>
      refine ⟨reader bound left, rfl, ?_⟩
      rintro same ⟨⟩
      rfl

/-! ## Building -/

/-- A document without anything is in order. -/
theorem canonical_empty : empty.Canonical :=
  ⟨⟨.nil, trivial⟩, .nil, trivial⟩

/-- Setting a property keeps a document in order. -/
theorem canonical_withProperty {document : Document} (canonical : document.Canonical) (key : String)
    {value : Value} (proper : value.Canonical) : (document.withProperty key value).Canonical := by
  cases document with
  | node properties collections =>
      obtain ⟨⟨ordered, values⟩, others⟩ := canonical
      rw [Value.canonicalMembers_iff] at values
      refine ⟨⟨Members.ordered_alter ordered key _, Value.canonicalMembers_iff.mpr ?_⟩, others⟩
      intro entry among
      rcases Members.mem_alter among with kept | ⟨found, changed, -⟩
      · exact values entry kept
      · rw [changed]
        exact proper

/-- Adding a child keeps a document in order. -/
theorem canonical_withChild {document child : Document} (canonical : document.Canonical)
    (collection : String) (proper : child.Canonical) :
    (document.withChild collection child).Canonical := by
  cases document with
  | node properties collections =>
      obtain ⟨values, ordered, children⟩ := canonical
      rw [canonicalCollections_iff] at children
      refine ⟨values, Members.ordered_alter ordered collection _, canonicalCollections_iff.mpr ?_⟩
      intro entry among document inside
      rcases Members.mem_alter among with kept | ⟨found, changed, there⟩
      · exact children entry kept document inside
      · rw [changed] at inside
        rcases List.mem_append.mp inside with earlier | new
        · cases found with
          | none => cases earlier
          | some documents => exact children _ (there documents rfl) document earlier
        · rw [List.mem_singleton.mp new]
          exact proper

/-! ## Decisions -/

mutual

instance decidableCanonical : (document : Document) → Decidable document.Canonical
  | .node _ collections =>
    @instDecidableAnd _ _ inferInstance
      (@instDecidableAnd _ _ inferInstance (decidableCanonicalCollections collections))

instance decidableCanonicalCollections :
    (collections : List (String × List Document)) → Decidable (CanonicalCollections collections)
  | [] => .isTrue trivial
  | (_, children) :: rest =>
    @instDecidableAnd _ _ (decidableCanonicalAll children) (decidableCanonicalCollections rest)

instance decidableCanonicalAll : (children : List Document) → Decidable (CanonicalAll children)
  | [] => .isTrue trivial
  | document :: rest =>
    @instDecidableAnd _ _ (decidableCanonical document) (decidableCanonicalAll rest)

end

/-! ## Texts -/

mutual

/-- The text of a document is the text of its value. -/
theorem writeAt_asValue (layout : Layout) (depth : Nat) (document : Document) :
    document.asValue.writeAt layout depth = document.writeAt layout depth := by
  cases document with
  | node properties collections =>
      have children := writeMembers_collectionMembers layout (depth + 2) collections
      have empty : (collectionMembers collections).isEmpty = collections.isEmpty := by
        cases collections <;> rfl
      rw [asValue, writeAt, Value.writeAt, writtenFields, empty]
      split_ifs <;> simp [Value.writeMembers, Value.writeAt, children]

theorem writeMembers_collectionMembers (layout : Layout) (depth : Nat)
    (collections : List (String × List Document)) :
    Value.writeMembers layout depth (collectionMembers collections) =
      writeCollections layout depth collections := by
  cases collections with
  | nil => rfl
  | cons collection collections =>
      rw [collectionMembers, Value.writeMembers, writeCollections, Value.writeAt,
        writeElements_childElements layout (depth + 1) collection.2,
        writeMembers_collectionMembers layout depth collections]

theorem writeElements_childElements (layout : Layout) (depth : Nat) (children : List Document) :
    Value.writeElements layout depth (childElements children) = writeAll layout depth children := by
  cases children with
  | nil => rfl
  | cons child children =>
      rw [childElements, Value.writeElements, writeAll, writeAt_asValue layout depth child,
        writeElements_childElements layout depth children]

end

theorem write_asValue (layout : Layout) (document : Document) :
    document.asValue.write layout = document.write layout := by
  rw [Value.write, write, writeAt_asValue]

end Flowpress.Document
