import Flowpress.Json.Value

/-!
# Documents

A document is a node of a tree: properties with JSON values, and collections of
child documents. Both are kept in the order of their names. Documents are built
by adding properties and children one at a time; the order of additions to
different names leaves no trace.
-/

namespace Flowpress

/-- A node with named properties and named collections of children. -/
inductive Document where
  | node (properties : List (String × Json.Value)) (collections : List (String × List Document))
deriving Inhabited

namespace Document

def properties : Document → Members Json.Value
  | .node properties _ => properties

def collections : Document → Members (List Document)
  | .node _ collections => collections

/-- A node without properties and children. -/
def empty : Document := .node [] []

/-- Sets a property, replacing an earlier value. -/
def withProperty (document : Document) (key : String) (value : Json.Value) : Document :=
  .node (document.properties.insert key value) document.collections

/-- A node whose only property is its name. -/
def named (name : String) : Document := empty.withProperty "name" (.string name)

/-- Adds a child at the end of a collection. -/
def withChild (document : Document) (collection : String) (child : Document) : Document :=
  .node document.properties
    (document.collections.alter collection fun children => children.getD [] ++ [child])

def property? (document : Document) (key : String) : Option Json.Value :=
  document.properties.find? key

/-- The name of a node, if it has one and that is a text. -/
def name? (document : Document) : Option String :=
  match document.property? "name" with
  | some (.string name) => some name
  | _ => none

/-- The children in a collection, in the order in which they were added. -/
def childrenOf (document : Document) (collection : String) : List Document :=
  (document.collections.find? collection).getD []

mutual

/-- The number of nodes of the tree. -/
def nodeCount : Document → Nat
  | .node _ collections => 1 + nodeCountCollections collections

/-- The number of nodes in collections. -/
def nodeCountCollections : List (String × List Document) → Nat
  | [] => 0
  | (_, children) :: rest => nodeCountAll children + nodeCountCollections rest

/-- The number of nodes in a list of trees. -/
def nodeCountAll : List Document → Nat
  | [] => 0
  | document :: rest => document.nodeCount + nodeCountAll rest

end

mutual

/-- Equality of documents: the same names everywhere, and values that are the same. -/
def same : Document → Document → Bool
  | .node firstProperties firstCollections, .node secondProperties secondCollections =>
    Json.Value.sameMembers firstProperties secondProperties &&
      sameCollections firstCollections secondCollections

/-- Equality of collections with their names. -/
def sameCollections : List (String × List Document) → List (String × List Document) → Bool
  | [], [] => true
  | (firstName, first) :: firstRest, (secondName, second) :: secondRest =>
    firstName == secondName && sameAll first second && sameCollections firstRest secondRest
  | _, _ => false

/-- Equality of lists of documents. -/
def sameAll : List Document → List Document → Bool
  | [], [] => true
  | first :: firstRest, second :: secondRest => first.same second && sameAll firstRest secondRest
  | _, _ => false

end

mutual

/-- Properties and collections stand in ascending order of their names, in the whole tree. -/
def Canonical : Document → Prop
  | .node properties collections =>
    (Json.Value.object properties).Canonical ∧ Members.Ordered collections ∧
      CanonicalCollections collections

/-- The documents of every collection are canonical. -/
def CanonicalCollections : List (String × List Document) → Prop
  | [] => True
  | (_, children) :: rest => CanonicalAll children ∧ CanonicalCollections rest

/-- Every document of a list is canonical. -/
def CanonicalAll : List Document → Prop
  | [] => True
  | document :: rest => document.Canonical ∧ CanonicalAll rest

end

end Document

end Flowpress
