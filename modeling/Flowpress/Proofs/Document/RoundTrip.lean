import Flowpress.Document.Emission
import Flowpress.Proofs.Document.Characters
import Flowpress.Proofs.Document.Equality
import Flowpress.Proofs.Emission.Units
import Flowpress.Proofs.Json.Records
import Flowpress.Proofs.Json.RoundTrip

/-!
# Documents are read back

The reader of documents takes the text of a document as the document with every
number changed to what its own text is read as, if there are as many levels as the
document nests, and refuses it as too deep otherwise, however many documents are
below each other: three levels belong to a document, its collections and the list
that a child stands in. So a document is read back exactly if its numbers are, even
where it is enough that the same document is read.
-/

namespace Flowpress

open Json (Cursor Layout Number Reader Value)
open Json.Cursor (FieldsTake StartsElement Takes)

namespace Json.Number

/-- A zero is read back with its sign. -/
theorem legible_of_magnitude_eq_zero {value : Binary64} (finite : value.isFinite = true)
    (zero : value.magnitude = 0) : (binary value finite).Legible := by
  cases sign : value.isNegative with
  | false =>
      obtain rfl : value = .zero := Binary64.eq_of_sign_magnitude sign zero
      have legible : (binary .zero (by decide)).Legible := by decide +kernel
      exact legible
  | true =>
      obtain rfl : value = ⟨0x8000000000000000⟩ := Binary64.eq_of_sign_magnitude sign zero
      have legible : (binary ⟨0x8000000000000000⟩ (by decide)).Legible := by decide +kernel
      exact legible

/-- A number is read back exactly if it is read as the same number. -/
theorem legible_iff_same {number : Number} :
    number.Legible ↔ number.Readable ∧ number.reread.same number = true := by
  constructor
  · intro legible
    refine ⟨legible.readable, ?_⟩
    rw [legible.reread_eq, same_iff]
  · rintro ⟨readable, same⟩
    rcases eq_or_zero_of_same same with kept | ⟨value, finite, rfl, zero⟩
    · exact legible_iff.mpr (readable.reread?_eq.trans (congrArg some kept))
    · exact legible_of_magnitude_eq_zero finite zero

end Json.Number

namespace Document

variable {layout : Layout} {depth bound levels : Nat} {child : Reader Document}

/-- The properties of a document are taken. -/
theorem takes_properties {properties : Members Value}
    (canonical : (Value.object properties).Canonical)
    (enough : ((Value.object properties).writeAt layout depth).length ≤ bound) :
    Takes (Cursor.map bound levels (Value.reader bound))
      ((Value.object properties).writeAt layout depth) (Value.object properties).Readable
      ((Value.object properties).nesting ≤ levels)
      (Value.mapNumbersMembers Number.reread properties) := by
  rw [Value.Canonical, Value.canonicalMembers_iff] at canonical
  obtain ⟨ordered, canonical⟩ := canonical
  have shorter (entry : String × Value) (among : entry ∈ properties) :=
    Nat.le_trans (Value.length_writeAt_le_object among) enough
  rw [Value.writeAt, Value.writeMembers_eq_memberTexts] at enough ⊢
  rw [Value.mapNumbersMembers_eq_mapValues, Value.readable_object_iff]
  refine Cursor.takes_map layout depth (Value.writeAt layout (depth + 1)) Value.Readable
    (fun left value => value.nesting ≤ left) (Value.mapNumbers Number.reread) ordered ?_
    (fun left => Value.nestingMembers_le_iff) enough
  intro left _ entry among
  exact Value.takes_reader layout (canonical entry among) left (depth + 1) (shorter entry among)

/-- The documents of a collection are taken. -/
theorem takes_children {children : List Document}
    (takes : ∀ left, levels = left + 1 → ∀ document ∈ children,
      Takes child (document.asValue.writeAt layout (depth + 1)) document.asValue.Readable
        (document.nesting ≤ left) (document.mapNumbers Number.reread))
    (enough : ((Value.array (children.map asValue)).writeAt layout depth).length ≤ bound) :
    Takes (Cursor.list bound levels fun _ => child)
      ((Value.array (children.map asValue)).writeAt layout depth)
      (Value.array (children.map asValue)).Readable
      ((Value.array (children.map asValue)).nesting ≤ levels)
      (children.map (mapNumbers Number.reread)) := by
  have starts : ∀ document ∈ children,
      StartsElement (document.asValue.writeAt layout (depth + 1)) := fun document _ =>
    Value.startsElement_writeAt layout (depth + 1) document.asValue
  rw [Value.writeAt, Value.writeElements_eq_map, List.map_map] at enough ⊢
  rw [Value.readable_array_iff, List.forall_mem_map]
  refine Cursor.takes_list layout depth starts takes (fun left => ?_) enough
  rw [Value.nestingElements_le_iff, List.forall_mem_map]
  rfl

/-- The collections of a document are taken. -/
theorem takes_collections {collections : Members (List Document)}
    (ordered : Members.Ordered collections)
    (takes : ∀ left, levels = left + 2 → ∀ collection ∈ collections, ∀ document ∈ collection.2,
      Takes child (document.asValue.writeAt layout (depth + 2)) document.asValue.Readable
        (document.nesting ≤ left) (document.mapNumbers Number.reread))
    (enough :
      ((Value.object (collectionMembers collections)).writeAt layout depth).length ≤ bound) :
    Takes (Cursor.map bound levels fun levels => Cursor.list bound levels fun _ => child)
      ((Value.object (collectionMembers collections)).writeAt layout depth)
      (Value.object (collectionMembers collections)).Readable
      ((Value.object (collectionMembers collections)).nesting ≤ levels)
      (mapNumbersCollections Number.reread collections) := by
  -- The parts are described on collections, as the reader gives them, and not on their values.
  let value (children : List Document) : Value := .array (children.map asValue)
  let text (children : List Document) : List Char := (value children).writeAt layout (depth + 1)
  have texts : Value.writeMembers layout (depth + 1) (collections.mapValues value) =
      Cursor.memberTexts layout (collections.mapValues text) := by
    rw [Value.writeMembers_eq_memberTexts, Members.mapValues_mapValues]
  have inner : ∀ left, levels = left + 1 → ∀ collection ∈ collections,
      Takes (Cursor.list bound left fun _ => child) (text collection.2)
        (value collection.2).Readable ((value collection.2).nesting ≤ left)
        (collection.2.map (mapNumbers Number.reread)) := by
    intro left same collection among
    have inside : (collection.1, value collection.2) ∈ collectionMembers collections := by
      rw [collectionMembers_eq_map]
      exact List.mem_map_of_mem among
    refine takes_children (fun below more => ?_)
      (Nat.le_trans (Value.length_writeAt_le_object inside) enough)
    exact takes below (by omega) collection among
  have deepest (left : Nat) : Value.nestingMembers (collections.mapValues value) ≤ left ↔
      ∀ collection ∈ collections, (value collection.2).nesting ≤ left := by
    rw [Value.nestingMembers_le_iff, Members.forall_mem_mapValues]
  have members : collectionMembers collections = collections.mapValues value :=
    collectionMembers_eq_map collections
  rw [members, Value.writeAt, texts] at enough ⊢
  rw [mapNumbersCollections_eq_mapValues, Value.readable_object_iff, Members.forall_mem_mapValues]
  exact Cursor.takes_map layout depth text (fun children => (value children).Readable)
    (fun left children => (value children).nesting ≤ left) (List.map (mapNumbers Number.reread))
    ordered inner deepest enough

/-- What is read of a field: nothing if there are no members, for then the field is left out. -/
def filled? {α : Type} (members : Members α) : Option (Members α) :=
  if members.isEmpty then none else some members

theorem filled?_getD {α : Type} (members : Members α) : (filled? members).getD [] = members := by
  cases members <;> rfl

/-- The draft of a document with the given properties and collections. -/
def Draft.filled (properties : Members Value) (collections : Members (List Document)) : Draft :=
  ⟨filled? properties, filled? collections⟩

theorem Draft.document_filled (properties : Members Value)
    (collections : Members (List Document)) :
    (filled properties collections).document = .node properties collections := by
  rw [document, filled, filled?_getD, filled?_getD]

/-- The collections of a document are taken into a draft, if they were not left out. -/
theorem fieldsTake_collections (properties? : Option (Members Value))
    {collections : Members (List Document)}
    (takes : collectionMembers collections ≠ [] →
      Takes (Cursor.map bound levels fun levels => Cursor.list bound levels fun _ => child)
        ((Value.object (collectionMembers collections)).writeAt layout depth)
        (Value.object (collectionMembers collections)).Readable
        ((Value.object (collectionMembers collections)).nesting ≤ levels)
        (mapNumbersCollections Number.reread collections)) :
    FieldsTake (Cursor.fieldNamed bound levels (fieldsWith bound child)) ⟨properties?, none⟩
      ((writtenFields [] (collectionMembers collections)).mapValues (Value.writeAt layout depth))
      (∀ field ∈ writtenFields [] (collectionMembers collections), field.2.Readable)
      (∀ field ∈ writtenFields [] (collectionMembers collections), field.2.nesting ≤ levels)
      ⟨properties?, filled? (mapNumbersCollections Number.reread collections)⟩ := by
  cases collections with
  | nil =>
      exact (FieldsTake.nil _).congr (iff_true_intro (List.forall_mem_nil _))
        (iff_true_intro (List.forall_mem_nil _))
  | cons collection collections =>
      have field := (takes (List.cons_ne_nil _ _)).map fun collections : Members (List Document) =>
        ({ properties?, collections? := some collections } : Draft)
      exact (FieldsTake.cons (by rfl) field (.nil _)).congr
        (by simp [writtenFields, collectionMembers]) (by simp [writtenFields, collectionMembers])

/-- The fields of a document are taken into its draft. -/
theorem fieldsTake_filled {properties : Members Value} {collections : Members (List Document)}
    (takesProperties : properties ≠ [] →
      Takes (Cursor.map bound levels (Value.reader bound))
        ((Value.object properties).writeAt layout depth) (Value.object properties).Readable
        ((Value.object properties).nesting ≤ levels)
        (Value.mapNumbersMembers Number.reread properties))
    (takesCollections : collectionMembers collections ≠ [] →
      Takes (Cursor.map bound levels fun levels => Cursor.list bound levels fun _ => child)
        ((Value.object (collectionMembers collections)).writeAt layout depth)
        (Value.object (collectionMembers collections)).Readable
        ((Value.object (collectionMembers collections)).nesting ≤ levels)
        (mapNumbersCollections Number.reread collections)) :
    FieldsTake (Cursor.fieldNamed bound levels (fieldsWith bound child)) .initial
      ((writtenFields properties (collectionMembers collections)).mapValues
        (Value.writeAt layout depth))
      (∀ field ∈ writtenFields properties (collectionMembers collections), field.2.Readable)
      (∀ field ∈ writtenFields properties (collectionMembers collections),
        field.2.nesting ≤ levels)
      (.filled (Value.mapNumbersMembers Number.reread properties)
        (mapNumbersCollections Number.reread collections)) := by
  cases properties with
  | nil => exact fieldsTake_collections none takesCollections
  | cons property properties =>
      have field := (takesProperties (List.cons_ne_nil _ _)).map fun properties : Members Value =>
        ({ properties? := some properties, collections? := none } : Draft)
      exact (FieldsTake.cons (by rfl) field (fieldsTake_collections _ takesCollections)).congr
        List.forall_mem_cons List.forall_mem_cons

/-- The text of a document below another one is no longer than the text of its collections. -/
theorem length_writeAt_child_le {collections : Members (List Document)}
    {collection : String × List Document} (among : collection ∈ collections) {document : Document}
    (inside : document ∈ collection.2) :
    (document.asValue.writeAt layout (depth + 2)).length ≤
      ((Value.object (collectionMembers collections)).writeAt layout depth).length := by
  have element : document.asValue ∈ collection.2.map asValue := List.mem_map_of_mem inside
  have member : (collection.1, Value.array (collection.2.map asValue)) ∈
      collectionMembers collections := by
    rw [collectionMembers_eq_map]
    exact List.mem_map_of_mem among
  exact Nat.le_trans (Value.length_writeAt_le_array element) (Value.length_writeAt_le_object member)

/-- The text of a document is taken as the document with every number reread if there are as many
levels as it nests, and refused as too deep otherwise. Fewer than three levels never reach a child,
so that the child reader that stands in for them is not asked. -/
theorem takes_reader (layout : Layout) {document : Document} (canonical : document.Canonical)
    {bound : Nat} (levels depth : Nat)
    (enough : (document.asValue.writeAt layout depth).length ≤ bound) :
    Takes (reader bound levels) (document.asValue.writeAt layout depth) document.asValue.Readable
      (document.nesting ≤ levels) (document.mapNumbers Number.reread) := by
  induction document using induction generalizing levels depth with
  | node properties collections inductionHypothesis =>
      obtain ⟨child, same, below⟩ := exists_reader_eq bound levels
      obtain ⟨proper, ordered, children⟩ := canonical
      rw [canonicalCollections_iff] at children
      -- Behind the brace of the document one level less is left for its two fields.
      have take (left : Nat) (more : levels = left + 1) : FieldsTake
          (Cursor.fieldNamed bound left (fieldsWith bound child)) .initial
          ((writtenFields properties (collectionMembers collections)).mapValues
            (Value.writeAt layout (depth + 1)))
          (∀ field ∈ writtenFields properties (collectionMembers collections), field.2.Readable)
          (∀ field ∈ writtenFields properties (collectionMembers collections),
            field.2.nesting ≤ left)
          (.filled (Value.mapNumbersMembers Number.reread properties)
            (mapNumbersCollections Number.reread collections)) := by
        refine fieldsTake_filled (fun some => ?_) fun some => ?_
        · have field := mem_writtenFields_properties some (collectionMembers collections)
          exact takes_properties proper
            (Nat.le_trans (Value.length_writeAt_le_object field) enough)
        · have field := mem_writtenFields_children properties some
          have shorter := Nat.le_trans (Value.length_writeAt_le_object field) enough
          refine takes_collections ordered ?_ shorter
          intro fewer same collection among document inside
          rw [below fewer (by omega)]
          exact inductionHypothesis collection among document inside
            (children collection among document inside) fewer (depth + 1 + 2)
            (Nat.le_trans (length_writeAt_child_le among inside) shorter)
      -- The brace itself, and the document that is made of the draft.
      rw [asValue, Value.writeAt, Value.writeMembers_eq_memberTexts] at enough ⊢
      have record := Cursor.takes_record layout depth recordName
        (fun left more => (take left more).congr Value.readable_object_iff
          Value.nestingMembers_le_iff) enough
      have whole := record.map Draft.document
      rw [Draft.document_filled] at whole
      rw [same]
      exact whole

/-- What the text of a document is read as: the document with every number reread, if none of them
is refused and the document nests no deeper than a text may. -/
theorem read_write_eq_ok_iff (layout : Layout) {document : Document}
    (canonical : document.Canonical) {result : Document} :
    read (document.write layout) = .ok result ↔
      (∀ number ∈ document.numbers, number.Readable) ∧ document.nesting ≤ Json.nestingLimit ∧
        document.mapNumbers Number.reread = result := by
  rw [← write_asValue]
  exact (takes_reader layout canonical Json.nestingLimit 0 le_rfl).readWhole_eq_ok_iff

/-- A document changes nowhere if each of its numbers is read back. -/
theorem mapNumbers_reread {document : Document}
    (legible : ∀ number ∈ document.numbers, number.Legible) :
    document.mapNumbers Number.reread = document := by
  have kept : ∀ number ∈ document.numbers, number.reread = number := fun number among =>
    (legible number among).reread_eq
  rw [mapNumbers_eq_iff.mpr kept, mapNumbers_self]

/-- A written document is read back if its numbers are and it nests no deeper than a text may. -/
theorem read_write (layout : Layout) {document : Document} (canonical : document.Canonical)
    (legible : ∀ number ∈ document.numbers, number.Legible)
    (shallow : document.nesting ≤ Json.nestingLimit) :
    read (document.write layout) = .ok document :=
  (read_write_eq_ok_iff layout canonical).mpr
    ⟨fun number among => (legible number among).readable, shallow, mapNumbers_reread legible⟩

/-- A written document that nests deeper than a text may is refused for that, if its numbers are
read back. -/
theorem read_write_tooDeep (layout : Layout) {document : Document}
    (canonical : document.Canonical) (legible : ∀ number ∈ document.numbers, number.Legible)
    (deep : ¬document.nesting ≤ Json.nestingLimit) :
    ∃ position, read (document.write layout) = .error ⟨.tooDeep, some position⟩ := by
  rw [← write_asValue]
  exact (takes_reader layout canonical Json.nestingLimit 0 le_rfl).readWhole_tooDeep
    (fun number among => (legible number among).readable) deep

/-- A document is read back as the same document exactly if each of its numbers is read back. -/
theorem exists_read_write_same_iff (layout : Layout) {document : Document}
    (canonical : document.Canonical) (shallow : document.nesting ≤ Json.nestingLimit) :
    (∃ loaded, read (document.write layout) = .ok loaded ∧ loaded.same document = true) ↔
      ∀ number ∈ document.numbers, number.Legible := by
  constructor
  · rintro ⟨loaded, reads, same⟩ number among
    obtain ⟨readable, -, rfl⟩ := (read_write_eq_ok_iff layout canonical).mp reads
    exact Number.legible_iff_same.mpr
      ⟨readable number among, same_mapNumbers_iff.mp same number among⟩
  · intro legible
    exact ⟨document, read_write layout canonical legible shallow, document.same_self⟩

end Document

namespace Codec

/-- Loading the unit of a text is reading the text. -/
theorem load_unitOf (layout : Layout) (config : EmitterConfig) (text : String) :
    (json layout).load (Emitter.unitOf config text) =
      (Document.read text).mapError .serialization := by
  have run := Emitter.runDriver_unitOf config text
  rw [GeneratedUnit.runDriver] at run
  rw [load, loadProcedures, run]
  rfl

/-- Emission of documents loses nothing. A document, with its entries in order, whose numbers are
integers and whose texts do not have the character U+007F is emitted under every configuration that
can be used; the unit is loaded as the document if the document nests at most 127 containers, and
refused as too deep otherwise. -/
theorem load_emit (layout : Layout) (config : EmitterConfig) (valid : config.Valid)
    (document : Document) (canonical : document.Canonical)
    (integers : ∀ number ∈ document.numbers, number.IsInteger)
    (kept : ∀ text ∈ document.texts, '\x7f' ∉ text.toList) :
    ∃ emitter unit, Emitter.ofConfig config = .ok emitter ∧
      (json layout).emit emitter document = .ok unit ∧
      (document.nesting ≤ 127 → (json layout).load unit = .ok document) ∧
      (127 < document.nesting →
        ∃ position,
          (json layout).load unit = .error (.serialization ⟨.tooDeep, some position⟩)) := by
  let emitter : Emitter := ⟨config, valid⟩
  let text := document.write layout
  have legible : ∀ number ∈ document.numbers, number.Legible := fun number among =>
    (integers number among).legible
  have emitted : emitter.emit text = .ok (Emitter.unitOf config text) :=
    (Emitter.emit_eq_ok_iff ..).mpr ⟨document.allEncodable_write layout kept, rfl⟩
  have loaded := load_unitOf layout config text
  refine ⟨emitter, Emitter.unitOf config text, Emitter.ofConfig_eq_ok valid, ?_, ?_, ?_⟩
  · simp [emit, json, Except.mapError, emitted, text]
  · intro shallow
    rw [loaded, Document.read_write layout canonical legible shallow]
    rfl
  · intro deep
    obtain ⟨position, refused⟩ :=
      Document.read_write_tooDeep layout canonical legible (Nat.not_le.mpr deep)
    refine ⟨position, ?_⟩
    rw [loaded, refused]
    rfl

/-- Empty containers, both ends of the range of integers, texts with escapes, a collection without
documents and a document without anything. -/
def shop : Document :=
  .node
    [("limits", .object [("greatest", .ofNat 18446744073709551615), ("none", .array []),
      ("others", .array [.number (.integer (-9223372036854775808) (by decide)), .object []])]),
      ("name", .string "caf\u00e9 \"\u4e00\\\"\n\x01")]
    [("schemas", [.node [("name", .string "public")] [("tables", [.empty])], .empty]),
      ("views", [])]

/-- So many arrays inside each other. -/
def nested : Nat → Json.Value
  | 0 => .null
  | count + 1 => .array [nested count]

/-- A document that nests one container too deep. -/
def tooDeep : Document := .node [("deep", nested 126)] []

theorem shop_loaded_tooDeep_refused :
    (∃ emitter unit, Emitter.ofConfig EmitterConfig.twoLines = .ok emitter ∧
      (json .indented).emit emitter shop = .ok unit ∧ (json .indented).load unit = .ok shop) ∧
    ∃ emitter unit position, Emitter.ofConfig EmitterConfig.twoLines = .ok emitter ∧
      (json .compact).emit emitter tooDeep = .ok unit ∧
      (json .compact).load unit = .error (.serialization ⟨.tooDeep, some position⟩) := by
  have valid : EmitterConfig.twoLines.Valid := by decide
  obtain ⟨emitter, unit, found, emitted, loaded, -⟩ := load_emit .indented _ valid shop
    (by decide) (by decide) (by decide)
  obtain ⟨other, deep, same, written, -, refused⟩ := load_emit .compact _ valid tooDeep
    (by decide +kernel) (by decide +kernel) (by decide +kernel)
  obtain ⟨position, error⟩ := refused (by decide +kernel)
  exact ⟨⟨emitter, unit, found, emitted, loaded (by decide)⟩,
    other, deep, position, same, written, error⟩

end Codec

end Flowpress
