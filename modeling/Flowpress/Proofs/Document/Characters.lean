import Flowpress.Proofs.Document.Parts
import Flowpress.Proofs.Json.Characters

/-!
# The characters of written documents

A document mentions texts: names of properties and collections, and the strings
and names in the values of properties, in the document itself and in those below
it. What the printer does not write on its own account comes from these texts. So
the text of a document holds no character below U+0020 but the line feeds of its
layout, and all its characters can be emitted exactly if U+007F is in no text that
the document mentions.
-/

namespace Flowpress

open Json (Layout Value Printable)

namespace Document

/-! ## Texts of a document -/

/-- A text stands in a document: as the name of a property or of a collection, as a string or name
in the value of a property, or in a document of a collection. -/
inductive Mentions (text : String) : Document → Prop where
  | property {properties : List (String × Value)} {collections : List (String × List Document)}
      {value : Value} (among : (text, value) ∈ properties) :
      Mentions text (.node properties collections)
  | value {properties : List (String × Value)} {collections : List (String × List Document)}
      {name : String} {value : Value} (among : (name, value) ∈ properties)
      (inside : text ∈ value.texts) : Mentions text (.node properties collections)
  | collection {properties : List (String × Value)}
      {collections : List (String × List Document)} {children : List Document}
      (among : (text, children) ∈ collections) : Mentions text (.node properties collections)
  | child {properties : List (String × Value)} {collections : List (String × List Document)}
      {name : String} {children : List Document} {child : Document}
      (among : (name, children) ∈ collections) (member : child ∈ children)
      (below : Mentions text child) : Mentions text (.node properties collections)

theorem mentions_node_iff {text : String} {properties : Members Value}
    {collections : Members (List Document)} :
    Mentions text (.node properties collections) ↔
      text ∈ (Value.object properties).texts ∨
        ∃ collection ∈ collections,
          collection.1 = text ∨ ∃ child ∈ collection.2, Mentions text child := by
  rw [Value.texts_object, List.mem_append, List.mem_map, List.mem_flatMap]
  constructor
  · intro mentions
    cases mentions with
    | property among => exact .inl (.inl ⟨_, among, rfl⟩)
    | value among inside => exact .inl (.inr ⟨_, among, inside⟩)
    | collection among => exact .inr ⟨_, among, .inl rfl⟩
    | child among member below => exact .inr ⟨_, among, .inr ⟨_, member, below⟩⟩
  · rintro ((⟨⟨name, value⟩, among, rfl⟩ | ⟨⟨name, value⟩, among, inside⟩) |
      ⟨⟨name, children⟩, among, rfl | ⟨child, member, below⟩⟩)
    · exact .property among
    · exact .value among inside
    · exact .collection among
    · exact .child among member below

/-- The texts in the fields of a document are those of its properties and its collections. -/
theorem mem_texts_writtenFields_iff {text : String}
    (other : text ≠ "properties" ∧ text ≠ "children") {properties collections : Members Value} :
    text ∈ (Value.object (writtenFields properties collections)).texts ↔
      text ∈ (Value.object properties).texts ∨ text ∈ (Value.object collections).texts := by
  have empty : text ∉ (Value.object []).texts := List.not_mem_nil
  rw [Value.texts_object, writtenFields]
  by_cases noProperties : properties = [] <;> by_cases noCollections : collections = [] <;>
    simp [noProperties, noCollections, other, empty]

theorem mem_texts_collectionMembers_iff {text : String} {collections : Members (List Document)} :
    text ∈ (Value.object (collectionMembers collections)).texts ↔
      ∃ collection ∈ collections,
        collection.1 = text ∨ ∃ child ∈ collection.2, text ∈ child.texts := by
  rw [collectionMembers_eq_map, Value.texts_object]
  simp only [List.map_map, List.flatMap_map, Value.texts_array, List.mem_append, List.mem_map,
    List.mem_flatMap, Function.comp_apply, ← exists_or, ← and_or_left]
  rfl

/-- The texts in what is written for a document are those it mentions, and the names of the fields
that are written. -/
theorem mem_texts_iff {document : Document} {text : String}
    (other : text ≠ "properties" ∧ text ≠ "children") :
    text ∈ document.texts ↔ document.Mentions text := by
  induction document using induction with
  | node properties collections inductionHypothesis =>
      rw [texts, asValue, mem_texts_writtenFields_iff other, mem_texts_collectionMembers_iff,
        mentions_node_iff]
      refine or_congr_right (exists_congr fun collection => and_congr_right fun among =>
        or_congr_right (exists_congr fun child => and_congr_right fun member => ?_))
      exact inductionHypothesis collection among child member

/-- Whether U+007F is in a text that a document mentions can be found out from its texts. -/
theorem unmentioned_iff (document : Document) :
    (∀ text ∈ document.texts, '\x7f' ∉ text.toList) ↔
      ∀ text, document.Mentions text → '\x7f' ∉ text.toList := by
  refine forall_congr' fun text => ?_
  by_cases field : text = "properties" ∨ text = "children"
  · have clean : '\x7f' ∉ text.toList := by rcases field with rfl | rfl <;> decide
    simp only [clean, not_false_eq_true, implies_true]
  · rw [mem_texts_iff (not_or.mp field)]

/-! ## Characters of a written document -/

variable {layout : Layout} {document : Document}

/-- What a printer does not write on its own account is in a written document exactly if the
document mentions it and it is not below U+0020. -/
theorem mem_write_iff {char : Char} (foreign : ¬layout.Prints char) :
    char ∈ (document.write layout).toList ↔
      0x20 ≤ char.toNat ∧ ∃ text, document.Mentions text ∧ char ∈ text.toList := by
  have unnamed {field text : String} (printable : ∀ other ∈ field.toList, Printable other)
      (holds : char ∈ text.toList) : text ≠ field := by
    rintro rfl
    exact foreign (.inl (printable char holds))
  rw [write, String.toList_ofList, ← writeAt_asValue, Value.mem_writeAt_iff foreign]
  refine and_congr_right fun _ => exists_congr fun text => and_congr_left fun holds => ?_
  exact mem_texts_iff ⟨unnamed (by decide) holds, unnamed (by decide) holds⟩

/-- The only characters below U+0020 in a written document are the line feeds of its layout. -/
theorem layout_feed_of_control {char : Char} (among : char ∈ (document.write layout).toList)
    (control : char.toNat < 0x20) : layout = .indented ∧ char = '\n' := by
  by_cases prints : layout.Prints char
  · exact prints.resolve_left fun printable => absurd control (Nat.not_lt.mpr printable.1)
  · exact absurd control (Nat.not_lt.mpr ((mem_write_iff prints).mp among).1)

/-- All characters of a written document can be emitted exactly if U+007F is in no text that the
document mentions. -/
theorem allEncodable_write_iff (layout : Layout) (document : Document) :
    Json.AllEncodable (document.write layout).toList ↔
      ∀ text, document.Mentions text → '\x7f' ∉ text.toList := by
  constructor
  · intro encodable text mentions holds
    have foreign : ¬layout.Prints '\x7f' := by cases layout <;> decide
    exact (encodable _ ((mem_write_iff foreign).mpr ⟨by decide, text, mentions, holds⟩)).1 rfl
  · intro kept char among
    refine layout.encodable_of fun foreign => ?_
    obtain ⟨least, text, mentions, holds⟩ := (mem_write_iff foreign).mp among
    refine ⟨least, ?_⟩
    rintro rfl
    exact kept text mentions holds

/-- The text of a document can be emitted if U+007F is in none of its texts. -/
theorem allEncodable_write (layout : Layout) {document : Document}
    (kept : ∀ text ∈ document.texts, '\x7f' ∉ text.toList) :
    Json.AllEncodable (document.write layout).toList :=
  (document.allEncodable_write_iff layout).mpr (document.unmentioned_iff.mp kept)

end Document

end Flowpress
