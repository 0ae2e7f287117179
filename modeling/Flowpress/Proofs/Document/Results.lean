import Flowpress.Proofs.Document.Parts
import Flowpress.Proofs.Json.Results

/-!
# What is read as a document

Every document that is read, from an object or from an array, with any unknown
fields, has its properties and collections in ascending order of their names,
each name once, and nests no deeper than the levels allowed.
-/

namespace Flowpress.Document

open Json (Cursor Reader Value)
open Json.Cursor (Gives)

/-- The document is in order and nests no deeper than the given number of containers. -/
def Sound (levels : Nat) (document : Document) : Prop :=
  document.Canonical ∧ document.nesting ≤ levels

/-- The collections are in order and their text nests no deeper than the given number of
containers. -/
def SoundCollections (levels : Nat) (collections : Members (List Document)) : Prop :=
  (Members.Ordered collections ∧ CanonicalCollections collections) ∧
    (Value.object (collectionMembers collections)).nesting ≤ levels

/-- What has been read of a document behind its bracket. -/
structure Draft.Sound (levels : Nat) (draft : Draft) : Prop where
  properties : ∀ properties ∈ draft.properties?, (Value.object properties).Sound levels
  collections : ∀ collections ∈ draft.collections?, SoundCollections levels collections

variable {bound levels left : Nat} {child : Reader Document}

theorem eq_of_mem_writtenFields {properties collections : Members Value} {field : String × Value}
    (written : field ∈ writtenFields properties collections) :
    (properties ≠ [] ∧ field.2 = .object properties) ∨
      collections ≠ [] ∧ field.2 = .object collections := by
  unfold writtenFields at written
  rcases List.mem_append.mp written with first | second
  · split_ifs at first with none
    · cases first
    · exact .inl ⟨fun empty => none (List.isEmpty_iff.mpr empty), List.mem_singleton.mp first ▸ rfl⟩
  · split_ifs at second with none
    · cases second
    · exact .inr ⟨fun empty => none (List.isEmpty_iff.mpr empty),
        List.mem_singleton.mp second ▸ rfl⟩

/-- A document made of a sound draft is sound with the level of its bracket. -/
theorem Draft.Sound.document {draft : Draft} (sound : draft.Sound left) :
    draft.document.Sound (left + 1) := by
  obtain ⟨properties?, collections?⟩ := draft
  obtain ⟨soundProperties, soundCollections⟩ := sound
  have proper : (Value.object (properties?.getD [])).Canonical := by
    cases properties? with
    | none => exact ⟨.nil, trivial⟩
    | some properties => exact (soundProperties properties rfl).1
  have ordered : Members.Ordered (collections?.getD []) ∧
      CanonicalCollections (collections?.getD []) := by
    cases collections? with
    | none => exact ⟨.nil, trivial⟩
    | some collections => exact (soundCollections collections rfl).1
  refine ⟨⟨proper, ordered⟩, Nat.succ_le_succ (Value.nestingMembers_le_iff.mpr ?_)⟩
  -- What is empty is left out, and nothing else was missing.
  intro field written
  rcases eq_of_mem_writtenFields written with ⟨some, same⟩ | ⟨some, same⟩
  · rw [same]
    cases properties? with
    | none => exact absurd rfl some
    | some properties => exact (soundProperties properties rfl).2
  · rw [same]
    cases collections? with
    | none => exact absurd rfl some
    | some collections => exact (soundCollections collections rfl).2

/-- Properties are read as the members of an object. -/
theorem gives_properties :
    Gives (Cursor.map bound levels (Value.reader bound)) fun properties =>
      (Value.object properties).Sound levels := by
  intro cursor properties after given
  obtain ⟨left, rfl, ordered, sound⟩ :=
    Cursor.gives_map (fun left _ => Value.gives_reader bound left) _ _ _ given
  exact Value.sound_object ordered sound

/-- Collections are sound if their documents are with two levels less. -/
theorem gives_collections (gives : ∀ left, levels = left + 2 → Gives child (Sound left)) :
    Gives (Cursor.map bound levels fun levels => Cursor.list bound levels fun _ => child)
      (SoundCollections levels) := by
  intro cursor collections after given
  have children : ∀ left, levels = left + 1 → Gives (Cursor.list bound left fun _ => child)
      fun documents => ∃ below, left = below + 1 ∧ ∀ document ∈ documents, document.Sound below :=
    fun left same => Cursor.gives_list fun below more => gives below (by omega)
  obtain ⟨left, rfl, ordered, sound⟩ := Cursor.gives_map children _ _ _ given
  refine ⟨⟨ordered, canonicalCollections_iff.mpr ?_⟩, ?_⟩
  · intro collection among document inside
    obtain ⟨below, -, documents⟩ := sound collection among
    exact (documents document inside).1
  · rw [collectionMembers_eq_map]
    refine Nat.succ_le_succ (Value.nestingMembers_le_iff.mpr (List.forall_mem_map.mpr ?_))
    intro collection among
    obtain ⟨below, rfl, documents⟩ := sound collection among
    refine Nat.succ_le_succ (Value.nestingElements_le_iff.mpr (List.forall_mem_map.mpr ?_))
    exact fun document inside => (documents document inside).2

/-- Both fields of a document keep its draft sound. -/
theorem gives_fieldsWith (gives : ∀ below, left = below + 2 → Gives child (Sound below)) :
    ∀ field ∈ fieldsWith bound child, ∀ draft : Draft, draft.Sound left →
      Gives (field.read left draft) (Draft.Sound left) := by
  refine List.forall_mem_cons.mpr ⟨?_, List.forall_mem_singleton.mpr ?_⟩
  · intro draft sound cursor changed after given
    obtain ⟨⟨properties, _⟩, here, last⟩ := Outcome.bind_eq_ok_iff.mp given
    cases last
    refine ⟨?_, sound.collections⟩
    rintro _ ⟨⟩
    exact gives_properties _ _ _ here
  · intro draft sound cursor changed after given
    obtain ⟨⟨collections, _⟩, here, last⟩ := Outcome.bind_eq_ok_iff.mp given
    cases last
    refine ⟨sound.properties, ?_⟩
    rintro _ ⟨⟩
    exact gives_collections gives _ _ _ here

/-- A document is sound if the documents below it are with three levels less. -/
theorem gives_readWith (gives : ∀ left, levels = left + 3 → Gives child (Sound left)) :
    Gives (readWith bound levels child) (Sound levels) := by
  intro cursor document after given
  obtain ⟨⟨draft, _⟩, here, last⟩ := Outcome.bind_eq_ok_iff.mp given
  cases last
  have nothing (left : Nat) : Draft.Sound left .initial := by
    constructor <;> rintro _ ⟨⟩
  obtain ⟨left, rfl, sound⟩ := Cursor.gives_record
    (fun left same => gives_fieldsWith fun below more => gives below (by omega)) nothing _ _ _ here
  exact sound.document

/-- Every document that is read is sound for the levels allowed. -/
theorem gives_reader (bound levels : Nat) : Gives (reader bound levels) (Sound levels) := by
  induction levels using Nat.strongRecOn with
  | ind levels inductionHypothesis =>
      obtain ⟨child, same, below⟩ := exists_reader_eq bound levels
      rw [same]
      refine gives_readWith fun left fewer => ?_
      rw [below left fewer]
      exact inductionHypothesis left (by omega)

/-- Every document that a whole text is read as is in order and nests no deeper than a text may. -/
theorem sound_of_read {text : String} {document : Document} (given : read text = .ok document) :
    document.Sound Json.nestingLimit :=
  Cursor.property_of_readWhole (fun bound => gives_reader bound Json.nestingLimit) given

end Flowpress.Document
