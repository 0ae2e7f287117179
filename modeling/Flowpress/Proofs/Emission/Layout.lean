import Mathlib.Data.List.Nodup
import Flowpress.Proofs.Emission.Headers
import Flowpress.Proofs.Emission.Listings
import Flowpress.Proofs.Emission.Units

/-!
# How generated files are laid out

Both targets lay a file out in the same way: a driver that calls every part, one
definition for each part with its literals as quoted lines, and nothing quoted
elsewhere. `Layout` states this for the items of a file, and from it follows what
a reader of the file finds, whatever else the target writes.
-/

namespace Flowpress.Listing

open EmitterConfig (isIdentifier isIdentifierPart)

/-! ## Lines that files are made of -/

/-- No name of a unit gets out of the line of the header. -/
theorem oneLine_summary (config : EmitterConfig) (procedures : List Procedure) :
    OneLine (Source.summary config procedures) := fun member =>
  absurd (Source.not_isControl_summary config procedures _ member) (by decide)

/-! ## Lines that begin in a known way -/

/-- The beginning of a line that is not quoted, whatever comes behind it. -/
def Solid (text : String) : Prop := ∃ start ∈ (unindented text).head?, start ≠ '"'

instance (text : String) : Decidable (Solid text) :=
  inferInstanceAs (Decidable (∃ start ∈ (unindented text).head?, start ≠ '"'))

theorem unindented_append {text : String} (some : unindented text ≠ []) (rest : String) :
    unindented (text ++ rest) = unindented text ++ rest.toList := by
  unfold unindented at some ⊢
  rw [String.toList_append, List.dropWhile_append, if_neg (by simpa using some)]

theorem Solid.append {text : String} (solid : Solid text) (rest : String) :
    Solid (text ++ rest) := by
  obtain ⟨start, first, other⟩ := solid
  have some : unindented text ≠ [] := by
    intro none
    rw [none] at first
    cases first
  refine ⟨start, ?_, other⟩
  rw [Option.mem_def] at first ⊢
  rw [unindented_append some, List.head?_append_of_ne_nil _ some, first]

theorem Solid.not_isQuoted {line : String} (solid : Solid line) : ¬IsQuoted line := by
  obtain ⟨start, first, other⟩ := solid
  rw [Option.mem_def] at first
  rw [IsQuoted, first]
  simpa using other

/-- An identifier with an indent is no quote. -/
theorem Solid.identifier {indent name : String}
    (blank : ∀ char ∈ indent.toList, Text.isBlankChar char) (identifier : isIdentifier name) :
    Solid (indent ++ name) := by
  obtain ⟨first, others, named, start, _⟩ := (EmitterConfig.isIdentifier_iff name).mp identifier
  refine ⟨first, ?_, ?_⟩
  · have characters : (indent ++ name).toList = indent.toList ++ (name.toList ++ []) := by simp
    rw [Option.mem_def, unindented_of_blank characters blank,
      dropWhile_blank_identifier identifier, named]
    rfl
  · rintro rfl
    exact absurd start (by decide)

/-- The beginning of a line that is no call, whatever comes behind it: behind the first word there
is something other than a parenthesis. -/
def Wordy (text : String) : Prop :=
  ∃ behind ∈ ((unindented text).dropWhile isIdentifierPart).head?, behind ≠ '('

instance (text : String) : Decidable (Wordy text) :=
  inferInstanceAs
    (Decidable (∃ behind ∈ ((unindented text).dropWhile isIdentifierPart).head?, behind ≠ '('))

theorem Wordy.append {text : String} (wordy : Wordy text) (rest : String) :
    Wordy (text ++ rest) := by
  obtain ⟨behind, first, other⟩ := wordy
  have more : (unindented text).dropWhile isIdentifierPart ≠ [] := by
    intro none
    rw [none] at first
    cases first
  have some : unindented text ≠ [] := fun none => more (by rw [none]; rfl)
  refine ⟨behind, ?_, other⟩
  rw [Option.mem_def] at first ⊢
  rw [unindented_append some, List.dropWhile_append, if_neg (by simpa using more),
    List.head?_append_of_ne_nil _ more, first]

theorem Wordy.callee?_eq_none {line : String} (wordy : Wordy line) : callee? line = none := by
  obtain ⟨behind, first, other⟩ := wordy
  rw [Option.mem_def] at first
  simp [callee?, first, other]

/-- An identifier alone is no call. -/
theorem callee?_identifier {indent name : String}
    (blank : ∀ char ∈ indent.toList, Text.isBlankChar char) (identifier : isIdentifier name) :
    callee? (indent ++ name) = none := by
  have characters : (indent ++ name).toList = indent.toList ++ (name.toList ++ []) := by simp
  have parts : ∀ char ∈ name.toList, isIdentifierPart char := fun _ member =>
    EmitterConfig.isIdentifierPart_of_mem identifier member
  have nothing : (name.toList ++ []).dropWhile isIdentifierPart = [] := by
    rw [List.dropWhile_append_of_pos parts]
    rfl
  simp only [callee?, unindented_of_blank characters blank, dropWhile_blank_identifier identifier,
    nothing]
  rfl

/-- The beginning of a line with an indent. -/
def Indented (text : String) : Prop := text.toList.head? = some ' '

instance (text : String) : Decidable (Indented text) :=
  inferInstanceAs (Decidable (text.toList.head? = some ' '))

theorem Indented.append {text : String} (indented : Indented text) (rest : String) :
    Indented (text ++ rest) := by
  unfold Indented at indented ⊢
  rw [String.toList_append, List.head?_append, indented, Option.some_or]

/-- Lines with an indent do not close a definition. -/
theorem brace_not_mem {lines : List String} (indented : ∀ line ∈ lines, Indented line) :
    "\x7d" ∉ lines := fun member => absurd (indented _ member) (by decide)

/-- A heading that ends with an opening brace does not close itself. -/
theorem not_closesItself (text : String) {ending : String}
    (last : ending.toList.getLast? = some '\x7b') : ¬ClosesItself (text ++ ending) := by
  rintro ⟨front, same⟩
  have ends := congrArg List.getLast? same
  rw [String.toList_append, List.getLast?_append, List.getLast?_append, last,
    Option.some_or] at ends
  cases ends

/-- The line of a literal, which begins in one way in all files of a target. -/
def quotedLine (opening literal : String) : String := opening ++ literal ++ "\","

theorem indented_quotedLine {opening : String} (indented : Indented opening) (literal : String) :
    Indented (quotedLine opening literal) := (indented.append _).append _

/-- Lines that are all read give what is read from them. -/
theorem filterMap_map_eq {α β γ : Type} {elements : List α} {line : α → β} {read : β → Option γ}
    {image : α → γ} (reads : ∀ element ∈ elements, read (line element) = some (image element)) :
    (elements.map line).filterMap read = elements.map image := by
  have each : ∀ element ∈ elements, (read ∘ line) element = (some ∘ image) element := reads
  rw [List.filterMap_map, List.filterMap_congr each, List.filterMap_eq_map]

/-- A body whose lines between the first and the last one are calls makes these calls. -/
theorem callees_between {opening closing : String} (first : callee? opening = none)
    (last : callee? closing = none) {procedures : List Procedure} {line : Procedure → String}
    (calls : ∀ procedure ∈ procedures, callee? (line procedure) = some procedure.name) :
    (opening :: (procedures.map line ++ [closing])).filterMap callee? =
      procedures.map Procedure.name := by
  rw [List.filterMap_cons_none first, List.filterMap_append, filterMap_map_eq calls,
    List.filterMap_cons_none last, List.filterMap_nil, List.append_nil]

/-- Lines that quote some literals, and nothing else. -/
structure Quotes (lines literals : List String) : Prop where
  bodies : lines.filterMap body? = literals
  complete : ∀ line ∈ lines, IsQuoted line → (body? line).isSome

namespace Quotes

theorem append {first second before after : List String} (left : Quotes first before)
    (right : Quotes second after) : Quotes (first ++ second) (before ++ after) where
  bodies := by rw [List.filterMap_append, left.bodies, right.bodies]
  complete line member :=
    (List.mem_append.mp member).elim (left.complete line) (right.complete line)

theorem unquoted {lines : List String} (plain : ∀ line ∈ lines, ¬IsQuoted line) :
    Quotes lines [] where
  bodies := List.filterMap_eq_nil_iff.mpr fun line member => body?_eq_none (plain line member)
  complete line member quoted := absurd quoted (plain line member)

/-- The lines of literals that are written for texts quote these literals. -/
theorem literals {literals : List String} {opening : String} (indent : List Char)
    (split : opening.toList = indent ++ ['"']) (blank : ∀ char ∈ indent, Text.isBlankChar char)
    (written : ∀ literal ∈ literals, ∃ text, literal = Literal.written text) :
    Quotes (literals.map (quotedLine opening)) literals := by
  have read : ∀ literal ∈ literals, body? (quotedLine opening literal) = some literal := by
    intro literal member
    obtain ⟨text, rfl⟩ := written literal member
    refine body?_quoted ?_ blank
    simp [quotedLine, split, Literal.written]
  refine ⟨by rw [filterMap_map_eq read, List.map_id'], ?_⟩
  rw [List.forall_mem_map]
  intro literal member _
  rw [read literal member]
  rfl

end Quotes

/-- A procedure as emissions make it: an identifier names it, and its literals are written for
texts. -/
structure Emitted (procedure : Procedure) : Prop where
  named : isIdentifier procedure.name
  written : ∀ literal ∈ procedure.literals, ∃ text, literal = Literal.written text

theorem Emitted.oneLine {procedure : Procedure} (emitted : Emitted procedure) :
    ∀ literal ∈ procedure.literals, OneLine literal := by
  intro literal member
  obtain ⟨text, rfl⟩ := emitted.written literal member
  rw [OneLine, Literal.written, String.toList_ofList]
  exact Literal.newline_not_mem_escape text

theorem Emitted.lines_name {procedure : Procedure} (emitted : Emitted procedure) :
    lines procedure.name = [procedure.name] :=
  lines_of_oneLine (oneLine_of_isIdentifier emitted.named)

variable {config : EmitterConfig}

theorem lines_driverName (usable : config.Usable) :
    lines config.driverName = [config.driverName] :=
  lines_of_oneLine (oneLine_of_isIdentifier (usable.isIdentifier .driverName))

theorem lines_accumulator (usable : config.Usable) :
    lines config.accumulator = [config.accumulator] :=
  lines_of_oneLine (oneLine_of_isIdentifier (usable.isIdentifier .accumulator))

theorem lines_summary (config : EmitterConfig) (procedures : List Procedure) :
    lines (Source.summary config procedures) = [Source.summary config procedures] :=
  lines_of_oneLine (oneLine_summary config procedures)

/-! ## Layouts -/

/-- The items of definitions with an empty line before each of them. -/
def spaced (definitions : List Definition) : List Item :=
  definitions.flatMap fun found => [.loose "", .definition found]

theorem definitions_spaced (definitions : List Definition) :
    (spaced definitions).filterMap Item.definition? = definitions := by
  induction definitions with
  | nil => rfl
  | cons found definitions inductionHypothesis =>
      rw [spaced, List.flatMap_cons, List.filterMap_append]
      exact congrArg _ inductionHypothesis

theorem definitions_loose (lines : List String) :
    (lines.map Item.loose).filterMap Item.definition? = [] := by
  rw [List.filterMap_map, List.filterMap_eq_nil_iff]
  exact fun _ _ => rfl

/-- Items whose lines outside of all definitions are not quoted. -/
def Plain (items : List Item) : Prop := ∀ line, .loose line ∈ items → ¬IsQuoted line

namespace Plain

theorem append {first second : List Item} (left : Plain first) (right : Plain second) :
    Plain (first ++ second) := fun line member =>
  (List.mem_append.mp member).elim (left line) (right line)

theorem loose {lines : List String} (plain : ∀ line ∈ lines, ¬IsQuoted line) :
    Plain (lines.map .loose) := by
  intro line member
  obtain ⟨_, among, same⟩ := List.mem_map.mp member
  exact Item.loose.inj same ▸ plain _ among

theorem empty : Plain [.loose ""] := by
  have blank : ∀ line ∈ [""], ¬IsQuoted line := by decide
  exact loose blank

theorem definition (found : Definition) : Plain [.definition found] := fun _ member =>
  nomatch List.mem_singleton.mp member

theorem spaced (definitions : List Definition) : Plain (spaced definitions) := by
  intro line member
  obtain ⟨found, _, inside⟩ := List.mem_flatMap.mp member
  exact empty.append (definition found) line inside

end Plain

/-- What a file for some procedures consists of: a driver that calls them in order, their
definitions, and other definitions that neither the driver nor the parts can be taken for. -/
structure Layout (config : EmitterConfig) (procedures : List Procedure)
    (part : Procedure → Definition) (driver : Definition) (others : List Definition)
    (items : List Item) : Prop where
  definitions :
    (items.filterMap Item.definition?).Perm (driver :: others ++ procedures.map part)
  loose_unquoted : Plain items
  driver_name : driver.name = config.driverName
  driver_calls : driver.body.filterMap callee? = procedures.map Procedure.name
  others_ne_driver : ∀ other ∈ others, other.name ≠ config.driverName
  others_ne_part : ∀ other ∈ others, ∀ index, other.name ≠ config.partName index
  unquoted : ∀ other ∈ driver :: others, ∀ line ∈ other.heading :: other.body, ¬IsQuoted line
  part_name : ∀ procedure, (part procedure).name = procedure.name
  part_quotes : ∀ procedure ∈ procedures, Quotes (part procedure).body procedure.literals

/-- What a reader finds in a file that carries a text in a number of parts. -/
structure Carries (config : EmitterConfig) (count : Nat) (file text : String) : Prop where
  /-- The driver is defined once. -/
  driver_once : (bodiesOf config.target file config.driverName).length = 1
  /-- It calls each part once, by ascending index. -/
  callees_eq : callees config.target file config.driverName =
    (List.range count).map config.partName
  /-- What it calls is defined once. -/
  part_once : ∀ name ∈ callees config.target file config.driverName,
    (bodiesOf config.target file name).length = 1
  /-- The quoted lines of what it calls are complete strings with a comma. -/
  complete : ∀ name ∈ callees config.target file config.driverName,
    ∀ body ∈ bodiesOf config.target file name,
      ∀ line ∈ body, IsQuoted line → (body? line).isSome
  /-- No other line is quoted. -/
  unquoted : ∀ item ∈ items config.target file,
    ∀ line ∈ item.linesOutside (callees config.target file config.driverName), ¬IsQuoted line
  /-- The strings in the order of the calls are the text. -/
  spoken_eq : spoken config.target file config.driverName = .ok text

namespace Layout

variable {procedures : List Procedure} {part : Procedure → Definition} {driver : Definition}
  {others : List Definition} {file : String}

/-- The bodies of the definitions of a name, those of the driver and the others first. -/
theorem bodiesOf_perm
    (layout : Layout config procedures part driver others (items config.target file))
    (name : String) :
    (bodiesOf config.target file name).Perm
      (((driver :: others).filter (·.name = name)).map Definition.body ++
        (procedures.filter (·.name = name)).map fun procedure => (part procedure).body) := by
  have found := (layout.definitions.filter fun found => decide (found.name = name)).map
    Definition.body
  have parts : (procedures.map part).filter (fun found => decide (found.name = name)) =
      (procedures.filter (·.name = name)).map part := by
    rw [List.filter_map]
    refine congrArg _ (List.filter_congr fun procedure _ => ?_)
    rw [Function.comp_apply, layout.part_name]
  rw [List.filter_append, parts, List.map_append, List.map_map] at found
  exact found

/-- Of elements whose images are distinct, only one has the image of a given one. -/
theorem filter_eq_singleton {α β : Type} [DecidableEq β] {image : α → β} {elements : List α}
    (distinct : (elements.map image).Nodup) {element : α} (member : element ∈ elements) :
    elements.filter (fun other => image other = image element) = [element] := by
  induction elements with
  | nil => cases member
  | cons first elements inductionHypothesis =>
      obtain ⟨fresh, rest⟩ := List.nodup_cons.mp distinct
      rcases List.mem_cons.mp member with rfl | later
      · have others : elements.filter (fun other => image other = image element) = [] := by
          refine List.filter_eq_nil_iff.mpr fun other among same => fresh ?_
          rw [← of_decide_eq_true same]
          exact List.mem_map_of_mem among
        rw [List.filter_cons_of_pos (by simp), others]
      · have other : image first ≠ image element := fun same =>
          fresh (same ▸ List.mem_map_of_mem later)
        rw [List.filter_cons_of_neg (by simpa using other), inductionHypothesis rest later]

section Numbered

variable
  (layout : Layout config procedures part driver others (items config.target file))
  (usable : config.Usable)
  (numbered : procedures.map Procedure.name = (List.range procedures.length).map config.partName)

include numbered in
/-- Procedures with the names of parts are called by those names only. -/
theorem exists_index {procedure : Procedure} (member : procedure ∈ procedures) :
    ∃ index, procedure.name = config.partName index := by
  have named : procedure.name ∈ procedures.map Procedure.name := List.mem_map_of_mem member
  rw [numbered] at named
  obtain ⟨index, _, same⟩ := List.mem_map.mp named
  exact ⟨index, same.symm⟩

include layout usable numbered in
theorem bodiesOf_driverName :
    bodiesOf config.target file config.driverName = [driver.body] := by
  have parts : procedures.filter (fun procedure => procedure.name = config.driverName) = [] := by
    refine List.filter_eq_nil_iff.mpr fun procedure member same => ?_
    obtain ⟨index, named⟩ := exists_index numbered member
    exact EmitterConfig.partName_ne_driverName usable index
      (named.symm.trans (of_decide_eq_true same))
  have apart : others.filter (fun other => other.name = config.driverName) = [] :=
    List.filter_eq_nil_iff.mpr fun other member same =>
      layout.others_ne_driver other member (of_decide_eq_true same)
  have found := layout.bodiesOf_perm config.driverName
  rw [parts, List.filter_cons_of_pos (by simpa using layout.driver_name), apart] at found
  exact List.perm_singleton.mp found

include layout usable numbered in
theorem bodiesOf_name {procedure : Procedure} (member : procedure ∈ procedures) :
    bodiesOf config.target file procedure.name = [(part procedure).body] := by
  have distinct : (procedures.map Procedure.name).Nodup := by
    rw [numbered]
    exact List.Nodup.map config.partName_injective List.nodup_range
  obtain ⟨index, named⟩ := exists_index numbered member
  have apart : (driver :: others).filter (fun other => other.name = procedure.name) = [] := by
    refine List.filter_eq_nil_iff.mpr fun other among same => ?_
    have name : other.name = config.partName index := (of_decide_eq_true same).trans named
    rcases List.mem_cons.mp among with rfl | among
    · exact EmitterConfig.partName_ne_driverName usable index (name.symm.trans layout.driver_name)
    · exact layout.others_ne_part other among index name
  have found := layout.bodiesOf_perm procedure.name
  rw [apart, filter_eq_singleton distinct member] at found
  exact List.perm_singleton.mp found

include layout usable numbered in
theorem callees_driverName :
    callees config.target file config.driverName = procedures.map Procedure.name := by
  rw [callees, layout.bodiesOf_driverName usable numbered, List.flatMap_singleton,
    layout.driver_calls]

include layout usable numbered in
/-- The strings in the order of the calls are the literals of the procedures. -/
theorem spoken_driverName :
    spoken config.target file config.driverName = (do
      let pieces ← (procedures.flatMap Procedure.literals).mapM Literal.unescape
      .ok (String.join pieces)) := by
  have each : ∀ procedure ∈ procedures,
      (bodiesOf config.target file procedure.name).flatMap (List.filterMap body?) =
        procedure.literals := by
    intro procedure member
    rw [layout.bodiesOf_name usable numbered member, List.flatMap_singleton,
      (layout.part_quotes procedure member).bodies]
  unfold spoken
  rw [layout.callees_driverName usable numbered, List.flatMap_map, List.flatMap_congr each]

include layout usable numbered in
/-- A file that is laid out for procedures carries what running them in this order appends. -/
theorem carries {text : String}
    (run : (do
      let pieces ← (procedures.flatMap Procedure.literals).mapM Literal.unescape
      .ok (String.join pieces) : Except EmitError String) = .ok text) :
    Carries config procedures.length file text where
  driver_once := by
    rw [layout.bodiesOf_driverName usable numbered]
    rfl
  callees_eq := (layout.callees_driverName usable numbered).trans numbered
  part_once := by
    rw [layout.callees_driverName usable numbered, List.forall_mem_map]
    intro procedure member
    rw [layout.bodiesOf_name usable numbered member]
    rfl
  complete := by
    rw [layout.callees_driverName usable numbered, List.forall_mem_map]
    intro procedure member
    rw [layout.bodiesOf_name usable numbered member, List.forall_mem_singleton]
    exact (layout.part_quotes procedure member).complete
  unquoted := by
    rw [layout.callees_driverName usable numbered]
    intro item member line inside
    cases item with
    | loose loose =>
        obtain rfl := List.mem_singleton.mp inside
        exact layout.loose_unquoted _ member
    | definition found =>
        have among : found ∈ driver :: others ++ procedures.map part :=
          layout.definitions.mem_iff.mp (List.mem_filterMap.mpr ⟨_, member, rfl⟩)
        simp only [Item.linesOutside] at inside
        split_ifs at inside with named
        · cases inside
        · rcases List.mem_append.mp among with other | part
          · exact layout.unquoted found other line inside
          · obtain ⟨procedure, called, rfl⟩ := List.mem_map.mp part
            rw [layout.part_name] at named
            exact absurd (List.mem_map_of_mem called) named
  spoken_eq := by rw [layout.spoken_driverName usable numbered, run]

end Numbered

end Layout

end Flowpress.Listing
