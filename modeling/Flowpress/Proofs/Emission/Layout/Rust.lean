import Flowpress.Proofs.Emission.Layout

/-!
# Files of the first target

Each section of a file is cut into its lines, and the lines are read as what they
are meant to be: the header as loose lines and the function that gives the text
out, the driver and the parts as one definition each.
-/

namespace Flowpress.Listing.Rust

variable {config : EmitterConfig}

/-- The lines above the function that gives the text out. -/
def preamble (config : EmitterConfig) (procedures : List Procedure) : List String := [
  "//! @generated by strata-codegen. Do not edit.", "//!",
  "//! " ++ Source.summary config procedures, "", "use std::sync::OnceLock;", "",
  "static METADATA: OnceLock<String> = OnceLock::new();", "",
  "/// The reassembled serialized metadata."]

def accessor (config : EmitterConfig) : Definition where
  name := "metadata"
  heading := "pub fn metadata() -> &'static str \x7b"
  body := ["    METADATA.get_or_init(" ++ config.driverName ++ ")"]

def callLine (config : EmitterConfig) (procedure : Procedure) : String :=
  "    " ++ procedure.name ++ "(&mut " ++ config.accumulator ++ ");"

def driver (config : EmitterConfig) (procedures : List Procedure) : Definition where
  name := config.driverName
  heading := "fn " ++ config.driverName ++ "() -> String \x7b"
  body := ("    let mut " ++ config.accumulator ++ " = String::new();") ::
    (procedures.map (callLine config) ++ ["    " ++ config.accumulator])

/-- The beginning of quoted lines. -/
def quoteOpening : String := "        \""

/-- The lines of the array of the literals of a part. -/
def arrayLines (literals : List String) : List String :=
  if literals.isEmpty then ["    const LINES: &[&str] = &[];"]
  else "    const LINES: &[&str] = &[" :: (literals.map (quotedLine quoteOpening) ++ ["    ];"])

def part (config : EmitterConfig) (procedure : Procedure) : Definition where
  name := procedure.name
  heading := "fn " ++ procedure.name ++ "(" ++ config.accumulator ++ ": &mut String) \x7b"
  body := arrayLines procedure.literals ++ ["    for line in LINES \x7b",
    "        " ++ config.accumulator ++ ".push_str(line);", "    \x7d"]

theorem lines_header (usable : config.Usable) (procedures : List Procedure) :
    lines (Source.Rust.header config procedures) =
      preamble config procedures ++
        (accessor config).heading :: ((accessor config).body ++ ["\x7d"]) := by
  have first : lines "//! @generated by strata-codegen. Do not edit.\n//!\n//! " =
      ["//! @generated by strata-codegen. Do not edit.", "//!", "//! "] := by decide +kernel
  have second : lines
      "\n\nuse std::sync::OnceLock;\n\nstatic METADATA: OnceLock<String> = OnceLock::new();\n\n" =
      ["", "", "use std::sync::OnceLock;", "",
        "static METADATA: OnceLock<String> = OnceLock::new();", "", ""] := by decide +kernel
  have third : lines
      "/// The reassembled serialized metadata.\npub fn metadata() -> &'static str \x7b\n" =
      ["/// The reassembled serialized metadata.",
        "pub fn metadata() -> &'static str \x7b", ""] := by
    decide +kernel
  have fourth : lines "    METADATA.get_or_init(" = ["    METADATA.get_or_init("] := by decide
  have last : lines ")\n\x7d" = [")", "\x7d"] := by decide
  unfold Source.Rust.header
  simp only [lines_append, first, second, third, fourth, last, lines_summary,
    lines_driverName usable]
  simp only [glue, String.append_empty, String.empty_append]
  rfl

theorem lines_call (usable : config.Usable) {procedure : Procedure} (emitted : Emitted procedure) :
    lines (Source.Rust.call config procedure) = [callLine config procedure, ""] := by
  have first : lines "    " = ["    "] := by decide
  have second : lines "(&mut " = ["(&mut "] := by decide
  have last : lines ");\n" = [");", ""] := by decide
  unfold Source.Rust.call
  simp only [lines_append, first, second, last, emitted.lines_name, lines_accumulator usable]
  rfl

theorem lines_driver (usable : config.Usable) {procedures : List Procedure}
    (emitted : ∀ procedure ∈ procedures, Emitted procedure) :
    lines (Source.Rust.driver config procedures) =
      (driver config procedures).heading :: ((driver config procedures).body ++ ["\x7d"]) := by
  have first : lines "fn " = ["fn "] := by decide
  have second :
      lines "() -> String \x7b\n    let mut " = ["() -> String \x7b", "    let mut "] := by
    decide
  have third : lines " = String::new();\n" = [" = String::new();", ""] := by decide
  have fourth : lines "    " = ["    "] := by decide
  have last : lines "\n\x7d" = ["", "\x7d"] := by decide
  have calls : lines (String.join (procedures.map (Source.Rust.call config))) =
      procedures.map (callLine config) ++ [""] :=
    lines_join fun procedure member => lines_call usable (emitted procedure member)
  unfold Source.Rust.driver
  simp only [lines_append, first, second, third, fourth, last, calls, lines_driverName usable,
    lines_accumulator usable]
  simp [driver, glue, empty_glue, glue_cons, glue_append]

theorem lines_quoted {literal : String} (one : OneLine literal) :
    lines (Source.Rust.literalLine literal) = [quotedLine quoteOpening literal, ""] := by
  have first : lines "        \"" = ["        \""] := by decide
  have last : lines "\",\n" = ["\",", ""] := by decide
  unfold Source.Rust.literalLine
  simp only [lines_append, first, last, lines_of_oneLine one]
  rfl

theorem lines_array {literals : List String} (one : ∀ literal ∈ literals, OneLine literal) :
    lines (Source.Rust.array literals) =
      if literals.isEmpty then ["&[]"]
      else "&[" :: (literals.map (quotedLine quoteOpening) ++ ["    ]"]) := by
  have empty : lines "&[]" = ["&[]"] := by decide
  have first : lines "&[\n" = ["&[", ""] := by decide
  have last : lines "    ]" = ["    ]"] := by decide
  have quoted : lines (String.join (literals.map Source.Rust.literalLine)) =
      literals.map (quotedLine quoteOpening) ++ [""] :=
    lines_join fun literal member => lines_quoted (one literal member)
  unfold Source.Rust.array
  split_ifs with none
  · exact empty
  · simp only [lines_append, first, last, quoted]
    simp [glue, empty_glue, glue_cons, glue_append]

theorem lines_part (usable : config.Usable) {procedure : Procedure} (emitted : Emitted procedure) :
    lines (Source.Rust.part config procedure) =
      (part config procedure).heading :: ((part config procedure).body ++ ["\x7d"]) := by
  have first : lines "fn " = ["fn "] := by decide
  have second : lines "(" = ["("] := by decide
  have third : lines ": &mut String) \x7b\n" = [": &mut String) \x7b", ""] := by decide
  have fourth : lines "    const LINES: &[&str] = " = ["    const LINES: &[&str] = "] := by decide
  have fifth : lines ";\n" = [";", ""] := by decide
  have sixth : lines "    for line in LINES \x7b\n        " =
      ["    for line in LINES \x7b", "        "] := by decide
  have last : lines ".push_str(line);\n    \x7d\n\x7d" =
      [".push_str(line);", "    \x7d", "\x7d"] := by decide
  unfold Source.Rust.part
  simp only [lines_append, first, second, third, fourth, fifth, sixth, last, emitted.lines_name,
    lines_accumulator usable, lines_array emitted.oneLine]
  unfold part arrayLines
  split_ifs
  · simp [glue]
  · simp [glue, glue_cons, glue_append]

/-! ### Reading -/

theorem reads_header (usable : config.Usable) (procedures : List Procedure) :
    Reads .rust (lines (Source.Rust.header config procedures))
      ((preamble config procedures).map .loose ++ [.definition (accessor config)]) := by
  have summary : definedName? .rust ("//! " ++ Source.summary config procedures) = none := by
    rw [definedName?, String.toList_append]
    rfl
  have opens : ∀ line ∈ preamble config procedures, definedName? .rust line = none := by
    simp only [preamble, List.forall_mem_cons]
    exact ⟨by decide, by decide, summary, by decide, by decide, by decide, by decide, by decide,
      by decide, by simp⟩
  have named : definedName? .rust "pub fn metadata() -> &'static str \x7b" = some "metadata" := by
    decide
  have opened : ¬ClosesItself "pub fn metadata() -> &'static str \x7b" := by decide
  have inside : ∀ line ∈ (accessor config).body, Indented line :=
    List.forall_mem_singleton.mpr ((Indented.append (by decide) _).append _)
  rw [lines_header usable]
  exact (Reads.loose opens).append (.definition named opened (brace_not_mem inside))

theorem indented_driver (config : EmitterConfig) (procedures : List Procedure) :
    ∀ line ∈ (driver config procedures).body, Indented line := by
  simp only [driver, List.forall_mem_cons, List.forall_mem_append, List.forall_mem_map]
  refine ⟨(Indented.append (by decide) _).append _, fun procedure _ => ?_,
    Indented.append (by decide) _, List.forall_mem_nil _⟩
  exact (((Indented.append (by decide) _).append _).append _).append _

theorem reads_driver (usable : config.Usable) {procedures : List Procedure}
    (emitted : ∀ procedure ∈ procedures, Emitted procedure) :
    Reads .rust (lines (Source.Rust.driver config procedures))
      [.definition (driver config procedures)] := by
  have heading : (driver config procedures).heading.toList =
      "fn ".toList ++ (config.driverName.toList ++ '(' :: ") -> String \x7b".toList) := by
    simp [driver]
  rw [lines_driver usable emitted]
  exact .definition (definedName?_heading heading (usable.isIdentifier .driverName))
    (not_closesItself _ (by decide)) (brace_not_mem (indented_driver config procedures))

theorem indented_part (config : EmitterConfig) (procedure : Procedure) :
    ∀ line ∈ (part config procedure).body, Indented line := by
  unfold part arrayLines
  split_ifs
  · simp only [List.forall_mem_cons, List.forall_mem_append]
    exact ⟨⟨by decide, List.forall_mem_nil _⟩, by decide,
      (Indented.append (by decide) _).append _, by decide, List.forall_mem_nil _⟩
  · simp only [List.forall_mem_cons, List.forall_mem_append, List.forall_mem_map]
    exact ⟨⟨by decide, fun literal _ => indented_quotedLine (by decide) literal, by decide,
        List.forall_mem_nil _⟩,
      by decide, (Indented.append (by decide) _).append _, by decide, List.forall_mem_nil _⟩

theorem reads_part (usable : config.Usable) {procedure : Procedure} (emitted : Emitted procedure) :
    Reads .rust (lines (Source.Rust.part config procedure))
      [.definition (part config procedure)] := by
  have heading : (part config procedure).heading.toList = "fn ".toList ++
      (procedure.name.toList ++
        '(' :: (config.accumulator.toList ++ ": &mut String) \x7b".toList)) := by
    simp [part]
  rw [lines_part usable emitted]
  exact .definition (definedName?_heading heading emitted.named) (not_closesItself _ (by decide))
    (brace_not_mem (indented_part config procedure))

/-- The items of a whole file. -/
def fileItems (config : EmitterConfig) (procedures : List Procedure) : List Item :=
  (preamble config procedures).map .loose ++ [.definition (accessor config)] ++
    spaced (driver config procedures :: procedures.map (part config)) ++ [.loose ""]

theorem items_file (usable : config.Usable) {procedures : List Procedure}
    (emitted : ∀ procedure ∈ procedures, Emitted procedure) :
    items .rust (Source.Rust.file config procedures) = fileItems config procedures := by
  have parts : Reads .rust
      (procedures.flatMap fun procedure => "" :: lines (Source.Rust.part config procedure))
      (procedures.flatMap fun procedure => [.loose "", .definition (part config procedure)]) :=
    Reads.flatMap fun procedure member => (reads_part usable (emitted procedure member)).after_empty
  have others := (reads_driver usable emitted).after_empty.append parts
  have all := ((reads_header usable procedures).append others).append .empty
  unfold Source.Rust.file fileItems spaced
  refine Reads.items_eq ?_
  rw [lines_ofSections, List.flatMap_cons, List.flatMap_map, List.flatMap_cons, List.flatMap_map]
  exact all

/-! ### The layout -/

theorem callee?_callLine {procedure : Procedure} (emitted : Emitted procedure) :
    callee? (callLine config procedure) = some procedure.name := by
  have split : (callLine config procedure).toList = "    ".toList ++
      (procedure.name.toList ++
        '(' :: ("&mut ".toList ++ config.accumulator.toList ++ [')', ';'])) := by
    simp [callLine]
  exact callee?_call split (by decide) emitted.named

theorem callees_driver (usable : config.Usable) {procedures : List Procedure}
    (emitted : ∀ procedure ∈ procedures, Emitted procedure) :
    (driver config procedures).body.filterMap callee? = procedures.map Procedure.name := by
  have opening : callee? ("    let mut " ++ config.accumulator ++ " = String::new();") = none :=
    (((by decide : Wordy "    let mut ").append _).append _).callee?_eq_none
  have closing : callee? ("    " ++ config.accumulator) = none :=
    callee?_identifier (by decide) (usable.isIdentifier .accumulator)
  exact callees_between opening closing fun procedure member =>
    callee?_callLine (emitted procedure member)

theorem quotes_array {literals : List String}
    (written : ∀ literal ∈ literals, ∃ text, literal = Literal.written text) :
    Quotes (arrayLines literals) literals := by
  have top : Quotes ["    const LINES: &[&str] = &["] [] := .unquoted (by decide)
  have bottom : Quotes ["    ];"] [] := .unquoted (by decide)
  have quoted : Quotes (literals.map (quotedLine quoteOpening)) literals :=
    .literals "        ".toList rfl (by decide) written
  unfold arrayLines
  split_ifs with none
  · rw [List.isEmpty_iff.mp none]
    exact .unquoted (by decide)
  · simpa using top.append (quoted.append bottom)

theorem quotes_part (usable : config.Usable) {procedure : Procedure}
    (emitted : Emitted procedure) :
    Quotes (part config procedure).body procedure.literals := by
  have pushed : Solid ("        " ++ config.accumulator ++ ".push_str(line);") :=
    (Solid.identifier (by decide) (usable.isIdentifier .accumulator)).append _
  have loop : Quotes ["    for line in LINES \x7b",
      "        " ++ config.accumulator ++ ".push_str(line);", "    \x7d"] [] := by
    refine .unquoted ?_
    simp only [List.forall_mem_cons]
    exact ⟨by decide, pushed.not_isQuoted, by decide, List.forall_mem_nil _⟩
  rw [← List.append_nil procedure.literals]
  exact (quotes_array emitted.written).append loop

theorem unquoted_preamble (config : EmitterConfig) (procedures : List Procedure) :
    ∀ line ∈ preamble config procedures, ¬IsQuoted line := by
  have summary : Solid ("//! " ++ Source.summary config procedures) := Solid.append (by decide) _
  simp only [preamble, List.forall_mem_cons]
  exact ⟨by decide, by decide, summary.not_isQuoted, by decide, by decide, by decide, by decide,
    by decide, by decide, List.forall_mem_nil _⟩

theorem unquoted_accessor (config : EmitterConfig) :
    ∀ line ∈ (accessor config).heading :: (accessor config).body, ¬IsQuoted line := by
  have body : Solid ("    METADATA.get_or_init(" ++ config.driverName ++ ")") :=
    (Solid.append (by decide) _).append _
  simp only [accessor, List.forall_mem_cons]
  exact ⟨by decide, body.not_isQuoted, List.forall_mem_nil _⟩

theorem unquoted_driver (usable : config.Usable) {procedures : List Procedure}
    (emitted : ∀ procedure ∈ procedures, Emitted procedure) :
    ∀ line ∈ (driver config procedures).heading :: (driver config procedures).body,
      ¬IsQuoted line := by
  have heading : Solid ("fn " ++ config.driverName ++ "() -> String \x7b") :=
    (Solid.append (by decide) _).append _
  have first : Solid ("    let mut " ++ config.accumulator ++ " = String::new();") :=
    (Solid.append (by decide) _).append _
  have call : ∀ procedure ∈ procedures, ¬IsQuoted (callLine config procedure) :=
    fun procedure member =>
      ((((Solid.identifier (by decide) (emitted procedure member).named).append _).append
        _).append _).not_isQuoted
  have last : Solid ("    " ++ config.accumulator) :=
    Solid.identifier (by decide) (usable.isIdentifier .accumulator)
  simp only [driver, List.forall_mem_cons, List.forall_mem_append, List.forall_mem_map]
  exact ⟨heading.not_isQuoted, first.not_isQuoted, call, last.not_isQuoted, List.forall_mem_nil _⟩

theorem layout (rust : config.target = .rust) (usable : config.Usable)
    {procedures : List Procedure} (emitted : ∀ procedure ∈ procedures, Emitted procedure) :
    Layout config procedures (part config) (driver config procedures) [accessor config]
      (fileItems config procedures) where
  definitions := by
    have found : (fileItems config procedures).filterMap Item.definition? =
        accessor config :: driver config procedures :: procedures.map (part config) := by
      simp only [fileItems, List.filterMap_append, definitions_loose, definitions_spaced]
      simp [Item.definition?]
    rw [found]
    exact .swap ..
  loose_unquoted :=
    (((Plain.loose (unquoted_preamble config procedures)).append (.definition _)).append
      (.spaced _)).append .empty
  driver_name := rfl
  driver_calls := callees_driver usable emitted
  others_ne_driver := by
    have reserved : "metadata" ∈ config.target.reservedNames := by
      rw [rust]
      decide
    rw [List.forall_mem_singleton]
    exact fun same => usable.driverName_free (same ▸ reserved)
  others_ne_part := by
    have last : "metadata".toList.getLast?.any Char.isDigit = false := by decide
    rw [List.forall_mem_singleton]
    exact fun index => EmitterConfig.ne_partName config index last
  unquoted := by
    simp only [List.forall_mem_cons (a := driver config procedures), List.forall_mem_singleton]
    exact ⟨unquoted_driver usable emitted, unquoted_accessor config⟩
  part_name _ := rfl
  part_quotes procedure member := quotes_part usable (emitted procedure member)

end Flowpress.Listing.Rust
