import Flowpress.Proofs.Emission.Layout

/-!
# Files of the second target

The parts come before the driver here, a part without literals closes itself, and
the function that gives the text out stands behind the driver.
-/

namespace Flowpress.Listing.TypeScript

variable {config : EmitterConfig}

def preamble (config : EmitterConfig) (procedures : List Procedure) : List String :=
  ["// @generated by strata-codegen. Do not edit.", "// " ++ Source.summary config procedures]

/-- The heading of a part that has literals. -/
def opening (config : EmitterConfig) (procedure : Procedure) : String :=
  "function " ++ procedure.name ++ "(" ++ config.accumulator ++ ": string[]): void \x7b"

/-- The beginning of quoted lines. -/
def quoteOpening : String := "    \""

def part (config : EmitterConfig) (procedure : Procedure) : Definition :=
  if procedure.literals.isEmpty then ⟨procedure.name, opening config procedure ++ "\x7d", []⟩
  else ⟨procedure.name, opening config procedure, ("  " ++ config.accumulator ++ ".push(") ::
    (procedure.literals.map (quotedLine quoteOpening) ++ ["  );"])⟩

def callLine (config : EmitterConfig) (procedure : Procedure) : String :=
  "  " ++ procedure.name ++ "(" ++ config.accumulator ++ ");"

def driver (config : EmitterConfig) (procedures : List Procedure) : Definition where
  name := config.driverName
  heading := "function " ++ config.driverName ++ "(): string \x7b"
  body := ("  const " ++ config.accumulator ++ ": string[] = [];") ::
    (procedures.map (callLine config) ++ ["  return " ++ config.accumulator ++ ".join(\"\");"])

/-- The lines between the driver and the function that gives the text out. -/
def constant (config : EmitterConfig) : List String :=
  ["", "export const METADATA: string = " ++ config.driverName ++ "();", ""]

def accessor : Definition where
  name := "getMetadata"
  heading := "export function getMetadata(): string \x7b"
  body := ["  return METADATA;"]

theorem lines_header (config : EmitterConfig) (procedures : List Procedure) :
    lines (Source.TypeScript.header config procedures) = preamble config procedures := by
  have first : lines "// @generated by strata-codegen. Do not edit.\n// " =
      ["// @generated by strata-codegen. Do not edit.", "// "] := by decide +kernel
  unfold Source.TypeScript.header
  rw [lines_append, first, lines_summary]
  rfl

theorem lines_call (usable : config.Usable) {procedure : Procedure} (emitted : Emitted procedure) :
    lines (Source.TypeScript.call config procedure) = [callLine config procedure, ""] := by
  have first : lines "  " = ["  "] := by decide
  have second : lines "(" = ["("] := by decide
  have last : lines ");\n" = [");", ""] := by decide
  unfold Source.TypeScript.call
  simp only [lines_append, first, second, last, emitted.lines_name, lines_accumulator usable]
  rfl

theorem lines_driver (usable : config.Usable) {procedures : List Procedure}
    (emitted : ∀ procedure ∈ procedures, Emitted procedure) :
    lines (Source.TypeScript.driver config procedures) =
      (driver config procedures).heading :: ((driver config procedures).body ++ ["\x7d"]) ++
        (constant config ++ accessor.heading :: (accessor.body ++ ["\x7d"])) := by
  have first : lines "function " = ["function "] := by decide
  have second : lines "(): string \x7b\n  const " = ["(): string \x7b", "  const "] := by decide
  have third : lines ": string[] = [];\n" = [": string[] = [];", ""] := by decide
  have fourth : lines "  return " = ["  return "] := by decide
  have fifth : lines ".join(\"\");\n\x7d\n\nexport const METADATA: string = " =
      [".join(\"\");", "\x7d", "", "export const METADATA: string = "] := by decide +kernel
  have last : lines "();\n\nexport function getMetadata(): string \x7b\n  return METADATA;\n\x7d" =
      ["();", "", "export function getMetadata(): string \x7b", "  return METADATA;", "\x7d"] := by
    decide +kernel
  have calls : lines (String.join (procedures.map (Source.TypeScript.call config))) =
      procedures.map (callLine config) ++ [""] :=
    lines_join fun procedure member => lines_call usable (emitted procedure member)
  unfold Source.TypeScript.driver
  simp only [lines_append, first, second, third, fourth, fifth, last, calls,
    lines_driverName usable, lines_accumulator usable]
  simp [driver, constant, accessor, glue, empty_glue, glue_cons, glue_append]

theorem lines_literal {literal : String} (one : OneLine literal) :
    lines (Source.TypeScript.literalLine literal) = [quotedLine quoteOpening literal] := by
  have first : lines "    \"" = ["    \""] := by decide
  have last : lines "\"," = ["\","] := by decide
  unfold Source.TypeScript.literalLine
  simp only [lines_append, first, last, lines_of_oneLine one]
  rfl

theorem lines_part (usable : config.Usable) {procedure : Procedure} (emitted : Emitted procedure) :
    lines (Source.TypeScript.part config procedure) =
      if procedure.literals.isEmpty then [opening config procedure ++ "\x7d"]
      else opening config procedure :: ((part config procedure).body ++ ["\x7d"]) := by
  have first : lines "function " = ["function "] := by decide
  have second : lines "(" = ["("] := by decide
  have third : lines ": string[]): void \x7b" = [": string[]): void \x7b"] := by decide
  have closing : lines "\x7d" = ["\x7d"] := by decide
  have fourth : lines "\n  " = ["", "  "] := by decide
  have fifth : lines ".push(\n" = [".push(", ""] := by decide
  have last : lines "\n  );\n\x7d" = ["", "  );", "\x7d"] := by decide
  unfold Source.TypeScript.part part
  split_ifs with none
  · simp only [lines_append, first, second, third, closing, emitted.lines_name,
      lines_accumulator usable]
    rfl
  · have quoted : lines (String.intercalate "\n"
        (procedure.literals.map Source.TypeScript.literalLine)) =
        procedure.literals.map (quotedLine quoteOpening) :=
      lines_intercalate (fun literal member => lines_literal (emitted.oneLine literal member))
        (by simpa using none)
    simp only [lines_append, first, second, third, fourth, fifth, last, quoted,
      emitted.lines_name, lines_accumulator usable]
    have some : procedure.literals.map (quotedLine quoteOpening) ≠ [] := by simpa using none
    simp [opening, glue, glue_cons, empty_glue some, glue_empty, some]

/-! ### Reading -/

theorem reads_header (config : EmitterConfig) (procedures : List Procedure) :
    Reads .typeScript (lines (Source.TypeScript.header config procedures))
      ((preamble config procedures).map .loose) := by
  have summary : definedName? .typeScript ("// " ++ Source.summary config procedures) = none := by
    rw [definedName?, String.toList_append]
    rfl
  have opens : ∀ line ∈ preamble config procedures, definedName? .typeScript line = none := by
    simp only [preamble, List.forall_mem_cons]
    exact ⟨by decide, summary, List.forall_mem_nil _⟩
  rw [lines_header]
  exact .loose opens

theorem reads_part (usable : config.Usable) {procedure : Procedure} (emitted : Emitted procedure) :
    Reads .typeScript (lines (Source.TypeScript.part config procedure))
      [.definition (part config procedure)] := by
  have named (behind : String) :
      definedName? .typeScript (opening config procedure ++ behind) = some procedure.name := by
    have heading : (opening config procedure ++ behind).toList = "function ".toList ++
        (procedure.name.toList ++ '(' ::
          (config.accumulator.toList ++ ": string[]): void \x7b".toList ++ behind.toList)) := by
      simp [opening]
    exact definedName?_heading heading emitted.named
  rw [lines_part usable emitted]
  unfold part
  split_ifs with none
  · refine .definition_nil (named _) ⟨?_, ?_⟩
    · exact "function ".toList ++ procedure.name.toList ++ ['('] ++ config.accumulator.toList ++
        ": string[]): void ".toList
    · simp [opening]
  · have indented : ∀ line ∈ ("  " ++ config.accumulator ++ ".push(") ::
        (procedure.literals.map (quotedLine quoteOpening) ++ ["  );"]), Indented line := by
      simp only [List.forall_mem_cons, List.forall_mem_append, List.forall_mem_map]
      exact ⟨(Indented.append (by decide) _).append _,
        fun literal _ => indented_quotedLine (by decide) literal, by decide, List.forall_mem_nil _⟩
    have heading := named ""
    rw [String.append_empty] at heading
    exact .definition heading (not_closesItself _ (by decide)) (brace_not_mem indented)

theorem indented_driver (config : EmitterConfig) (procedures : List Procedure) :
    ∀ line ∈ (driver config procedures).body, Indented line := by
  simp only [driver, List.forall_mem_cons, List.forall_mem_append, List.forall_mem_map]
  refine ⟨(Indented.append (by decide) _).append _, fun procedure _ => ?_,
    (Indented.append (by decide) _).append _, List.forall_mem_nil _⟩
  exact (((Indented.append (by decide) _).append _).append _).append _

theorem reads_driver (usable : config.Usable) {procedures : List Procedure}
    (emitted : ∀ procedure ∈ procedures, Emitted procedure) :
    Reads .typeScript (lines (Source.TypeScript.driver config procedures))
      ([.definition (driver config procedures)] ++
        ((constant config).map .loose ++ [.definition accessor])) := by
  have heading : (driver config procedures).heading.toList = "function ".toList ++
      (config.driverName.toList ++ '(' :: "): string \x7b".toList) := by
    simp [driver]
  have named : definedName? .typeScript "export function getMetadata(): string \x7b" =
      some "getMetadata" := by decide
  have opened : ¬ClosesItself "export function getMetadata(): string \x7b" := by decide
  have exported : definedName? .typeScript
      ("export const METADATA: string = " ++ config.driverName ++ "();") = none := by
    rw [definedName?, String.toList_append, String.toList_append]
    rfl
  have opens : ∀ line ∈ constant config, definedName? .typeScript line = none := by
    simp only [constant, List.forall_mem_cons]
    exact ⟨by decide, exported, by decide, List.forall_mem_nil _⟩
  rw [lines_driver usable emitted]
  exact (Reads.definition (definedName?_heading heading (usable.isIdentifier .driverName))
    (not_closesItself _ (by decide)) (brace_not_mem (indented_driver config procedures))).append
      ((Reads.loose opens).append (.definition named opened (by decide)))

/-- The items of a whole file. -/
def fileItems (config : EmitterConfig) (procedures : List Procedure) : List Item :=
  (preamble config procedures).map .loose ++ spaced (procedures.map (part config)) ++
    (.loose "" :: ([.definition (driver config procedures)] ++
      ((constant config).map .loose ++ [.definition accessor]))) ++ [.loose ""]

theorem items_file (usable : config.Usable) {procedures : List Procedure}
    (emitted : ∀ procedure ∈ procedures, Emitted procedure) :
    items .typeScript (Source.TypeScript.file config procedures) = fileItems config procedures := by
  have parts : Reads .typeScript
      (procedures.flatMap fun procedure => "" :: lines (Source.TypeScript.part config procedure))
      (procedures.flatMap fun procedure => [.loose "", .definition (part config procedure)]) :=
    Reads.flatMap fun procedure member => (reads_part usable (emitted procedure member)).after_empty
  have all := (((reads_header config procedures).append parts).append
    (reads_driver usable emitted).after_empty).append .empty
  unfold Source.TypeScript.file fileItems spaced
  refine Reads.items_eq ?_
  rw [lines_ofSections, List.flatMap_append, List.flatMap_map, List.flatMap_singleton,
    List.flatMap_map, ← List.append_assoc]
  exact all

/-! ### The layout -/

theorem callee?_callLine {procedure : Procedure} (emitted : Emitted procedure) :
    callee? (callLine config procedure) = some procedure.name := by
  have split : (callLine config procedure).toList = "  ".toList ++
      (procedure.name.toList ++ '(' :: (config.accumulator.toList ++ [')', ';'])) := by
    simp [callLine]
  exact callee?_call split (by decide) emitted.named

theorem callees_driver {procedures : List Procedure}
    (emitted : ∀ procedure ∈ procedures, Emitted procedure) :
    (driver config procedures).body.filterMap callee? = procedures.map Procedure.name := by
  have opening : callee? ("  const " ++ config.accumulator ++ ": string[] = [];") = none :=
    (((by decide : Wordy "  const ").append _).append _).callee?_eq_none
  have closing : callee? ("  return " ++ config.accumulator ++ ".join(\"\");") = none :=
    (((by decide : Wordy "  return ").append _).append _).callee?_eq_none
  exact callees_between opening closing fun procedure member =>
    callee?_callLine (emitted procedure member)

theorem quotes_part (usable : config.Usable) {procedure : Procedure}
    (emitted : Emitted procedure) :
    Quotes (part config procedure).body procedure.literals := by
  unfold part
  split_ifs with none
  · rw [List.isEmpty_iff.mp none]
    exact .unquoted (List.forall_mem_nil _)
  · have pushed : Solid ("  " ++ config.accumulator ++ ".push(") :=
      (Solid.identifier (by decide) (usable.isIdentifier .accumulator)).append _
    have top : Quotes ["  " ++ config.accumulator ++ ".push("] [] :=
      .unquoted (List.forall_mem_singleton.mpr pushed.not_isQuoted)
    have quoted : Quotes (procedure.literals.map (quotedLine quoteOpening)) procedure.literals :=
      .literals "    ".toList rfl (by decide) emitted.written
    have bottom : Quotes ["  );"] [] := .unquoted (by decide)
    simpa using top.append (quoted.append bottom)

theorem unquoted_preamble (config : EmitterConfig) (procedures : List Procedure) :
    ∀ line ∈ preamble config procedures, ¬IsQuoted line := by
  have summary : Solid ("// " ++ Source.summary config procedures) := Solid.append (by decide) _
  simp only [preamble, List.forall_mem_cons]
  exact ⟨by decide, summary.not_isQuoted, List.forall_mem_nil _⟩

theorem unquoted_constant (config : EmitterConfig) : ∀ line ∈ constant config, ¬IsQuoted line := by
  have exported : Solid ("export const METADATA: string = " ++ config.driverName ++ "();") :=
    (Solid.append (by decide) _).append _
  simp only [constant, List.forall_mem_cons]
  exact ⟨by decide, exported.not_isQuoted, by decide, List.forall_mem_nil _⟩

theorem unquoted_driver {procedures : List Procedure}
    (emitted : ∀ procedure ∈ procedures, Emitted procedure) :
    ∀ line ∈ (driver config procedures).heading :: (driver config procedures).body,
      ¬IsQuoted line := by
  have heading : Solid ("function " ++ config.driverName ++ "(): string \x7b") :=
    (Solid.append (by decide) _).append _
  have first : Solid ("  const " ++ config.accumulator ++ ": string[] = [];") :=
    (Solid.append (by decide) _).append _
  have call : ∀ procedure ∈ procedures, ¬IsQuoted (callLine config procedure) :=
    fun procedure member =>
      ((((Solid.identifier (by decide) (emitted procedure member).named).append _).append
        _).append _).not_isQuoted
  have last : Solid ("  return " ++ config.accumulator ++ ".join(\"\");") :=
    (Solid.append (by decide) _).append _
  simp only [driver, List.forall_mem_cons, List.forall_mem_append, List.forall_mem_map]
  exact ⟨heading.not_isQuoted, first.not_isQuoted, call, last.not_isQuoted, List.forall_mem_nil _⟩

theorem part_name (config : EmitterConfig) (procedure : Procedure) :
    (part config procedure).name = procedure.name := by
  unfold part
  split_ifs <;> rfl

theorem layout (typeScript : config.target = .typeScript) (usable : config.Usable)
    {procedures : List Procedure} (emitted : ∀ procedure ∈ procedures, Emitted procedure) :
    Layout config procedures (part config) (driver config procedures) [accessor]
      (fileItems config procedures) where
  definitions := by
    have found : (fileItems config procedures).filterMap Item.definition? =
        procedures.map (part config) ++ [driver config procedures, accessor] := by
      simp only [fileItems, List.filterMap_append, List.filterMap_cons, definitions_loose,
        definitions_spaced]
      simp [Item.definition?]
    rw [found]
    exact List.perm_append_comm
  loose_unquoted :=
    ((Plain.loose (unquoted_preamble config procedures)).append (.spaced _)).append
      (Plain.empty.append ((Plain.definition _).append
        ((Plain.loose (unquoted_constant config)).append (.definition _)))) |>.append .empty
  driver_name := rfl
  driver_calls := callees_driver emitted
  others_ne_driver := by
    have reserved : "getMetadata" ∈ config.target.reservedNames := by
      rw [typeScript]
      decide
    rw [List.forall_mem_singleton]
    exact fun same => usable.driverName_free (same ▸ reserved)
  others_ne_part := by
    have last : "getMetadata".toList.getLast?.any Char.isDigit = false := by decide
    rw [List.forall_mem_singleton]
    exact fun index => EmitterConfig.ne_partName config index last
  unquoted := by
    simp only [List.forall_mem_cons (a := driver config procedures), List.forall_mem_singleton]
    exact ⟨unquoted_driver emitted, by decide⟩
  part_name := part_name config
  part_quotes procedure member := quotes_part usable (emitted procedure member)

end Flowpress.Listing.TypeScript
