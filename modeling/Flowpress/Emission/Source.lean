import Flowpress.Emission.Config

/-!
# Generated source files

A procedure is one part of a generated file: a name and the literals it appends
to the accumulator. The file consists of a header, the driver that calls every
part, and the parts themselves; the two targets differ in their order and their
wording. Nothing is checked here: the file is put together from what it is given.
-/

namespace Flowpress

/-- One part of a generated file. -/
structure Procedure where
  index : Nat
  name : String
  /-- What stands between the quotes of its strings. -/
  literals : List String
deriving DecidableEq, Repr

namespace Source

/-- Whether a character is a control character. -/
def isControl (char : Char) : Bool :=
  decide (char.toNat < 0x20 ∨ 0x7f ≤ char.toNat ∧ char.toNat < 0xa0)

/-- A text in which blanks stand for control characters, so that it stays on its line. -/
def onOneLine (text : String) : String :=
  String.ofList (text.toList.map fun char => if isControl char then ' ' else char)

/-- The sentence of the header. -/
def summary (config : EmitterConfig) (procedures : List Procedure) : String :=
  "Serialized metadata for `" ++ onOneLine config.unitName ++ "`, split into " ++
    toString procedures.length ++ " part(s) of at most " ++ toString config.maxLines ++ " lines."

/-- Sections with an empty line between any two, and a line feed at the end. -/
def ofSections (sections : List String) : String := String.intercalate "\n\n" sections ++ "\n"

/-! ## The Rust form -/

namespace Rust

/-- The header: the summary, the lazily built text, and the function that gives it out. -/
def header (config : EmitterConfig) (procedures : List Procedure) : String :=
  "//! @generated by strata-codegen. Do not edit.\n//!\n//! " ++ summary config procedures ++
    "\n\nuse std::sync::OnceLock;\n\nstatic METADATA: OnceLock<String> = OnceLock::new();\n\n" ++
    "/// The reassembled serialized metadata.\npub fn metadata() -> &'static str \x7b\n" ++
    "    METADATA.get_or_init(" ++ config.driverName ++ ")\n\x7d"

/-- The call of one part. -/
def call (config : EmitterConfig) (procedure : Procedure) : String :=
  "    " ++ procedure.name ++ "(&mut " ++ config.accumulator ++ ");\n"

/-- The driver: it calls every part with one accumulator. -/
def driver (config : EmitterConfig) (procedures : List Procedure) : String :=
  "fn " ++ config.driverName ++ "() -> String \x7b\n    let mut " ++ config.accumulator ++
    " = String::new();\n" ++ String.join (procedures.map (call config)) ++ "    " ++
    config.accumulator ++ "\n\x7d"

/-- The line of one literal. -/
def literalLine (literal : String) : String := "        \"" ++ literal ++ "\",\n"

/-- The array of the literals of a part. -/
def array (literals : List String) : String :=
  if literals.isEmpty then "&[]" else "&[\n" ++ String.join (literals.map literalLine) ++ "    ]"

/-- The definition of one part. -/
def part (config : EmitterConfig) (procedure : Procedure) : String :=
  "fn " ++ procedure.name ++ "(" ++ config.accumulator ++ ": &mut String) \x7b\n" ++
    "    const LINES: &[&str] = " ++ array procedure.literals ++ ";\n" ++
    "    for line in LINES \x7b\n        " ++ config.accumulator ++
    ".push_str(line);\n    \x7d\n\x7d"

/-- The whole file: header, driver, parts. -/
def file (config : EmitterConfig) (procedures : List Procedure) : String :=
  ofSections (header config procedures :: driver config procedures :: procedures.map (part config))

end Rust

/-! ## The TypeScript form -/

namespace TypeScript

/-- The header: the summary alone. -/
def header (config : EmitterConfig) (procedures : List Procedure) : String :=
  "// @generated by strata-codegen. Do not edit.\n// " ++ summary config procedures

/-- The line of one literal. -/
def literalLine (literal : String) : String := "    \"" ++ literal ++ "\","

/-- The definition of one part. -/
def part (config : EmitterConfig) (procedure : Procedure) : String :=
  let opening :=
    "function " ++ procedure.name ++ "(" ++ config.accumulator ++ ": string[]): void \x7b"
  if procedure.literals.isEmpty then opening ++ "\x7d"
  else
    opening ++ "\n  " ++ config.accumulator ++ ".push(\n" ++
      String.intercalate "\n" (procedure.literals.map literalLine) ++ "\n  );\n\x7d"

/-- The call of one part. -/
def call (config : EmitterConfig) (procedure : Procedure) : String :=
  "  " ++ procedure.name ++ "(" ++ config.accumulator ++ ");\n"

/-- The driver: it calls every part with one accumulator; behind it, the text as a constant and
the function that gives it out. -/
def driver (config : EmitterConfig) (procedures : List Procedure) : String :=
  "function " ++ config.driverName ++ "(): string \x7b\n  const " ++ config.accumulator ++
    ": string[] = [];\n" ++ String.join (procedures.map (call config)) ++ "  return " ++
    config.accumulator ++ ".join(\"\");\n\x7d\n\nexport const METADATA: string = " ++
    config.driverName ++
    "();\n\nexport function getMetadata(): string \x7b\n  return METADATA;\n\x7d"

/-- The whole file: header, parts, driver. -/
def file (config : EmitterConfig) (procedures : List Procedure) : String :=
  ofSections <|
    header config procedures :: (procedures.map (part config) ++ [driver config procedures])

end TypeScript

/-- The file that a configuration makes of procedures. -/
def file (config : EmitterConfig) (procedures : List Procedure) : String :=
  match config.target with
  | .rust => Rust.file config procedures
  | .typeScript => TypeScript.file config procedures

end Source

end Flowpress
