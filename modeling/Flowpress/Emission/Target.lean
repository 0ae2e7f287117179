import Flowpress.Text.Quoted

/-!
# Targets

A generated source file is written in one of two languages. Each has words that
the names in a generated file may not take: its keywords, and the fixed names of
the files themselves.
-/

namespace Flowpress

/-- The language of a generated source file. -/
inductive Target where
  | rust
  | typeScript
deriving DecidableEq, Repr

namespace Target

/-- Every target, in the order in which messages list them. -/
def all : List Target := [.rust, .typeScript]

def name : Target → String
  | .rust => "rust"
  | .typeScript => "typescript"

/-- What the names of parts begin with unless a configuration says otherwise. -/
def defaultPartPrefix : Target → String
  | .rust => "init_part"
  | .typeScript => "initPart"

def fileExtension : Target → String
  | .rust => "rs"
  | .typeScript => "ts"

/-- The words that a configured name may not be. -/
def reservedNames : Target → List String
  | .rust => [
    "_", "abstract", "as", "async", "await", "become", "box", "break", "const", "continue",
    "crate", "do", "dyn", "else", "enum", "extern", "false", "final", "fn", "for", "gen", "if",
    "impl", "in", "let", "loop", "macro", "match", "mod", "move", "mut", "override", "priv",
    "pub", "ref", "return", "self", "Self", "static", "struct", "super", "trait", "true", "try",
    "type", "typeof", "unsafe", "unsized", "use", "virtual", "where", "while", "yield",
    "metadata", "METADATA", "LINES", "line", "String", "OnceLock", "std"]
  | .typeScript => [
    "arguments", "await", "break", "case", "catch", "class", "const", "continue", "debugger",
    "default", "delete", "do", "else", "enum", "eval", "export", "extends", "false", "finally",
    "for", "function", "if", "implements", "import", "in", "instanceof", "interface", "let",
    "new", "null", "package", "private", "protected", "public", "return", "static", "super",
    "switch", "this", "throw", "true", "try", "typeof", "undefined", "var", "void", "while",
    "with", "yield", "METADATA", "getMetadata"]

/-- A target by its name or its file extension, in either case of letters. -/
def ofName? (name : String) : Option Target :=
  match String.ofList (name.toList.map Char.toLower) with
  | "rust" | "rs" => some .rust
  | "typescript" | "ts" => some .typeScript
  | _ => none

/-- Why a name is no target. -/
def unknownMessage (name : String) : String :=
  "unknown target '" ++ String.ofList (name.toList.map Char.toLower) ++
    "' (expected 'rust' or 'typescript')"

end Target

end Flowpress
