import Mathlib.Data.List.SplitBy
import Flowpress.Proofs.Emission.Sources

/-!
# Names and their scopes in files of the first target

A file is read word by word, and every place where a function binds a name or uses
one as a value is found, together with the scope there. A pattern that is a single
name introduces a variable unless the name is a keyword or stands for a constant, a
static or a constructor: functions and other variables can be shadowed, these
cannot. Four constructors are in scope in every file, and the check of
configurations does not know them.
-/

namespace Flowpress.Listing.Rust

open EmitterConfig (isIdentifier isIdentifierPart)

/-! ## Scopes -/

/-- What a name can stand for where a value is expected. -/
inductive Meaning where
  | variable
  | function
  | constant
  | static
  | constructor
deriving DecidableEq, Repr

/-- Whether a pattern takes a name away from what it stands for. -/
def Meaning.isShadowed : Meaning → Bool
  | .variable | .function => true
  | .constant | .static | .constructor => false

/-- Words that cannot be names in every edition of the language. -/
def keywords : List String := [
  "_", "Self", "abstract", "as", "async", "await", "become", "box", "break", "const", "continue",
  "crate", "do", "dyn", "else", "enum", "extern", "false", "final", "fn", "for", "gen", "if",
  "impl", "in", "let", "loop", "macro", "match", "mod", "move", "mut", "override", "priv", "pub",
  "ref", "return", "self", "static", "struct", "super", "trait", "true", "try", "type", "typeof",
  "unsafe", "unsized", "use", "virtual", "where", "while", "yield"]

/-- An identifier that is no keyword. -/
def IsName (word : String) : Prop := isIdentifier word ∧ word ∉ keywords

instance (word : String) : Decidable (IsName word) := inferInstanceAs (Decidable (_ ∧ _))

/-- The constructors without named fields that are in scope in every file. -/
def constructors : List String := ["None", "Some", "Ok", "Err"]

/-- Names with what they stand for, the innermost first. -/
abbrev Scope := List (String × Meaning)

namespace Scope

/-- What a name stands for. -/
def meaning? (scope : Scope) (name : String) : Option Meaning := scope.lookup name

/-- Names that all stand for things of one kind. -/
def ofNames (names : List String) (meaning : Meaning) : Scope := names.map (·, meaning)

/-- A pattern that is a single name introduces a variable. -/
def Introduces (scope : Scope) (name : String) : Prop :=
  IsName name ∧ ∀ meaning ∈ scope.meaning? name, meaning.isShadowed

instance (scope : Scope) (name : String) : Decidable (scope.Introduces name) :=
  inferInstanceAs (Decidable (_ ∧ _))

/-- The scope behind a pattern. -/
def bind (scope : Scope) (name : String) : Scope :=
  if scope.Introduces name then (name, .variable) :: scope else scope

/-- The scope behind several patterns. -/
def bindAll (scope : Scope) (names : List String) : Scope := names.foldl bind scope

theorem meaning?_cons (name : String) (meaning : Meaning) (scope : Scope) (other : String) :
    meaning? ((name, meaning) :: scope) other =
      if other = name then some meaning else scope.meaning? other := by
  unfold meaning?
  split_ifs with same
  · rw [same, List.lookup_cons_self]
  · rw [List.lookup_cons, beq_false_of_ne same]

theorem meaning?_append (first second : Scope) (name : String) :
    meaning? (first ++ second) name = (first.meaning? name).or (second.meaning? name) :=
  List.lookup_append ..

theorem meaning?_ofNames (names : List String) (meaning : Meaning) (name : String) :
    (ofNames names meaning).meaning? name = if name ∈ names then some meaning else none := by
  unfold ofNames
  induction names with
  | nil => rfl
  | cons first names inductionHypothesis =>
      rw [List.map_cons, meaning?_cons, inductionHypothesis]
      by_cases same : name = first
      · simp [same]
      · simp [same]

/-- A name that is bound stands for a variable if the pattern introduces one, and else for what it
stood for before. -/
theorem meaning?_bind_self (scope : Scope) (name : String) :
    (scope.bind name).meaning? name =
      if scope.Introduces name then some .variable else scope.meaning? name := by
  unfold bind
  split_ifs
  · rw [meaning?_cons, if_pos rfl]
  · rfl

theorem meaning?_bind_of_ne (scope : Scope) {name other : String} (apart : other ≠ name) :
    (scope.bind name).meaning? other = scope.meaning? other := by
  unfold bind
  split_ifs
  · rw [meaning?_cons, if_neg apart]
  · rfl

end Scope

/-! ## Words -/

/-- Whether two neighbours belong to one word. -/
def together (first second : Char) : Bool := isIdentifierPart first && isIdentifierPart second

/-- The words of a line: identifiers as wholes and all other characters by themselves, without
blanks. -/
def words (line : String) : List String :=
  ((line.toList.splitBy together).filter (!·.all Text.isBlankChar)).map String.ofList

example : words "    let mut sb = String::new();" =
    ["let", "mut", "sb", "=", "String", ":", ":", "new", "(", ")", ";"] := by decide

/-- The words that are used as values: names that follow neither a point nor a colon, as methods
and members of paths do, and that no colon follows, as it follows what a path begins with. -/
def valuesAfter (previous : String) : List String → List String
  | [] => []
  | word :: rest =>
    if IsName word ∧ previous ∉ [".", ":"] ∧ rest.head? ≠ some ":" then
      word :: valuesAfter word rest
    else valuesAfter word rest

/-- What a line of a function does with names. -/
structure Statement where
  /-- The names that are bound from the next line on. -/
  binds : List String
  values : List String

/-- The statement that some words are. Types are no values, nor are the characters of strings. -/
def Statement.ofWords : List String → Statement
  | "let" :: "mut" :: name :: rest => ⟨[name], valuesAfter name rest⟩
  | "for" :: name :: rest => ⟨[name], valuesAfter name rest⟩
  | "const" :: _ | "\"" :: _ => ⟨[], []⟩
  | words => ⟨[], valuesAfter "" words⟩

/-- The name that a line declares behind a keyword. -/
def declared? (keyword line : String) : Option String :=
  match words line with
  | first :: name :: _ => if first = keyword then some name else none
  | _ => none

/-- The name of the parameter in the heading of a function. -/
def parameter? (heading : String) : Option String :=
  match (words heading).dropWhile (· ≠ "(") with
  | _ :: name :: ":" :: _ => some name
  | _ => none

/-! ## Occurrences -/

/-- What a function does with a name. -/
inductive Role where
  | binding
  | value
deriving DecidableEq, Repr

/-- A place in a function where a name is bound or used. -/
structure Occurrence where
  function : String
  role : Role
  name : String
  /-- The names that are known in front of the place. -/
  scope : Scope

/-- The occurrences in lines of a function. -/
def occurrencesIn (function : String) (scope : Scope) : List String → List Occurrence
  | [] => []
  | line :: rest =>
    let ⟨binds, values⟩ := Statement.ofWords (words line)
    values.map (⟨function, .value, ·, scope⟩) ++ binds.map (⟨function, .binding, ·, scope⟩) ++
      occurrencesIn function (scope.bindAll binds) rest

/-- The occurrences in a function: the parameter is bound outside of its body, and the constants of
the body are known in all of it. -/
def occurrencesOf (outer : Scope) (found : Definition) : List Occurrence :=
  let parameters := (parameter? found.heading).toList
  let constants := found.body.filterMap (declared? "const")
  parameters.map (⟨found.name, .binding, ·, outer⟩) ++
    occurrencesIn found.name (Scope.ofNames constants .constant ++ outer.bindAll parameters)
      found.body

/-- The line of an item that belongs to no function. -/
def line? : Item → Option String
  | .definition _ => none
  | .loose line => some line

/-- What is known in all of a file: its statics and functions, and the constructors. -/
def fileScope (items : List Item) : Scope :=
  Scope.ofNames ((items.filterMap line?).filterMap (declared? "static")) .static ++
    Scope.ofNames ((items.filterMap Item.definition?).map Definition.name) .function ++
    Scope.ofNames constructors .constructor

/-- The occurrences in all functions of a file. -/
def occurrences (items : List Item) : List Occurrence :=
  (items.filterMap Item.definition?).flatMap (occurrencesOf (fileScope items))

/-! ## Reading words -/

/-- A text that has no part of an identifier at its end. -/
def Closed (text : String) : Prop := ¬∃ last ∈ text.toList.getLast?, isIdentifierPart last

/-- A text that has no part of an identifier at its beginning. -/
def Opened (text : String) : Prop := ¬∃ first ∈ text.toList.head?, isIdentifierPart first

instance (text : String) : Decidable (Closed text) := inferInstanceAs (Decidable (¬_))

instance (text : String) : Decidable (Opened text) := inferInstanceAs (Decidable (¬_))

/-- What stands at the end decides. -/
theorem Closed.behind {second : String} (closed : Closed second) (some : second ≠ "")
    (first : String) : Closed (first ++ second) := by
  have characters : second.toList ≠ [] := fun none => some (String.toList_inj.mp none)
  unfold Closed at closed ⊢
  rwa [String.toList_append, List.getLast?_append_of_ne_nil _ characters]

theorem words_append {first second : String} (apart : Closed first ∨ Opened second) :
    words (first ++ second) = words first ++ words second := by
  have split : ∀ last ∈ first.toList.getLast?, ∀ head ∈ second.toList.head?,
      together last head = false := by
    intro last ends head begins
    rw [together, Bool.and_eq_false_iff, ← Bool.not_eq_true, ← Bool.not_eq_true]
    exact apart.imp (fun closed part => closed ⟨last, ends, part⟩)
      (fun opened part => opened ⟨head, begins, part⟩)
  rw [words, String.toList_append, List.splitBy_append split, List.filter_append, List.map_append]
  rfl

/-- An identifier is one word. -/
theorem words_identifier {name : String} (identifier : isIdentifier name) :
    words name = [name] := by
  obtain ⟨first, rest, split, start, _⟩ := (EmitterConfig.isIdentifier_iff name).mp identifier
  have parts : ∀ char ∈ name.toList, isIdentifierPart char := fun _ member =>
    EmitterConfig.isIdentifierPart_of_mem identifier member
  have some : name.toList ≠ [] := by
    rw [split]
    exact List.cons_ne_nil _ _
  have chain : name.toList.IsChain fun first second => together first second := by
    refine (List.pairwise_of_forall_mem_list fun first front second back => ?_).isChain
    rw [together, parts first front, parts second back]
    rfl
  have visible : (!name.toList.all Text.isBlankChar) = true := by
    rw [split, List.all_cons, isBlankChar_eq_false_of_start start]
    rfl
  rw [words, List.splitBy_of_isChain some chain, List.filter_singleton, visible, cond_true,
    List.map_singleton, String.ofList_toList]

/-- An identifier is a word of its own between texts that end and begin otherwise. -/
theorem words_around {name : String} (identifier : isIdentifier name) {before after : String}
    (closed : Closed before) (opened : Opened after) :
    words (before ++ name ++ after) = words before ++ name :: words after := by
  rw [words_append (.inr opened), words_append (.inl closed), words_identifier identifier,
    List.append_assoc, List.singleton_append]

theorem words_behind {name : String} (identifier : isIdentifier name) {before : String}
    (closed : Closed before) : words (before ++ name) = words before ++ [name] := by
  rw [words_append (.inl closed), words_identifier identifier]

theorem valuesAfter_name {previous word : String} {rest : List String} (name : IsName word)
    (alone : previous ∉ [".", ":"]) (last : rest.head? ≠ some ":") :
    valuesAfter previous (word :: rest) = word :: valuesAfter word rest := by
  rw [valuesAfter, if_pos ⟨name, alone, last⟩]

/-- Words that begin with a name bind nothing. -/
theorem ofWords_name {word : String} (name : IsName word) (rest : List String) :
    Statement.ofWords (word :: rest) = ⟨[], valuesAfter "" (word :: rest)⟩ := by
  unfold Statement.ofWords
  split
  · next same =>
    obtain ⟨rfl, -⟩ := List.cons.inj same
    exact absurd name (by decide)
  · next same =>
    obtain ⟨rfl, -⟩ := List.cons.inj same
    exact absurd name (by decide)
  · next same =>
    obtain ⟨rfl, -⟩ := List.cons.inj same
    exact absurd name (by decide)
  · next same =>
    obtain ⟨rfl, -⟩ := List.cons.inj same
    exact absurd name (by decide)
  · rfl

/-- Words that begin with a name declare nothing. -/
theorem declared?_name {line word : String} {rest : List String} (name : IsName word)
    (split : words line = word :: rest) : declared? "const" line = none := by
  have other : word ≠ "const" := by
    rintro rfl
    exact absurd name (by decide)
  rw [declared?, split]
  cases rest with
  | nil => rfl
  | cons second rest => exact if_neg other

/-! ## Reading functions -/

section Reading

variable {function line : String} {scope : Scope} {binds values : List String}

/-- What one line adds. -/
theorem occurrencesIn_cons (read : Statement.ofWords (words line) = ⟨binds, values⟩)
    (rest : List String) :
    occurrencesIn function scope (line :: rest) =
      values.map (⟨function, .value, ·, scope⟩) ++ binds.map (⟨function, .binding, ·, scope⟩) ++
        occurrencesIn function (scope.bindAll binds) rest := by
  rw [occurrencesIn, read]

/-- Lines that bind nothing are all read in one scope. -/
theorem occurrencesIn_map {α : Type} {elements : List α} {line : α → String}
    {values : α → List String}
    (read : ∀ element ∈ elements, Statement.ofWords (words (line element)) = ⟨[], values element⟩)
    (rest : List String) :
    occurrencesIn function scope (elements.map line ++ rest) =
      elements.flatMap (fun element => (values element).map (⟨function, .value, ·, scope⟩)) ++
        occurrencesIn function scope rest := by
  induction elements with
  | nil => rfl
  | cons element elements inductionHypothesis =>
      obtain ⟨first, others⟩ := List.forall_mem_cons.mp read
      rw [List.map_cons, List.cons_append, occurrencesIn_cons first, Scope.bindAll, List.foldl_nil,
        inductionHypothesis others, List.map_nil, List.append_nil, List.flatMap_cons,
        List.append_assoc]

/-- Lines without names can be left out. -/
theorem occurrencesIn_silent {lines : List String}
    (silent : ∀ line ∈ lines, Statement.ofWords (words line) = ⟨[], []⟩) (rest : List String) :
    occurrencesIn function scope (lines ++ rest) = occurrencesIn function scope rest := by
  induction lines with
  | nil => rfl
  | cons line lines inductionHypothesis =>
      obtain ⟨first, others⟩ := List.forall_mem_cons.mp silent
      rw [List.cons_append, occurrencesIn_cons first]
      exact inductionHypothesis others

end Reading

/-! ## The scope of a file -/

variable {config : EmitterConfig} {procedures : List Procedure}

/-- What is known in all of a file of procedures. -/
def topScope (config : EmitterConfig) (procedures : List Procedure) : Scope :=
  Scope.ofNames ["METADATA"] .static ++
    Scope.ofNames ("metadata" :: config.driverName :: procedures.map Procedure.name) .function ++
    Scope.ofNames constructors .constructor

/-- The only static of a file is the one that holds the text. -/
theorem statics_preamble (config : EmitterConfig) (procedures : List Procedure) :
    (preamble config procedures).filterMap (declared? "static") = ["METADATA"] := by
  have closed : Closed "//! " := by decide
  have comment : words "//! " = ["/", "/", "!"] := by decide
  have summary : declared? "static" ("//! " ++ Source.summary config procedures) = none := by
    rw [declared?, words_append (.inl closed), comment]
    rfl
  have first : declared? "static" "//! @generated by strata-codegen. Do not edit." = none := by
    decide +kernel
  have second : declared? "static" "//!" = none := by decide
  have third : declared? "static" "use std::sync::OnceLock;" = none := by decide
  have cell : declared? "static" "static METADATA: OnceLock<String> = OnceLock::new();" =
      some "METADATA" := by decide +kernel
  have last : declared? "static" "/// The reassembled serialized metadata." = none := by
    decide +kernel
  have empty : declared? "static" "" = none := by decide
  simp only [preamble, List.filterMap_cons, List.filterMap_nil, summary, first, second, third,
    cell, last, empty]

theorem statics_spaced (definitions : List Definition) :
    ((spaced definitions).filterMap line?).filterMap (declared? "static") = [] := by
  have empty : declared? "static" "" = none := by decide
  rw [List.filterMap_filterMap, List.filterMap_eq_nil_iff]
  intro item member
  obtain ⟨found, _, inside⟩ := List.mem_flatMap.mp member
  rcases List.mem_pair.mp inside with rfl | rfl
  · exact empty
  · rfl

theorem definitions_fileItems (config : EmitterConfig) (procedures : List Procedure) :
    (fileItems config procedures).filterMap Item.definition? =
      accessor config :: driver config procedures :: procedures.map (part config) := by
  simp only [fileItems, List.filterMap_append, definitions_loose, definitions_spaced]
  simp [Item.definition?]

theorem fileScope_fileItems (config : EmitterConfig) (procedures : List Procedure) :
    fileScope (fileItems config procedures) = topScope config procedures := by
  have loose : ((preamble config procedures).map Item.loose).filterMap line? =
      preamble config procedures := by
    rw [List.filterMap_map]
    exact List.filterMap_some
  have empty : declared? "static" "" = none := by decide
  have statics : ((fileItems config procedures).filterMap line?).filterMap (declared? "static") =
      ["METADATA"] := by
    simp only [fileItems, List.filterMap_append, loose, statics_preamble, statics_spaced]
    simp [line?, empty]
  have names : ((fileItems config procedures).filterMap Item.definition?).map Definition.name =
      "metadata" :: config.driverName :: procedures.map Procedure.name := by
    rw [definitions_fileItems, List.map_cons, List.map_cons, List.map_map]
    rfl
  rw [fileScope, statics, names, topScope]

/-! ## The names of a file -/

/-- The words that the check of configurations refuses hold all keywords. -/
theorem keyword_reserved : ∀ word ∈ keywords, word ∈ Target.rust.reservedNames := by decide

theorem isName_of_usable (rust : config.target = .rust) {name : String}
    (identifier : isIdentifier name) (free : name ∉ config.target.reservedNames) : IsName name := by
  rw [rust] at free
  exact ⟨identifier, fun keyword => free (keyword_reserved name keyword)⟩

/-- Procedures that are called as parts of a configuration. -/
def Numbered (config : EmitterConfig) (procedures : List Procedure) : Prop :=
  ∀ procedure ∈ procedures, ∃ index, procedure.name = config.partName index

section Names

variable (rust : config.target = .rust) (usable : config.Usable)

include rust usable

theorem isName_driverName : IsName config.driverName :=
  isName_of_usable rust (usable.isIdentifier .driverName) usable.driverName_free

theorem isName_accumulator : IsName config.accumulator :=
  isName_of_usable rust (usable.isIdentifier .accumulator) usable.accumulator_free

theorem isName_procedure (numbered : Numbered config procedures) {procedure : Procedure}
    (member : procedure ∈ procedures) : IsName procedure.name := by
  obtain ⟨index, named⟩ := numbered procedure member
  rw [named]
  exact isName_of_usable rust (EmitterConfig.isIdentifier_partName usable index)
    (EmitterConfig.partName_not_reserved config config.target index)

end Names

/-! ## The lines of a file -/

section Lines

variable (rust : config.target = .rust) (usable : config.Usable)

include rust usable

theorem words_yieldLine :
    words ("    METADATA.get_or_init(" ++ config.driverName ++ ")") =
      ["METADATA", ".", "get_or_init", "(", config.driverName, ")"] := by
  have name := isName_driverName rust usable
  have before : words "    METADATA.get_or_init(" = ["METADATA", ".", "get_or_init", "("] := by
    decide
  have after : words ")" = [")"] := by decide
  rw [words_around name.1 (by decide) (by decide), before, after]
  rfl

theorem ofWords_yieldLine :
    Statement.ofWords (words ("    METADATA.get_or_init(" ++ config.driverName ++ ")")) =
      ⟨[], ["METADATA", config.driverName]⟩ := by
  have argument : valuesAfter "(" [config.driverName, ")"] = [config.driverName] := by
    rw [valuesAfter_name (isName_driverName rust usable) (by decide) (by decide)]
    rfl
  rw [words_yieldLine rust usable, ← argument]
  rfl

theorem words_letLine :
    words ("    let mut " ++ config.accumulator ++ " = String::new();") =
      "let" :: "mut" :: config.accumulator :: ["=", "String", ":", ":", "new", "(", ")", ";"] := by
  have name := isName_accumulator rust usable
  have before : words "    let mut " = ["let", "mut"] := by decide
  have after : words " = String::new();" = ["=", "String", ":", ":", "new", "(", ")", ";"] := by
    decide
  rw [words_around name.1 (by decide) (by decide), before, after]
  rfl

theorem words_callLine {procedure : Procedure} (called : IsName procedure.name) :
    words (callLine config procedure) =
      [procedure.name, "(", "&", "mut", config.accumulator, ")", ";"] := by
  have name := isName_accumulator rust usable
  have before : words "    " = [] := by decide
  have between : words "(&mut " = ["(", "&", "mut"] := by decide
  have after : words ");" = [")", ";"] := by decide
  have closed : Closed "(&mut " := by decide
  rw [callLine, words_around name.1 (closed.behind (by decide) _) (by decide),
    words_around called.1 (by decide) (by decide), before, between, after]
  rfl

theorem ofWords_callLine {procedure : Procedure} (called : IsName procedure.name) :
    Statement.ofWords (words (callLine config procedure)) =
      ⟨[], [procedure.name, config.accumulator]⟩ := by
  have argument : valuesAfter "mut" [config.accumulator, ")", ";"] = [config.accumulator] := by
    rw [valuesAfter_name (isName_accumulator rust usable) (by decide) (by decide)]
    rfl
  rw [words_callLine rust usable called, ofWords_name called,
    valuesAfter_name called (by decide) (by simp), ← argument]
  rfl

theorem words_lastLine : words ("    " ++ config.accumulator) = [config.accumulator] := by
  have before : words "    " = [] := by decide
  rw [words_behind (isName_accumulator rust usable).1 (by decide), before, List.nil_append]

theorem ofWords_lastLine :
    Statement.ofWords (words ("    " ++ config.accumulator)) = ⟨[], [config.accumulator]⟩ := by
  have name := isName_accumulator rust usable
  rw [words_lastLine rust usable, ofWords_name name, valuesAfter_name name (by decide) (by decide)]
  rfl

theorem words_pushLine :
    words ("        " ++ config.accumulator ++ ".push_str(line);") =
      [config.accumulator, ".", "push_str", "(", "line", ")", ";"] := by
  have name := isName_accumulator rust usable
  have before : words "        " = [] := by decide
  have after : words ".push_str(line);" = [".", "push_str", "(", "line", ")", ";"] := by decide
  rw [words_around name.1 (by decide) (by decide), before, after]
  rfl

theorem ofWords_pushLine :
    Statement.ofWords (words ("        " ++ config.accumulator ++ ".push_str(line);")) =
      ⟨[], [config.accumulator, "line"]⟩ := by
  have name := isName_accumulator rust usable
  rw [words_pushLine rust usable, ofWords_name name, valuesAfter_name name (by decide) (by decide)]
  rfl

/-- A driver has no parameter. -/
theorem parameter?_driver :
    parameter? ("fn " ++ config.driverName ++ "() -> String \x7b") = none := by
  have name := isName_driverName rust usable
  have before : words "fn " = ["fn"] := by decide
  have after : words "() -> String \x7b" = ["(", ")", "-", ">", "String", "\x7b"] := by decide
  have other : config.driverName ≠ "(" := by
    intro same
    exact absurd name (same ▸ by decide)
  rw [parameter?, words_around name.1 (by decide) (by decide), before, after]
  simp [other]

/-- The parameter of a part is the accumulator. -/
theorem parameter?_part {procedure : Procedure} (called : IsName procedure.name) :
    parameter? ("fn " ++ procedure.name ++ "(" ++ config.accumulator ++ ": &mut String) \x7b") =
      some config.accumulator := by
  have name := isName_accumulator rust usable
  have before : words "fn " = ["fn"] := by decide
  have between : words "(" = ["("] := by decide
  have after : words ": &mut String) \x7b" = [":", "&", "mut", "String", ")", "\x7b"] := by decide
  have closed : Closed "(" := by decide
  have other : procedure.name ≠ "(" := by
    intro same
    exact absurd called (same ▸ by decide)
  rw [parameter?, words_around name.1 (closed.behind (by decide) _) (by decide),
    words_around called.1 (by decide) (by decide), before, between, after]
  simp [other]

end Lines

/-- A quoted line begins with its quote. -/
theorem words_quotedLine (literal : String) :
    ∃ rest, words (quotedLine quoteOpening literal) = "\"" :: rest := by
  have before : words quoteOpening = ["\""] := by decide
  refine ⟨words (literal ++ "\","), ?_⟩
  rw [quotedLine, String.append_assoc, words_append (.inl (by decide)), before]
  rfl

/-- The array of a part neither binds a name nor uses one. -/
theorem ofWords_arrayLines (literals : List String) :
    ∀ line ∈ arrayLines literals, Statement.ofWords (words line) = ⟨[], []⟩ := by
  have whole : words "    const LINES: &[&str] = &[];" =
      ["const", "LINES", ":", "&", "[", "&", "str", "]", "=", "&", "[", "]", ";"] := by decide
  have first : words "    const LINES: &[&str] = &[" =
      ["const", "LINES", ":", "&", "[", "&", "str", "]", "=", "&", "["] := by decide
  have last : words "    ];" = ["]", ";"] := by decide
  unfold arrayLines
  split_ifs
  · rw [List.forall_mem_singleton, whole]
    rfl
  · rw [List.forall_mem_cons, List.forall_mem_append, List.forall_mem_map, List.forall_mem_singleton,
      first, last]
    refine ⟨rfl, fun literal _ => ?_, rfl⟩
    obtain ⟨rest, quoted⟩ := words_quotedLine literal
    rw [quoted]
    rfl

/-- The array of a part is its only constant. -/
theorem constants_arrayLines (literals : List String) :
    (arrayLines literals).filterMap (declared? "const") = ["LINES"] := by
  have whole : declared? "const" "    const LINES: &[&str] = &[];" = some "LINES" := by
    decide
  have first : declared? "const" "    const LINES: &[&str] = &[" = some "LINES" := by decide
  have last : declared? "const" "    ];" = none := by decide
  have quoted : ∀ line ∈ literals.map (quotedLine quoteOpening), declared? "const" line = none := by
    rw [List.forall_mem_map]
    intro literal _
    obtain ⟨rest, quoted⟩ := words_quotedLine literal
    rw [declared?, quoted]
    cases rest <;> rfl
  unfold arrayLines
  split_ifs
  · rw [List.filterMap_cons_some whole, List.filterMap_nil]
  · rw [List.filterMap_cons_some first, List.filterMap_append, List.filterMap_eq_nil_iff.mpr quoted,
      List.filterMap_cons_none last, List.filterMap_nil, List.append_nil]

/-! ## The occurrences of a file -/

/-- What is known in the body of a part, in front of its loop. -/
def bodyScope (config : EmitterConfig) (outer : Scope) : Scope :=
  ("LINES", .constant) :: outer.bind config.accumulator

/-- The occurrences in the function that gives the text out. -/
def accessorOccurrences (config : EmitterConfig) (outer : Scope) : List Occurrence :=
  [⟨"metadata", .value, "METADATA", outer⟩, ⟨"metadata", .value, config.driverName, outer⟩]

/-- The occurrences in a driver: it binds the accumulator, hands it to every part, and gives it
out. -/
def driverOccurrences (config : EmitterConfig) (procedures : List Procedure) (outer : Scope) :
    List Occurrence :=
  let inner := outer.bind config.accumulator
  ⟨config.driverName, .binding, config.accumulator, outer⟩ ::
    (procedures.flatMap (fun procedure =>
      [⟨config.driverName, .value, procedure.name, inner⟩,
        ⟨config.driverName, .value, config.accumulator, inner⟩]) ++
      [⟨config.driverName, .value, config.accumulator, inner⟩])

/-- The occurrences in a part: it binds the accumulator and, in the loop over its lines, each
line. -/
def partOccurrences (config : EmitterConfig) (outer : Scope) (procedure : Procedure) :
    List Occurrence :=
  let body := bodyScope config outer
  let loop := body.bind "line"
  [⟨procedure.name, .binding, config.accumulator, outer⟩,
    ⟨procedure.name, .value, "LINES", body⟩, ⟨procedure.name, .binding, "line", body⟩,
    ⟨procedure.name, .value, config.accumulator, loop⟩, ⟨procedure.name, .value, "line", loop⟩]

section Occurrences

variable (rust : config.target = .rust) (usable : config.Usable)

include rust usable

theorem occurrencesOf_accessor (outer : Scope) :
    occurrencesOf outer (accessor config) = accessorOccurrences config outer := by
  have heading : parameter? "pub fn metadata() -> &'static str \x7b" = none := by decide +kernel
  have constant := declared?_name (by decide) (words_yieldLine rust usable)
  unfold occurrencesOf
  simp only [accessor, heading, List.filterMap_cons_none constant,
    occurrencesIn_cons (ofWords_yieldLine rust usable)]
  rfl

theorem occurrencesOf_driver (numbered : Numbered config procedures) (outer : Scope) :
    occurrencesOf outer (driver config procedures) = driverOccurrences config procedures outer := by
  have called {procedure : Procedure} (member : procedure ∈ procedures) : IsName procedure.name :=
    isName_procedure rust usable numbered member
  have opening : Statement.ofWords
      (words ("    let mut " ++ config.accumulator ++ " = String::new();")) =
      ⟨[config.accumulator], []⟩ := by
    rw [words_letLine rust usable]
    rfl
  have constants : (driver config procedures).body.filterMap (declared? "const") = [] := by
    have start : declared? "const" ("    let mut " ++ config.accumulator ++ " = String::new();") =
        none := by
      rw [declared?, words_letLine rust usable]
      rfl
    have middle : ∀ line ∈ procedures.map (callLine config), declared? "const" line = none := by
      rw [List.forall_mem_map]
      exact fun procedure member =>
        declared?_name (called member) (words_callLine rust usable (called member))
    have last := declared?_name (isName_accumulator rust usable) (words_lastLine rust usable)
    rw [driver, List.filterMap_cons_none start, List.filterMap_append,
      List.filterMap_eq_nil_iff.mpr middle, List.filterMap_cons_none last]
    rfl
  unfold occurrencesOf
  rw [constants]
  simp only [driver, parameter?_driver rust usable, occurrencesIn_cons opening,
    occurrencesIn_map fun procedure member => ofWords_callLine rust usable (called member),
    occurrencesIn_cons (ofWords_lastLine rust usable)]
  rfl

theorem occurrencesOf_part (numbered : Numbered config procedures) {procedure : Procedure}
    (member : procedure ∈ procedures) (outer : Scope) :
    occurrencesOf outer (part config procedure) = partOccurrences config outer procedure := by
  have heading := parameter?_part rust usable (isName_procedure rust usable numbered member)
  have loop : words "    for line in LINES \x7b" = ["for", "line", "in", "LINES", "\x7b"] := by
    decide
  have bound : Statement.ofWords (words "    for line in LINES \x7b") = ⟨["line"], ["LINES"]⟩ := by
    rw [loop]
    rfl
  have brace : words "    \x7d" = ["\x7d"] := by decide
  have closing : Statement.ofWords (words "    \x7d") = ⟨[], []⟩ := by
    rw [brace]
    rfl
  have constants : (part config procedure).body.filterMap (declared? "const") = ["LINES"] := by
    have first : declared? "const" "    for line in LINES \x7b" = none := by decide
    have second := declared?_name (isName_accumulator rust usable) (words_pushLine rust usable)
    have third : declared? "const" "    \x7d" = none := by decide
    rw [part, List.filterMap_append, constants_arrayLines, List.filterMap_cons_none first,
      List.filterMap_cons_none second, List.filterMap_cons_none third]
    rfl
  unfold occurrencesOf
  rw [constants]
  simp only [part, heading, occurrencesIn_silent (ofWords_arrayLines _), occurrencesIn_cons bound,
    occurrencesIn_cons (ofWords_pushLine rust usable), occurrencesIn_cons closing]
  rfl

end Occurrences

/-- The occurrences in all functions of a file. -/
def fileOccurrences (config : EmitterConfig) (procedures : List Procedure) : List Occurrence :=
  let outer := topScope config procedures
  accessorOccurrences config outer ++ driverOccurrences config procedures outer ++
    procedures.flatMap (partOccurrences config outer)

theorem occurrences_fileItems (rust : config.target = .rust) (usable : config.Usable)
    (numbered : Numbered config procedures) :
    occurrences (fileItems config procedures) = fileOccurrences config procedures := by
  have parts : (procedures.map (part config)).flatMap (occurrencesOf (topScope config procedures)) =
      procedures.flatMap (partOccurrences config (topScope config procedures)) := by
    rw [List.flatMap_map]
    exact List.flatMap_congr fun procedure member =>
      occurrencesOf_part rust usable numbered member _
  rw [occurrences, fileScope_fileItems, definitions_fileItems, List.flatMap_cons,
    List.flatMap_cons, parts, occurrencesOf_accessor rust usable,
    occurrencesOf_driver rust usable numbered, fileOccurrences, List.append_assoc]

/-! ## What the names stand for -/

theorem meaning?_topScope (name : String) :
    (topScope config procedures).meaning? name =
      if name = "METADATA" then some .static
      else if name ∈ "metadata" :: config.driverName :: procedures.map Procedure.name then
        some .function
      else if name ∈ constructors then some .constructor
      else none := by
  rw [topScope, Scope.meaning?_append, Scope.meaning?_append, Scope.meaning?_ofNames,
    Scope.meaning?_ofNames, Scope.meaning?_ofNames]
  simp only [List.mem_singleton]
  split_ifs <;> rfl

section Meanings

variable (rust : config.target = .rust) (usable : config.Usable)

include rust usable

theorem accumulator_ne_reserved {word : String} (reserved : word ∈ Target.rust.reservedNames) :
    config.accumulator ≠ word := by
  rintro rfl
  exact usable.accumulator_free (rust ▸ reserved)

theorem driverName_ne_reserved {word : String} (reserved : word ∈ Target.rust.reservedNames) :
    config.driverName ≠ word := by
  rintro rfl
  exact usable.driverName_free (rust ▸ reserved)

variable (numbered : Numbered config procedures)

include numbered

omit rust usable in
theorem procedure_ne_reserved {procedure : Procedure} (member : procedure ∈ procedures)
    {word : String} (reserved : word ∈ Target.rust.reservedNames) : procedure.name ≠ word := by
  obtain ⟨index, named⟩ := numbered procedure member
  rintro rfl
  exact EmitterConfig.partName_not_reserved config .rust index (named ▸ reserved)

omit rust in
theorem procedure_ne_accumulator {procedure : Procedure} (member : procedure ∈ procedures) :
    procedure.name ≠ config.accumulator := by
  obtain ⟨index, named⟩ := numbered procedure member
  rw [named]
  exact EmitterConfig.partName_ne_of_apart usable.accumulator_apart index

/-- Outside of all functions the accumulator stands for nothing, or for a constructor. -/
theorem meaning?_accumulator :
    (topScope config procedures).meaning? config.accumulator =
      if config.accumulator ∈ constructors then some .constructor else none := by
  have cell : config.accumulator ≠ "METADATA" := accumulator_ne_reserved rust usable (by decide)
  have accessor : config.accumulator ≠ "metadata" := accumulator_ne_reserved rust usable (by decide)
  have functions :
      config.accumulator ∉ "metadata" :: config.driverName :: procedures.map Procedure.name := by
    simp only [List.mem_cons, List.mem_map, not_or, not_exists, not_and]
    exact ⟨accessor, usable.accumulator_ne,
      fun procedure member => procedure_ne_accumulator usable numbered member⟩
  rw [meaning?_topScope, if_neg cell, if_neg functions]

/-- The accumulator is bound where functions begin unless it is a constructor. -/
theorem introduces_accumulator_iff :
    (topScope config procedures).Introduces config.accumulator ↔
      config.accumulator ∉ constructors := by
  have name := isName_accumulator rust usable
  unfold Scope.Introduces
  rw [meaning?_accumulator rust usable numbered]
  split_ifs with constructor
  · exact iff_of_false (fun bound => absurd (bound.2 _ rfl) (by decide)) (not_not_intro constructor)
  · exact iff_of_true ⟨name, fun meaning none => nomatch none⟩ constructor

/-- Behind its binding the accumulator stands for a variable unless it is a constructor. -/
theorem meaning?_bind_accumulator :
    ((topScope config procedures).bind config.accumulator).meaning? config.accumulator =
      if config.accumulator ∈ constructors then some .constructor else some .variable := by
  rw [Scope.meaning?_bind_self, meaning?_accumulator rust usable numbered]
  simp only [introduces_accumulator_iff rust usable numbered]
  split_ifs <;> rfl

/-- A line of a part is a name that nothing else has. -/
theorem meaning?_line :
    (bodyScope config (topScope config procedures)).meaning? "line" = none := by
  have driver : config.driverName ≠ "line" := driverName_ne_reserved rust usable (by decide)
  have functions : "line" ∉ "metadata" :: config.driverName :: procedures.map Procedure.name := by
    simp only [List.mem_cons, List.mem_map, not_or, not_exists, not_and]
    exact ⟨by decide, driver.symm,
      fun procedure member => procedure_ne_reserved numbered member (by decide)⟩
  have accumulator : config.accumulator ≠ "line" := accumulator_ne_reserved rust usable (by decide)
  rw [bodyScope, Scope.meaning?_cons, if_neg (by decide), Scope.meaning?_bind_of_ne _ accumulator.symm,
    meaning?_topScope, if_neg (by decide), if_neg functions, if_neg (by decide)]

theorem introduces_line : (bodyScope config (topScope config procedures)).Introduces "line" := by
  refine ⟨by decide, ?_⟩
  rw [meaning?_line rust usable numbered]
  exact fun meaning none => nomatch none

omit rust usable numbered in
/-- The names in a part's loop stand for what they did in front of it, the line itself aside. -/
theorem meaning?_loop {name : String} (line : name ≠ "line") (array : name ≠ "LINES") :
    ((bodyScope config (topScope config procedures)).bind "line").meaning? name =
      ((topScope config procedures).bind config.accumulator).meaning? name := by
  rw [Scope.meaning?_bind_of_ne _ line, bodyScope, Scope.meaning?_cons, if_neg array]

end Meanings

/-- What the names of a file are meant to stand for. -/
def intended (config : EmitterConfig) (name : String) : Meaning :=
  if name = config.accumulator ∨ name = "line" then .variable
  else if name = "LINES" then .constant
  else if name = "METADATA" then .static
  else .function

/-- A pattern introduces a variable, and a value is what it is meant to be. -/
def Occurrence.AsIntended (config : EmitterConfig) (place : Occurrence) : Prop :=
  match place.role with
  | .binding => place.scope.Introduces place.name
  | .value => place.scope.meaning? place.name = some (intended config place.name)

section Intended

variable (rust : config.target = .rust) (usable : config.Usable)
  (numbered : Numbered config procedures)

include rust usable

theorem intended_fixed {word : String} (reserved : word ∈ Target.rust.reservedNames)
    (line : word ≠ "line") :
    intended config word =
      if word = "LINES" then .constant else if word = "METADATA" then .static else .function := by
  have accumulator := accumulator_ne_reserved rust usable reserved
  rw [intended, if_neg (by simp [accumulator.symm, line])]

theorem intended_driverName : intended config config.driverName = .function := by
  have line : config.driverName ≠ "line" := driverName_ne_reserved rust usable (by decide)
  have array : config.driverName ≠ "LINES" := driverName_ne_reserved rust usable (by decide)
  have cell : config.driverName ≠ "METADATA" := driverName_ne_reserved rust usable (by decide)
  rw [intended, if_neg (by simp [usable.accumulator_ne.symm, line]), if_neg array, if_neg cell]

omit rust in
include numbered in
theorem intended_procedure {procedure : Procedure} (member : procedure ∈ procedures) :
    intended config procedure.name = .function := by
  have line : procedure.name ≠ "line" := procedure_ne_reserved numbered member (by decide)
  have array : procedure.name ≠ "LINES" := procedure_ne_reserved numbered member (by decide)
  have cell : procedure.name ≠ "METADATA" := procedure_ne_reserved numbered member (by decide)
  have apart := procedure_ne_accumulator usable numbered member
  rw [intended, if_neg (by simp [apart, line]), if_neg array, if_neg cell]

end Intended

/-- What holds of all occurrences, occurrence by occurrence. -/
theorem forall_fileOccurrences_iff {property : Occurrence → Prop} :
    (∀ place ∈ fileOccurrences config procedures, property place) ↔
      let outer := topScope config procedures
      let inner := outer.bind config.accumulator
      let body := bodyScope config outer
      let loop := body.bind "line"
      (property ⟨"metadata", .value, "METADATA", outer⟩ ∧
        property ⟨"metadata", .value, config.driverName, outer⟩) ∧
      (property ⟨config.driverName, .binding, config.accumulator, outer⟩ ∧
        (∀ procedure ∈ procedures,
          property ⟨config.driverName, .value, procedure.name, inner⟩ ∧
          property ⟨config.driverName, .value, config.accumulator, inner⟩) ∧
        property ⟨config.driverName, .value, config.accumulator, inner⟩) ∧
      ∀ procedure ∈ procedures,
        property ⟨procedure.name, .binding, config.accumulator, outer⟩ ∧
        property ⟨procedure.name, .value, "LINES", body⟩ ∧
        property ⟨procedure.name, .binding, "line", body⟩ ∧
        property ⟨procedure.name, .value, config.accumulator, loop⟩ ∧
        property ⟨procedure.name, .value, "line", loop⟩ := by
  unfold fileOccurrences accessorOccurrences driverOccurrences partOccurrences
  simp only [List.forall_mem_append, List.forall_mem_cons, List.forall_mem_flatMap,
    List.not_mem_nil, IsEmpty.forall_iff, implies_true, and_true, and_assoc]

/-- A pattern is the accumulator outside of all functions, or the line of a loop. -/
theorem bindings_fileOccurrences :
    ∀ place ∈ fileOccurrences config procedures, place.role = .binding →
      place.name = config.accumulator ∧ place.scope = topScope config procedures ∨
        place.name = "line" ∧ place.scope = bodyScope config (topScope config procedures) := by
  refine forall_fileOccurrences_iff.mpr ⟨⟨nofun, nofun⟩, ⟨?_, fun _ _ => ⟨nofun, nofun⟩, nofun⟩,
    fun _ _ => ⟨?_, nofun, ?_, nofun, nofun⟩⟩
  · exact fun _ => .inl ⟨rfl, rfl⟩
  · exact fun _ => .inl ⟨rfl, rfl⟩
  · exact fun _ => .inr ⟨rfl, rfl⟩

/-- The patterns of a file, function by function. -/
theorem places_fileOccurrences (config : EmitterConfig) (procedures : List Procedure) :
    ((fileOccurrences config procedures).filter (·.role = .binding)).map
        (fun place => (place.function, place.name)) =
      (config.driverName, config.accumulator) ::
        procedures.flatMap fun procedure =>
          [(procedure.name, config.accumulator), (procedure.name, "line")] := by
  simp [fileOccurrences, accessorOccurrences, driverOccurrences, partOccurrences,
    List.filter_flatMap, List.map_flatMap]

section Result

variable (rust : config.target = .rust) (usable : config.Usable)
  (numbered : Numbered config procedures)

include rust usable numbered

/-- Without a constructor as the accumulator, all names are what they are meant to be. -/
theorem asIntended_fileOccurrences (plain : config.accumulator ∉ constructors) :
    ∀ place ∈ fileOccurrences config procedures, place.AsIntended config := by
  have array := accumulator_ne_reserved rust usable (by decide : "LINES" ∈ Target.rust.reservedNames)
  have line := accumulator_ne_reserved rust usable (by decide : "line" ∈ Target.rust.reservedNames)
  have bound := (introduces_accumulator_iff rust usable numbered).mpr plain
  have accumulator : ((topScope config procedures).bind config.accumulator).meaning?
      config.accumulator = some (intended config config.accumulator) := by
    rw [meaning?_bind_accumulator rust usable numbered, if_neg plain, intended, if_pos (.inl rfl)]
  refine forall_fileOccurrences_iff.mpr ⟨⟨?cell, ?driver⟩,
    ⟨bound, fun procedure member => ⟨?call, accumulator⟩, accumulator⟩,
    fun procedure member => ⟨bound, ?array, introduces_line rust usable numbered, ?sum, ?line⟩⟩
  case cell =>
    have cell : intended config "METADATA" = .static :=
      intended_fixed rust usable (by decide) (by decide)
    show (topScope config procedures).meaning? "METADATA" = _
    rw [cell, meaning?_topScope, if_pos rfl]
  case driver =>
    have cell := driverName_ne_reserved rust usable
      (by decide : "METADATA" ∈ Target.rust.reservedNames)
    show (topScope config procedures).meaning? config.driverName = _
    rw [intended_driverName rust usable, meaning?_topScope, if_neg cell, if_pos (by simp)]
  case call =>
    have cell := procedure_ne_reserved numbered member
      (by decide : "METADATA" ∈ Target.rust.reservedNames)
    have known : procedure.name ∈
        "metadata" :: config.driverName :: procedures.map Procedure.name :=
      List.mem_cons_of_mem _ (List.mem_cons_of_mem _ (List.mem_map_of_mem member))
    show ((topScope config procedures).bind config.accumulator).meaning? procedure.name = _
    rw [intended_procedure usable numbered member,
      Scope.meaning?_bind_of_ne _ (procedure_ne_accumulator usable numbered member),
      meaning?_topScope, if_neg cell, if_pos known]
  case array =>
    have constant : intended config "LINES" = .constant :=
      intended_fixed rust usable (by decide) (by decide)
    show (bodyScope config (topScope config procedures)).meaning? "LINES" = _
    rw [constant, bodyScope, Scope.meaning?_cons, if_pos rfl]
  case sum => exact (meaning?_loop line array).trans accumulator
  case line =>
    have bound : intended config "line" = .variable := if_pos (.inr rfl)
    show ((bodyScope config (topScope config procedures)).bind "line").meaning? "line" = _
    rw [bound, Scope.meaning?_bind_self, if_pos (introduces_line rust usable numbered)]

end Result

/-- The procedures of a unit are called as parts. -/
theorem numbered_procedures (config : EmitterConfig) (text : String) :
    Numbered config (Emitter.unitOf config text).procedures := by
  intro procedure member
  exact Layout.exists_index (Emitter.map_name_procedures config text) member

theorem occurrences_unitOf (rust : config.target = .rust) (usable : config.Usable) (text : String) :
    occurrences (items config.target (Emitter.unitOf config text).source) =
      fileOccurrences config (Emitter.unitOf config text).procedures := by
  have source : (Emitter.unitOf config text).source =
      Source.Rust.file config (Emitter.unitOf config text).procedures := by
    show Source.file config _ = _
    rw [Source.file, rust]
    rfl
  rw [source, rust, items_file usable (Emitter.emitted_procedures usable text),
    occurrences_fileItems rust usable (numbered_procedures config text)]

/-- In a unit of the first target the driver and every part bind the accumulator, and each loop the
name of its line, and nothing else is bound. What is bound is an identifier, no keyword, and neither
a constant nor a static where it is bound, so that it is a new variable unless it is one of the
constructors that every file knows. Without a constructor as the accumulator every name of the file
is what it is meant to be, and with one it is not. -/
theorem accumulator_introduced_iff (config : EmitterConfig) (rust : config.target = .rust)
    (valid : config.Valid) (text : String) (unit : GeneratedUnit)
    (emitted : config.emit text = .ok unit) :
    let found := occurrences (items config.target unit.source)
    (found.filter (·.role = .binding)).map (fun place => (place.function, place.name)) =
        (config.driverName, config.accumulator) ::
          unit.procedures.flatMap (fun procedure =>
            [(procedure.name, config.accumulator), (procedure.name, "line")]) ∧
      (∀ place ∈ found, place.role = .binding →
        IsName place.name ∧
        place.scope.meaning? place.name ≠ some .constant ∧
        place.scope.meaning? place.name ≠ some .static ∧
        (place.scope.Introduces place.name ↔ place.name ∉ constructors)) ∧
      ((∀ place ∈ found, place.AsIntended config) ↔ config.accumulator ∉ constructors) := by
  have usable := (EmitterConfig.valid_iff config).mp valid
  rw [EmitterConfig.emit_eq_ok_iff] at emitted
  obtain ⟨_, _, rfl⟩ := emitted
  have numbered := numbered_procedures config text
  have accumulator := introduces_accumulator_iff rust usable numbered
  dsimp only
  rw [occurrences_unitOf rust usable]
  refine ⟨places_fileOccurrences config _, fun place member bound => ?_, ?_⟩
  · rcases bindings_fileOccurrences place member bound with ⟨name, scope⟩ | ⟨name, scope⟩
    · rw [name, scope, meaning?_accumulator rust usable numbered]
      refine ⟨isName_accumulator rust usable, ?_, ?_, accumulator⟩ <;> split_ifs <;> simp
    · have line := introduces_line rust usable numbered
      rw [name, scope, meaning?_line rust usable numbered]
      exact ⟨by decide, by simp, by simp, iff_of_true line (by decide)⟩
  · constructor
    · intro all
      exact accumulator.mp (forall_fileOccurrences_iff.mp all).2.1.1
    · exact asIntended_fileOccurrences rust usable numbered

/-- A driver that is called like a constructor, and an accumulator that resembles the constant. -/
def lookalike : EmitterConfig :=
  { EmitterConfig.ofTarget .rust with
    maxLines := 1, partPrefix? := some "Some", driverName? := some "None",
    accumulator? := some "Lines" }

theorem lookalike_introduced :
    lookalike.target = .rust ∧ lookalike.Valid ∧
      ∃ unit, lookalike.emit "let mut\nNone\n" = .ok unit ∧
        ∀ place ∈ occurrences (items lookalike.target unit.source), place.AsIntended lookalike := by
  have valid : lookalike.Valid := by decide
  have emitted : lookalike.emit "let mut\nNone\n" =
      .ok (Emitter.unitOf lookalike "let mut\nNone\n") := by
    rw [EmitterConfig.emit_eq_ok_iff]
    exact ⟨valid, by decide, rfl⟩
  obtain ⟨_, _, all⟩ := accumulator_introduced_iff lookalike rfl valid _ _ emitted
  exact ⟨rfl, valid, _, emitted, all.mpr (by decide)⟩

/-- An accumulator that is called like a constructor. -/
def absent : EmitterConfig := { EmitterConfig.ofTarget .rust with accumulator? := some "None" }

/-- Not every accumulator that passes the check is a new variable: all constructors pass it. -/
theorem constructor_not_introduced :
    ¬(∀ (config : EmitterConfig) (text : String) (unit : GeneratedUnit), config.target = .rust →
      config.Valid → config.emit text = .ok unit →
      ∀ place ∈ occurrences (items config.target unit.source), place.role = .binding →
        place.scope.Introduces place.name) ∧
    ∀ word ∈ constructors,
      EmitterConfig.Valid { EmitterConfig.ofTarget .rust with accumulator? := some word } := by
  refine ⟨fun all => ?_, by decide⟩
  have valid : absent.Valid := by decide
  have usable := (EmitterConfig.valid_iff absent).mp valid
  have emitted : absent.emit "a" = .ok (Emitter.unitOf absent "a") := by
    rw [EmitterConfig.emit_eq_ok_iff]
    exact ⟨valid, by decide, rfl⟩
  have introduced := all absent "a" _ rfl valid emitted
  rw [occurrences_unitOf rfl usable] at introduced
  have driver := (forall_fileOccurrences_iff.mp introduced).2.1.1 rfl
  have iff := introduces_accumulator_iff rfl usable (numbered_procedures absent "a")
  exact iff.mp driver (by decide)

end Flowpress.Listing.Rust
