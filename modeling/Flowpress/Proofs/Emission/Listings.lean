import Mathlib.Data.List.Basic
import Flowpress.Emission.Source
import Flowpress.Proofs.Emission.Literals
import Flowpress.Proofs.Emission.Names
import Flowpress.Text.Blank

/-!
# Generated files, read line by line

What a generated file says can be found without knowing how it was put together.
It is cut at its line feeds; a line that begins with the target's word for a
function opens a definition, which lasts to the first line that is a closing
brace. In a definition two kinds of lines count: calls, and quoted lines, which
should each hold one complete string and a comma.
-/

namespace Flowpress.Listing

open EmitterConfig (isIdentifier isIdentifierStart isIdentifierPart isIdentifier_iff
  isIdentifierPart_of_mem)

/-- The lines of a file: what stands before, between and behind its line feeds. -/
def lines (file : String) : List String := (file.toList.splitOn '\n').map String.ofList

/-! ## Single lines -/

/-- A line without its indent. -/
def unindented (line : String) : List Char := line.toList.dropWhile Text.isBlankChar

/-- Whether a line starts with a quote after its indent. -/
def IsQuoted (line : String) : Prop := (unindented line).head? = some '"'

instance (line : String) : Decidable (IsQuoted line) :=
  inferInstanceAs (Decidable ((unindented line).head? = some '"'))

/-- What stands before the first quote that no backslash escapes, and what stands behind it. -/
def readQuoted : List Char → Option (List Char × List Char)
  | [] => none
  | '"' :: rest => some ([], rest)
  | '\\' :: char :: rest => (readQuoted rest).map fun (body, after) => ('\\' :: char :: body, after)
  | char :: rest => (readQuoted rest).map fun (body, after) => (char :: body, after)

/-- The body of a quoted line, if the line is one complete string and a comma. -/
def body? (line : String) : Option String :=
  match unindented line with
  | '"' :: quoted =>
    match readQuoted quoted with
    | some (body, [',']) => some (String.ofList body)
    | _ => none
  | _ => none

example : body? "    \"a \\\" b\\\\\"," = some "a \\\" b\\\\" := by decide
example : body? "    \"a \" b\"," = none := by decide

/-- The name of the function that a line calls, if the line is a call. -/
def callee? (line : String) : Option String :=
  let words := unindented line
  let behind := words.dropWhile isIdentifierPart
  if behind.head? = some '(' ∧ [')', ';'] <:+ behind then
    some (String.ofList (words.takeWhile isIdentifierPart))
  else none

example : callee? "    part7(&mut sb);" = some "part7" := by decide
example : callee? "    let mut sb = String::new();" = none := by decide

/-- The word that makes a definition visible outside of its file. -/
def visibility : Target → String
  | .rust => "pub "
  | .typeScript => "export "

/-- The word that begins the definition of a function. -/
def keyword : Target → String
  | .rust => "fn "
  | .typeScript => "function "

/-- The name of the function whose definition a line opens, if it opens one. -/
def definedName? (target : Target) (line : String) : Option String :=
  let visible := (line.toList.dropPrefix? (visibility target).toList).getD line.toList
  (visible.dropPrefix? (keyword target).toList).bind fun named =>
    if (named.dropWhile isIdentifierPart).head? = some '(' then
      some (String.ofList (named.takeWhile isIdentifierPart))
    else none

/-! ## Definitions -/

/-- The definition of a function. -/
structure Definition where
  name : String
  /-- The line that opens the definition. -/
  heading : String
  /-- The lines behind the heading, without the closing brace. -/
  body : List String

/-- What a file consists of: definitions, and lines outside of all definitions. -/
inductive Item where
  | definition (found : Definition)
  | loose (line : String)

/-- Whether a heading closes the definition that it opens. -/
def ClosesItself (heading : String) : Prop := ['\x7b', '\x7d'] <:+ heading.toList

instance (heading : String) : Decidable (ClosesItself heading) :=
  inferInstanceAs (Decidable (_ <:+ _))

/-- What lines consist of if they follow an open definition, or no open definition. -/
def itemsAfter (target : Target) : Option Definition → List String → List Item
  | none, [] => []
  | some opened, [] => [.definition opened]
  | none, line :: rest =>
    match definedName? target line with
    | none => .loose line :: itemsAfter target none rest
    | some name =>
      if ClosesItself line then .definition ⟨name, line, []⟩ :: itemsAfter target none rest
      else itemsAfter target (some ⟨name, line, []⟩) rest
  | some opened, line :: rest =>
    if line = "\x7d" then .definition opened :: itemsAfter target none rest
    else itemsAfter target (some { opened with body := opened.body ++ [line] }) rest

/-- What a file consists of. -/
def items (target : Target) (file : String) : List Item := itemsAfter target none (lines file)

def Item.definition? : Item → Option Definition
  | .definition found => some found
  | .loose _ => none

/-- The bodies of all definitions of a function. -/
def bodiesOf (target : Target) (file name : String) : List (List String) :=
  (((items target file).filterMap Item.definition?).filter (·.name = name)).map Definition.body

/-- The functions that a function calls, call by call. -/
def callees (target : Target) (file name : String) : List String :=
  (bodiesOf target file name).flatMap (List.filterMap callee?)

/-- The lines of an item, closing braces aside, unless it defines one of the functions. -/
def Item.linesOutside (names : List String) : Item → List String
  | .definition found => if found.name ∈ names then [] else found.heading :: found.body
  | .loose line => [line]

/-- The text that a function appends by its calls: the bodies of the quoted lines of the called
functions, unescaped, in the order of the calls. -/
def spoken (target : Target) (file name : String) : Except EmitError String := do
  let bodies := (callees target file name).flatMap fun callee =>
    (bodiesOf target file callee).flatMap (List.filterMap body?)
  let pieces ← bodies.mapM Literal.unescape
  .ok (String.join pieces)

/-! ## Cutting files into lines -/

/-- A text without line feeds. -/
def OneLine (text : String) : Prop := '\n' ∉ text.toList

instance (text : String) : Decidable (OneLine text) := inferInstanceAs (Decidable (_ ∉ _))

theorem lines_of_oneLine {text : String} (one : OneLine text) : lines text = [text] := by
  rw [lines, List.splitOn_eq_singleton one, List.map_singleton, String.ofList_toList]

/-- A line feed ends a line. -/
theorem lines_append_newline (first second : String) :
    lines (first ++ ("\n" ++ second)) = lines first ++ lines second := by
  have characters : (first ++ ("\n" ++ second)).toList = first.toList ++ '\n' :: second.toList := by
    simp
  rw [lines, characters, List.splitOn_append_cons_self, List.map_append]
  rfl

/-- Lines and the lines of what comes behind them: the last line goes on with the first line of
that. -/
def glue {α : Type} [Append α] : List α → List α → List α
  | [], second => second
  | [line], [] => [line]
  | [line], next :: second => (line ++ next) :: second
  | line :: next :: first, second => line :: glue (next :: first) second

theorem glue_cons {α : Type} [Append α] (line : α) {first : List α} (more : first ≠ [])
    (second : List α) : glue (line :: first) second = line :: glue first second := by
  obtain ⟨next, first, rfl⟩ := List.exists_cons_of_ne_nil more
  rw [glue]

theorem glue_append {α : Type} [Append α] (first : List α) {last : List α} (more : last ≠ [])
    (second : List α) : glue (first ++ last) second = first ++ glue last second := by
  induction first with
  | nil => rfl
  | cons line first inductionHypothesis =>
      rw [List.cons_append, glue_cons line (by simp [more]), inductionHypothesis, List.cons_append]

/-- An empty last line disappears. -/
theorem empty_glue {second : List String} (some : second ≠ []) : glue [""] second = second := by
  obtain ⟨line, second, rfl⟩ := List.exists_cons_of_ne_nil some
  simp [glue]

/-- An empty first line disappears. -/
theorem glue_empty {first : List String} (some : first ≠ []) (second : List String) :
    glue first ("" :: second) = first ++ second := by
  obtain ⟨front, line, rfl⟩ := (List.eq_nil_or_concat' first).resolve_left some
  simp [glue, glue_append]

theorem modifyHead_glue (char : Char) {first : List (List Char)} (more : first ≠ [])
    (second : List (List Char)) :
    (glue first second).modifyHead (char :: ·) = glue (first.modifyHead (char :: ·)) second := by
  fun_cases glue first second <;> simp_all [glue]

theorem splitOn_append (first second : List Char) :
    (first ++ second).splitOn '\n' = glue (first.splitOn '\n') (second.splitOn '\n') := by
  induction first with
  | nil =>
      obtain ⟨line, rest, split⟩ := List.exists_cons_of_ne_nil (List.splitOn_ne_nil '\n' second)
      rw [List.nil_append, split, List.splitOn_nil]
      rfl
  | cons char first inductionHypothesis =>
      have more := List.splitOn_ne_nil '\n' first
      rw [List.cons_append, List.splitOn_cons_eq_if_modifyHead,
        List.splitOn_cons_eq_if_modifyHead, inductionHypothesis]
      split_ifs
      · rw [glue_cons _ more]
      · exact modifyHead_glue char more _

theorem map_ofList_glue (first second : List (List Char)) :
    (glue first second).map String.ofList =
      glue (first.map String.ofList) (second.map String.ofList) := by
  fun_induction glue first second <;> simp_all [glue]

theorem lines_append (first second : String) :
    lines (first ++ second) = glue (lines first) (lines second) := by
  rw [lines, String.toList_append, splitOn_append, map_ofList_glue]
  rfl

theorem lines_empty : lines "" = [""] := by decide

/-- What is joined of lines that end with a line feed has one more, empty line. -/
theorem lines_join {α : Type} {elements : List α} {text line : α → String}
    (ended : ∀ element ∈ elements, lines (text element) = [line element, ""]) :
    lines (String.join (elements.map text)) = elements.map line ++ [""] := by
  induction elements with
  | nil => exact lines_empty
  | cons element elements inductionHypothesis =>
      obtain ⟨first, others⟩ := List.forall_mem_cons.mp ended
      rw [List.map_cons, String.join_cons, lines_append, first, inductionHypothesis others]
      cases elements with
      | nil => rfl
      | cons next elements => simp [glue]

theorem lines_intercalate {α : Type} {elements : List α} {text line : α → String}
    (one : ∀ element ∈ elements, lines (text element) = [line element]) (some : elements ≠ []) :
    lines (String.intercalate "\n" (elements.map text)) = elements.map line := by
  induction elements with
  | nil => exact absurd rfl some
  | cons element elements inductionHypothesis =>
      obtain ⟨first, others⟩ := List.forall_mem_cons.mp one
      cases elements with
      | nil => rw [List.map_singleton, String.intercalate_singleton, first, List.map_singleton]
      | cons next elements =>
          rw [List.map_cons, List.map_cons, String.intercalate_cons_cons, String.append_assoc,
            lines_append_newline, first, ← List.map_cons, inductionHypothesis others (by simp)]
          rfl

/-- Behind the first section of a file an empty line comes before each section, and at the end the
file has one more empty line. -/
theorem lines_ofSections (first : String) (rest : List String) :
    lines (Source.ofSections (first :: rest)) =
      lines first ++ rest.flatMap (fun line => "" :: lines line) ++ [""] := by
  unfold Source.ofSections
  induction rest generalizing first with
  | nil =>
      rw [String.intercalate_singleton, List.flatMap_nil, List.append_nil]
      exact lines_append_newline first ""
  | cons next rest inductionHypothesis =>
      have parted : String.intercalate "\n\n" (first :: next :: rest) ++ "\n" =
          first ++
            ("\n" ++ ("" ++ ("\n" ++ (String.intercalate "\n\n" (next :: rest) ++ "\n")))) := by
        rw [String.intercalate_cons_cons]
        simp [← String.append_assoc]
      rw [parted, lines_append_newline, lines_append_newline, inductionHypothesis, lines_empty]
      simp

/-! ## Quoted lines -/

/-- Behind what stands for a character the reader goes on as behind one that it takes as it is. -/
theorem readQuoted_escapeChar (char : Char) (rest : List Char) :
    readQuoted (Literal.escapeChar char ++ rest) =
      (readQuoted rest).map fun (body, after) => (Literal.escapeChar char ++ body, after) := by
  unfold Literal.escapeChar
  split_ifs with backslash quote newline carriage
  · rfl
  · rfl
  · rfl
  · rfl
  · rw [List.singleton_append, readQuoted]
    · rfl
    · exact quote
    · exact fun _ _ same => absurd same backslash

/-- The first quote that no backslash escapes is the one behind the literal. -/
theorem readQuoted_escape (text rest : List Char) :
    readQuoted (text.flatMap Literal.escapeChar ++ '"' :: rest) =
      some (text.flatMap Literal.escapeChar, rest) := by
  induction text with
  | nil => rfl
  | cons char text inductionHypothesis =>
      rw [List.flatMap_cons, List.append_assoc, readQuoted_escapeChar, inductionHypothesis]
      rfl

theorem unindented_of_blank {line : String} {indent rest : List Char}
    (split : line.toList = indent ++ rest) (blank : ∀ char ∈ indent, Text.isBlankChar char) :
    unindented line = rest.dropWhile Text.isBlankChar := by
  rw [unindented, split, List.dropWhile_append_of_pos blank]

/-- A literal between quotes, with a comma behind them, is read as a whole. -/
theorem body?_quoted {line : String} {indent text : List Char}
    (split : line.toList = indent ++ '"' :: (text.flatMap Literal.escapeChar ++ '"' :: [',']))
    (blank : ∀ char ∈ indent, Text.isBlankChar char) :
    body? line = some (Literal.written text) := by
  have quoted : unindented line = '"' :: (text.flatMap Literal.escapeChar ++ '"' :: [',']) := by
    rw [unindented_of_blank split blank]
    exact List.dropWhile_cons_of_neg (by decide)
  simp only [body?, quoted, readQuoted_escape]
  rfl

/-- Only quoted lines hold a string. -/
theorem body?_eq_none {line : String} (unquoted : ¬IsQuoted line) : body? line = none := by
  unfold IsQuoted at unquoted
  unfold body?
  split
  · next quoted start => exact absurd (by rw [start]; rfl) unquoted
  · rfl

/-! ## Identifiers -/

theorem isBlankChar_eq_false_of_start {char : Char} (start : isIdentifierStart char) :
    Text.isBlankChar char = false := by
  have range : 65 ≤ char.toNat ∧ char.toNat ≤ 122 := by
    rcases (Bool.or_eq_true ..).mp start with letter | score
    · rcases (Bool.or_eq_true ..).mp letter with upper | lower
      · have bounds : 'A'.val ≤ char.val ∧ char.val ≤ 'Z'.val := of_decide_eq_true upper
        have least : 65 ≤ char.toNat := UInt32.le_iff_toNat_le.mp bounds.1
        have greatest : char.toNat ≤ 90 := UInt32.le_iff_toNat_le.mp bounds.2
        omega
      · have bounds := (Bool.and_eq_true ..).mp lower
        have least : 97 ≤ char.toNat := UInt32.le_iff_toNat_le.mp (of_decide_eq_true bounds.1)
        have greatest : char.toNat ≤ 122 := UInt32.le_iff_toNat_le.mp (of_decide_eq_true bounds.2)
        omega
    · rw [beq_iff_eq.mp score]
      decide
  simp only [Text.isBlankChar, Text.blankRanges, List.any_cons, List.any_nil, Bool.or_false,
    Bool.or_eq_false_iff, decide_eq_false_iff_not]
  omega

theorem oneLine_of_isIdentifier {name : String} (identifier : isIdentifier name) : OneLine name :=
  fun feed => absurd (isIdentifierPart_of_mem identifier feed) (by decide)

/-- An identifier is not part of the indent. -/
theorem dropWhile_blank_identifier {name : String} (identifier : isIdentifier name)
    (rest : List Char) :
    (name.toList ++ rest).dropWhile Text.isBlankChar = name.toList ++ rest := by
  obtain ⟨first, others, split, start, _⟩ := (isIdentifier_iff name).mp identifier
  rw [split, List.cons_append]
  exact List.dropWhile_cons_of_neg (by simp [isBlankChar_eq_false_of_start start])

/-- What takes characters of identifiers stops behind an identifier before a parenthesis. -/
theorem takeWhile_identifier {name : String} (parts : ∀ char ∈ name.toList, isIdentifierPart char)
    (rest : List Char) :
    (name.toList ++ '(' :: rest).takeWhile isIdentifierPart = name.toList := by
  rw [List.takeWhile_append_of_pos parts, List.takeWhile_cons_of_neg (by decide), List.append_nil]

theorem dropWhile_identifier {name : String} (parts : ∀ char ∈ name.toList, isIdentifierPart char)
    (rest : List Char) :
    (name.toList ++ '(' :: rest).dropWhile isIdentifierPart = '(' :: rest := by
  rw [List.dropWhile_append_of_pos parts, List.dropWhile_cons_of_neg (by decide)]

/-- A call is read as a call, whatever it hands over. -/
theorem callee?_call {line name : String} {indent argument : List Char}
    (split : line.toList = indent ++ (name.toList ++ '(' :: (argument ++ [')', ';'])))
    (blank : ∀ char ∈ indent, Text.isBlankChar char) (identifier : isIdentifier name) :
    callee? line = some name := by
  have parts : ∀ char ∈ name.toList, isIdentifierPart char := fun _ member =>
    isIdentifierPart_of_mem identifier member
  have words : unindented line = name.toList ++ '(' :: (argument ++ [')', ';']) := by
    rw [unindented_of_blank split blank, dropWhile_blank_identifier identifier]
  have closed : [')', ';'] <:+ '(' :: (argument ++ [')', ';']) := ⟨'(' :: argument, rfl⟩
  simp only [callee?, words, takeWhile_identifier parts, dropWhile_identifier parts]
  rw [if_pos ⟨rfl, closed⟩, String.ofList_toList]

/-- The heading of a definition is read as such. -/
theorem definedName?_heading {target : Target} {line name : String} {rest : List Char}
    (split : line.toList = (keyword target).toList ++ (name.toList ++ '(' :: rest))
    (identifier : isIdentifier name) : definedName? target line = some name := by
  have parts : ∀ char ∈ name.toList, isIdentifierPart char := fun _ member =>
    isIdentifierPart_of_mem identifier member
  have hidden : line.toList.dropPrefix? (visibility target).toList = none := by
    rw [split]
    cases target <;> rfl
  simp only [definedName?, hidden, Option.getD_none]
  rw [split, List.dropPrefix?_append_of_beq _ (beq_self_eq_true _), Option.bind_some,
    takeWhile_identifier parts, dropWhile_identifier parts, List.head?_cons, if_pos rfl,
    String.ofList_toList]

/-! ## Items -/

/-- Outside of all definitions, `lines` are read as `items`, whatever follows them. -/
def Reads (target : Target) (lines : List String) (items : List Item) : Prop :=
  ∀ rest, itemsAfter target none (lines ++ rest) = items ++ itemsAfter target none rest

namespace Reads

variable {target : Target}

theorem nil : Reads target [] [] := fun _ => rfl

theorem append {first second : List String} {before after : List Item}
    (left : Reads target first before) (right : Reads target second after) :
    Reads target (first ++ second) (before ++ after) := by
  intro rest
  rw [List.append_assoc, left, right, List.append_assoc]

theorem flatMap {α : Type} {elements : List α} {lines : α → List String} {items : α → List Item}
    (each : ∀ element ∈ elements, Reads target (lines element) (items element)) :
    Reads target (elements.flatMap lines) (elements.flatMap items) := by
  induction elements with
  | nil => exact nil
  | cons element elements inductionHypothesis =>
      obtain ⟨first, others⟩ := List.forall_mem_cons.mp each
      rw [List.flatMap_cons, List.flatMap_cons]
      exact append first (inductionHypothesis others)

/-- Lines that open no definition stay by themselves. -/
theorem loose {lines : List String} (opens : ∀ line ∈ lines, definedName? target line = none) :
    Reads target lines (lines.map .loose) := by
  intro rest
  induction lines with
  | nil => rfl
  | cons line lines inductionHypothesis =>
      obtain ⟨first, others⟩ := List.forall_mem_cons.mp opens
      rw [List.cons_append, itemsAfter, first]
      exact congrArg _ (inductionHypothesis others)

/-- An empty line stays by itself. -/
theorem empty : Reads target [""] [.loose ""] :=
  loose (by cases target <;> decide)

theorem after_empty {lines : List String} {items : List Item} (reads : Reads target lines items) :
    Reads target ("" :: lines) (.loose "" :: items) := empty.append reads

theorem itemsAfter_some (opened : Definition) {body : List String} (inside : "\x7d" ∉ body)
    (rest : List String) :
    itemsAfter target (some opened) (body ++ "\x7d" :: rest) =
      .definition { opened with body := opened.body ++ body } :: itemsAfter target none rest := by
  induction body generalizing opened with
  | nil =>
      rw [List.nil_append, List.append_nil, itemsAfter, if_pos rfl]
  | cons line body inductionHypothesis =>
      have other : line ≠ "\x7d" := (List.ne_of_not_mem_cons inside).symm
      rw [List.cons_append, itemsAfter, if_neg other,
        inductionHypothesis _ (List.not_mem_of_not_mem_cons inside)]
      simp

/-- A heading, lines other than the closing brace, and the closing brace are a definition. -/
theorem definition {name heading : String} {body : List String}
    (named : definedName? target heading = some name) (opened : ¬ClosesItself heading)
    (inside : "\x7d" ∉ body) :
    Reads target (heading :: (body ++ ["\x7d"])) [.definition ⟨name, heading, body⟩] := by
  intro rest
  have lines : heading :: (body ++ ["\x7d"]) ++ rest = heading :: (body ++ "\x7d" :: rest) := by
    simp
  rw [lines, itemsAfter, named]
  simp only [if_neg opened, itemsAfter_some _ inside]
  rfl

/-- A heading that closes itself is a definition without lines. -/
theorem definition_nil {name heading : String} (named : definedName? target heading = some name)
    (closed : ClosesItself heading) :
    Reads target [heading] [.definition ⟨name, heading, []⟩] := by
  intro rest
  rw [List.singleton_append, itemsAfter, named]
  simp only [if_pos closed]
  rfl

theorem items_eq {file : String} {read : List Item} (reads : Reads target (lines file) read) :
    items target file = read := by
  have all := reads []
  rwa [List.append_nil, itemsAfter, List.append_nil] at all

end Reads

end Flowpress.Listing
