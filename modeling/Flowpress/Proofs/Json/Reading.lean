import Mathlib.Data.List.Basic
import Flowpress.Json.Reader
import Flowpress.Proofs.Json.Order
import Flowpress.Proofs.Outcome

/-!
# Readers on written texts

A reader that meets a text the printer wrote takes the text and leaves what
follows, unless something in the text has no value for the reader or the text
nests deeper than the levels that are left. `Yields` says so of one result, and is
closed under sequencing; `Takes` says so of a reader, wherever the text stands.
Lists and objects are taken part by part, whatever reads the parts. What a part is
taken as need not be what was written: it is a function of that.
-/

namespace Flowpress

namespace Json

/-- The position behind some characters. -/
def Position.afterAll (position : Position) (text : List Char) : Position :=
  text.foldl Position.after position

/-- White space between the parts of a text. -/
def Blank (blanks : List Char) : Prop := ∀ char ∈ blanks, Cursor.isBlank char

/-! ## Layouts -/

namespace Layout

theorem blank_lineBreak (layout : Layout) (depth : Nat) : Blank (layout.lineBreak depth) := by
  intro char member
  cases layout with
  | compact => cases member
  | indented =>
      rcases List.mem_cons.mp member with rfl | space
      · rfl
      · rw [List.eq_of_mem_replicate space]
        rfl

/-- The parts of a container behind its first part, each with the comma in front of it. -/
def following (layout : Layout) (depth : Nat) : List (List Char) → List Char
  | [] => []
  | part :: rest => ',' :: layout.separate depth (part :: rest)

theorem separate_cons (layout : Layout) (depth : Nat) (part : List Char)
    (rest : List (List Char)) :
    layout.separate depth (part :: rest) =
      layout.lineBreak (depth + 1) ++ (part ++ layout.following depth rest) := by
  cases rest <;> simp [separate, following]

/-- What stands before the closing bracket of a container. -/
def ending (layout : Layout) (depth : Nat) (parts : List (List Char)) : List Char :=
  if parts.isEmpty then [] else layout.lineBreak depth

theorem blank_ending (layout : Layout) (depth : Nat) (parts : List (List Char)) :
    Blank (layout.ending depth parts) := by
  unfold ending
  split_ifs
  · exact List.forall_mem_nil _
  · exact layout.blank_lineBreak depth

theorem enclose_eq (layout : Layout) (depth : Nat) (opening closing : Char)
    (parts : List (List Char)) :
    layout.enclose depth opening closing parts =
      opening :: (layout.separate depth parts ++ (layout.ending depth parts ++ [closing])) := by
  cases parts <;> simp [enclose, separate, ending]

theorem member_ne_nil (layout : Layout) (name : String) (text : List Char) :
    layout.member name text ≠ [] := by
  simp [member, writeString]

theorem length_le_member (layout : Layout) (name : String) (text : List Char) :
    text.length ≤ (layout.member name text).length := by
  rw [member, List.length_append]
  exact Nat.le_add_left _ _

theorem length_le_separate (layout : Layout) (depth : Nat) {parts : List (List Char)}
    {part : List Char} (member : part ∈ parts) :
    part.length ≤ (layout.separate depth parts).length := by
  induction parts with
  | nil => cases member
  | cons first parts inductionHypothesis =>
      rw [separate_cons]
      rcases List.mem_cons.mp member with rfl | later
      · simp only [List.length_append]
        omega
      · have shorter := inductionHypothesis later
        cases parts with
        | nil => cases later
        | cons next parts =>
            simp only [following, List.length_append, List.length_cons] at shorter ⊢
            omega

theorem count_le_separate (layout : Layout) (depth : Nat) {parts : List (List Char)}
    (some : ∀ part ∈ parts, part ≠ []) :
    parts.length ≤ (layout.separate depth parts).length := by
  induction parts with
  | nil => exact Nat.zero_le _
  | cons first parts inductionHypothesis =>
      obtain ⟨here, others⟩ := List.forall_mem_cons.mp some
      have more := inductionHypothesis others
      have positive := List.length_pos_iff.mpr here
      rw [separate_cons]
      cases parts with
      | nil =>
          simp only [List.length_append, List.length_cons, List.length_nil]
          omega
      | cons next parts =>
          simp only [following, List.length_append, List.length_cons] at more ⊢
          omega

/-- A part of a container is no longer than the container. -/
theorem length_le_enclose (layout : Layout) (depth : Nat) (opening closing : Char)
    {parts : List (List Char)} {part : List Char} (member : part ∈ parts) :
    part.length ≤ (layout.enclose depth opening closing parts).length := by
  have inside := layout.length_le_separate depth member
  simp only [enclose_eq, List.length_cons, List.length_append]
  omega

/-- A container has no more parts than characters. -/
theorem count_le_enclose (layout : Layout) (depth : Nat) (opening closing : Char)
    {parts : List (List Char)} (some : ∀ part ∈ parts, part ≠ []) :
    parts.length ≤ (layout.enclose depth opening closing parts).length := by
  have inside := layout.count_le_separate depth some
  simp only [enclose_eq, List.length_cons, List.length_append]
  omega

end Layout

namespace Cursor

/-! ## Outcomes -/

variable {α β σ : Type}

/-- Of a text that is readable, the result is the value and what follows if a condition on the
nesting holds, and the refusal of a container that is too deep otherwise. Any other text is refused
in some way. -/
structure Yields (result : Except Refusal (α × Cursor)) (readable fits : Prop) (value : α)
    (rest : List Char) : Prop where
  reads : readable → fits → ∃ position, result = .ok (value, ⟨rest, position⟩)
  tooDeep : readable → ¬fits → ∃ position, result = .error ⟨.tooDeep, some position⟩
  refuses : ¬readable → ∃ refusal, result = .error refusal

namespace Yields

variable {result : Except Refusal (α × Cursor)} {readable fits readable' fits' : Prop} {value : α}
  {rest : List Char}

theorem ok (able : readable) (holds : fits) (value : α) (rest : List Char) (position : Position) :
    Yields (.ok (value, ⟨rest, position⟩)) readable fits value rest :=
  ⟨fun _ _ => ⟨position, rfl⟩, fun _ fails => absurd holds fails, fun unable => absurd able unable⟩

theorem congr (yields : Yields result readable fits value rest)
    (sameReadable : readable' ↔ readable) (sameFits : fits' ↔ fits) :
    Yields result readable' fits' value rest := by
  rwa [sameReadable, sameFits]

theorem bind {next : α × Cursor → Except Refusal (β × Cursor)} {later : β} {left : List Char}
    (first : Yields result readable fits value rest)
    (second : ∀ position, Yields (next (value, ⟨rest, position⟩)) readable' fits' later left) :
    Yields (result >>= next) (readable ∧ readable') (fits ∧ fits') later left := by
  by_cases able : readable
  · by_cases holds : fits
    · obtain ⟨position, rfl⟩ := first.reads able holds
      exact (second position).congr (and_iff_right able) (and_iff_right holds)
    · obtain ⟨position, rfl⟩ := first.tooDeep able holds
      exact ⟨fun _ both => absurd both.1 holds, fun _ _ => ⟨position, rfl⟩, fun _ => ⟨_, rfl⟩⟩
  · obtain ⟨refusal, rfl⟩ := first.refuses able
    exact ⟨fun both => absurd both.1 able, fun both => absurd both.1 able, fun _ => ⟨refusal, rfl⟩⟩

/-- What follows without reading changes the value alone. -/
theorem map {next : α × Cursor → Except Refusal (β × Cursor)} {later : β}
    (first : Yields result readable fits value rest)
    (pure : ∀ position, next (value, ⟨rest, position⟩) = .ok (later, ⟨rest, position⟩)) :
    Yields (result >>= next) readable fits later rest :=
  (first.bind fun position => pure position ▸ ok trivial trivial later rest position).congr
    (and_true _).symm.to_iff (and_true _).symm.to_iff

end Yields

/-- Nothing that a number could go on with. -/
def EndsNumber (rest : List Char) : Prop :=
  ∀ char ∈ rest.head?, char.isDigit = false ∧ char ≠ '.' ∧ char ≠ 'e' ∧ char ≠ 'E'

/-- Behind any white space and in front of anything but the rest of a number, the reader takes the
text as the value if it is readable and not too deep. -/
def Takes (reader : Reader α) (text : List Char) (readable fits : Prop) (value : α) : Prop :=
  ∀ blanks rest position, Blank blanks → EndsNumber rest →
    Yields (reader ⟨blanks ++ (text ++ rest), position⟩) readable fits value rest

/-- What is made of a value without reading on is taken with it. -/
theorem Takes.map {reader : Reader α} {text : List Char} {readable fits : Prop} {value : α}
    (takes : Takes reader text readable fits value) (change : α → β) :
    Takes (fun cursor => reader cursor >>= fun read => .ok (change read.1, read.2)) text readable
      fits (change value) :=
  fun blanks rest position blank ends => (takes blanks rest position blank ends).map fun _ => rfl

/-! ## White space, words and digits -/

theorem skipBlank_append {blanks : List Char} (blank : Blank blanks) {char : Char}
    (solid : isBlank char = false) (rest : List Char) (position : Position) :
    ∃ position', skipBlank ⟨blanks ++ char :: rest, position⟩ = ⟨char :: rest, position'⟩ := by
  unfold skipBlank
  induction blanks generalizing position with
  | nil => exact ⟨position, by simp [skipBlankFrom, solid]⟩
  | cons space blanks inductionHypothesis =>
      obtain ⟨first, others⟩ := List.forall_mem_cons.mp blank
      simp only [List.cons_append, skipBlankFrom, first, if_true]
      exact inductionHypothesis others _

theorem skipBlank_cons {char : Char} (solid : isBlank char = false) (rest : List Char)
    (position : Position) : skipBlank ⟨char :: rest, position⟩ = ⟨char :: rest, position⟩ := by
  simp [skipBlank, skipBlankFrom, solid]

theorem valueStart_append {blanks : List Char} (blank : Blank blanks) {char : Char}
    (solid : isBlank char = false) (rest : List Char) (position : Position) :
    ∃ position', valueStart ⟨blanks ++ char :: rest, position⟩ = .ok ⟨char :: rest, position'⟩ := by
  obtain ⟨place, skipped⟩ := skipBlank_append blank solid rest position
  exact ⟨place, by simp only [valueStart, skipped]⟩

/-- A reader that goes to where a value begins takes a text if it takes it from there. -/
theorem Takes.of_valueStart {next : Reader α} {char : Char} {text : List Char}
    {readable fits : Prop} {value : α} (solid : isBlank char = false)
    (takes : ∀ rest position, EndsNumber rest →
      Yields (next ⟨char :: (text ++ rest), position⟩) readable fits value rest) :
    Takes (fun cursor => cursor.valueStart >>= next) (char :: text) readable fits value := by
  intro blanks rest position blank ends
  obtain ⟨place, started⟩ := valueStart_append blank solid (text ++ rest) position
  simp only [List.cons_append, started, Outcome.ok_bind]
  exact takes rest place ends

theorem expect_append (letters rest : List Char) (position : Position) :
    ∃ position', expect ⟨letters ++ rest, position⟩ letters = .ok ⟨rest, position'⟩ := by
  induction letters generalizing position with
  | nil => exact ⟨position, rfl⟩
  | cons letter letters inductionHypothesis =>
      simp only [List.cons_append, expect, if_true]
      exact inductionHypothesis _

theorem takeDigits_append {digits rest : List Char} (decimal : ∀ digit ∈ digits, digit.isDigit)
    (ends : ∀ char ∈ rest.head?, char.isDigit = false) (position : Position) :
    ∃ position', takeDigits ⟨digits ++ rest, position⟩ = (digits, ⟨rest, position'⟩) := by
  unfold takeDigits
  induction digits generalizing position with
  | nil =>
      cases rest with
      | nil => exact ⟨position, rfl⟩
      | cons char rest => exact ⟨position, by simp [takeDigitsFrom, ends char rfl]⟩
  | cons digit digits inductionHypothesis =>
      obtain ⟨first, others⟩ := List.forall_mem_cons.mp decimal
      obtain ⟨place, taken⟩ := inductionHypothesis others (position.after digit)
      refine ⟨place, ?_⟩
      simp only [List.cons_append, takeDigitsFrom, first, if_true, taken]

/-! ## Strings -/

theorem hexValue?_hexDigit : ∀ digit < 16, hexValue? (hexDigit digit) = some digit := by
  decide

/-- A hexadecimal digit that is not the last one of its code unit. -/
theorem scanString_digit {char : Char} {digit : Nat} (known : hexValue? char = some digit)
    (value count : Nat) (rest text : List Char) (position : Position) :
    scanString true (.unit none value (count + 2)) (char :: rest) position text =
      scanString true (.unit none (value * 16 + digit) (count + 1)) rest (position.after char)
        text := by
  simp [scanString, known]

/-- The last digit of a code unit that is a character by itself. -/
theorem scanString_lastDigit {char : Char} {digit : Nat} (known : hexValue? char = some digit)
    {value : Nat} (small : value * 16 + digit < 0xD800) (rest text : List Char)
    (position : Position) :
    scanString true (.unit none value 1) (char :: rest) position text =
      scanString true .plain rest (position.after char)
        (Char.ofNat (value * 16 + digit) :: text) := by
  have leading : isLeadingSurrogate (value * 16 + digit) = false :=
    decide_eq_false (by omega)
  have trailing : isTrailingSurrogate (value * 16 + digit) = false :=
    decide_eq_false (by omega)
  simp [scanString, known, unitOutcome, leading, trailing]

/-- A control character is read back from its code unit. -/
theorem scanString_control {char : Char} (control : char.toNat < 0x20) (rest text : List Char)
    (position : Position) :
    scanString true (.unit none 0 4) ('0' :: '0' :: hexDigit (char.toNat / 16) ::
        hexDigit (char.toNat % 16) :: rest) position text =
      scanString true .plain rest (position.afterAll
        ['0', '0', hexDigit (char.toNat / 16), hexDigit (char.toNat % 16)]) (char :: text) := by
  have zero : hexValue? '0' = some 0 := rfl
  have high := hexValue?_hexDigit (char.toNat / 16) (by omega)
  have low := hexValue?_hexDigit (char.toNat % 16) (Nat.mod_lt _ (by decide))
  have whole : ((0 * 16 + 0) * 16 + 0) * 16 + char.toNat / 16 = char.toNat / 16 := by omega
  have sum : char.toNat / 16 * 16 + char.toNat % 16 = char.toNat := by omega
  rw [scanString_digit zero, scanString_digit zero, scanString_digit high, whole,
    scanString_lastDigit low (by omega), sum, Char.ofNat_toNat]
  rfl

/-- The scanner takes what is written for a character as this character. -/
theorem scanString_escapeChar (char : Char) (rest text : List Char) (position : Position) :
    scanString true .plain (escapeChar char ++ rest) position text =
      scanString true .plain rest (position.afterAll (escapeChar char)) (char :: text) := by
  unfold escapeChar
  split_ifs with quote backslash backspace feed newline carriage tab control
  all_goals try subst_vars
  all_goals try rfl
  · exact scanString_control control rest text _
  · simp [scanString, quote, backslash, control, Position.afterAll]

/-- A written string is read back. -/
theorem string_append (text : String) (rest : List Char) (position : Position) :
    ∃ place, string ⟨text.toList.flatMap escapeChar ++ '"' :: rest, position⟩ =
      .ok (text, ⟨rest, place⟩) := by
  have scan (content read : List Char) (position : Position) :
      ∃ place, scanString true .plain (content.flatMap escapeChar ++ '"' :: rest) position read =
        .ok (read.reverse ++ content, ⟨rest, place⟩) := by
    induction content generalizing read position with
    | nil => exact ⟨position.after '"', by simp [scanString]⟩
    | cons char content inductionHypothesis =>
        obtain ⟨place, others⟩ := inductionHypothesis (char :: read)
          (position.afterAll (escapeChar char))
        refine ⟨place, ?_⟩
        rw [List.flatMap_cons, List.append_assoc, scanString_escapeChar, others]
        simp
  obtain ⟨place, scanned⟩ := scan text.toList [] position
  refine ⟨place, ?_⟩
  simp [string, scanned, Except.map]

/-! ## Containers -/

/-- Entering a container takes one level. -/
theorem Yields.enter {body : Nat → Reader α} {levels nesting : Nat} {readable : Prop}
    {bracket : Char} {inside rest : List Char} {value : α}
    (inner : ∀ left, levels = left + 1 → ∀ position,
      Yields (body left ⟨inside, position⟩) readable (nesting ≤ left) value rest)
    (position : Position) :
    Yields (Cursor.enter ⟨bracket :: inside, position⟩ levels body) readable (nesting + 1 ≤ levels)
      value rest := by
  cases levels with
  | zero =>
      exact ⟨fun _ fits => absurd fits (Nat.not_succ_le_zero _), fun _ _ => ⟨_, rfl⟩,
        fun _ => ⟨_, rfl⟩⟩
  | succ left =>
      exact (inner left rfl _).congr Iff.rfl Nat.add_one_le_add_one_iff

/-- A container is taken if what stands behind its bracket is taken with one level less. -/
theorem Takes.of_enter (layout : Layout) (depth : Nat) {opening closing : Char}
    {parts : List (List Char)} {next : Reader α} {levels nesting : Nat} {body : Nat → Reader α}
    {readable : Prop} {value : α} (solid : isBlank opening = false)
    (enters : ∀ inside position, next ⟨opening :: inside, position⟩ =
      Cursor.enter ⟨opening :: inside, position⟩ levels body)
    (inner : ∀ left, levels = left + 1 → ∀ rest position,
      Yields (body left ⟨layout.separate depth parts ++
        (layout.ending depth parts ++ closing :: rest), position⟩) readable (nesting ≤ left) value
        rest) :
    Takes (fun cursor => cursor.valueStart >>= next) (layout.enclose depth opening closing parts)
      readable (nesting + 1 ≤ levels) value := by
  rw [Layout.enclose_eq]
  refine Takes.of_valueStart solid fun rest position _ => ?_
  simp only [List.append_assoc, List.singleton_append]
  rw [enters]
  exact Yields.enter (fun left same => inner left same rest) position

/-- What goes in front of a part: nothing for the first one, a comma for the others. -/
def lead (first : Bool) : List Char := if first then [] else [',']

/-- The parts of a container that are still to be read. -/
def pending (layout : Layout) (depth : Nat) (first : Bool) (parts : List (List Char)) :
    List Char :=
  if first then layout.separate depth parts else layout.following depth parts

theorem pending_nil (layout : Layout) (depth : Nat) (first : Bool) :
    pending layout depth first [] = [] := by
  cases first <;> rfl

theorem pending_cons (layout : Layout) (depth : Nat) (first : Bool) (part : List Char)
    (parts : List (List Char)) :
    pending layout depth first (part :: parts) =
      lead first ++
        (layout.lineBreak (depth + 1) ++ (part ++ pending layout depth false parts)) := by
  cases first with
  | true => exact layout.separate_cons depth part parts
  | false => exact congrArg (',' :: ·) (layout.separate_cons depth part parts)

/-- A number ends before what follows a part of a container. -/
theorem endsNumber_pending (closing : Char)
    (closes : closing.isDigit = false ∧ closing ≠ '.' ∧ closing ≠ 'e' ∧ closing ≠ 'E')
    {blanks : List Char} (blank : Blank blanks) (layout : Layout) (depth : Nat)
    (parts : List (List Char)) (rest : List Char) :
    EndsNumber (pending layout depth false parts ++ (blanks ++ closing :: rest)) := by
  intro char first
  cases parts with
  | cons part parts =>
      obtain rfl : ',' = char := Option.some.inj first
      decide
  | nil =>
      cases blanks with
      | nil =>
          obtain rfl : closing = char := Option.some.inj first
          exact closes
      | cons space blanks =>
          obtain rfl : space = char := Option.some.inj first
          have white := blank space List.mem_cons_self
          simp only [isBlank, Bool.or_eq_true, decide_eq_true_eq] at white
          rcases white with ((rfl | rfl) | rfl) | rfl <;> decide

/-! ### Lists -/

/-- A text that does not begin with white space or the end of a list. -/
def StartsElement (text : List Char) : Prop :=
  ∃ char rest, text = char :: rest ∧ isBlank char = false ∧ char ≠ ']'

theorem StartsElement.ne_nil {text : List Char} (starts : StartsElement text) : text ≠ [] := by
  obtain ⟨char, rest, rfl, -⟩ := starts
  exact List.cons_ne_nil char rest

theorem nextElement_part {text : List Char} (starts : StartsElement text) {blanks : List Char}
    (blank : Blank blanks) (first : Bool) (rest : List Char) (position : Position) :
    ∃ place, nextElement ⟨lead first ++ (blanks ++ (text ++ rest)), position⟩ first =
      .ok (true, ⟨text ++ rest, place⟩) := by
  obtain ⟨char, more, rfl, solid, other⟩ := starts
  cases first with
  | true =>
      obtain ⟨place, skipped⟩ := skipBlank_append blank solid (more ++ rest) position
      refine ⟨place, ?_⟩
      simp [nextElement, lead, skipped, other]
  | false =>
      obtain ⟨place, skipped⟩ := skipBlank_append blank solid (more ++ rest) (position.after ',')
      refine ⟨place, ?_⟩
      have comma : skipBlank ⟨',' :: (blanks ++ char :: (more ++ rest)), position⟩ =
          ⟨',' :: (blanks ++ char :: (more ++ rest)), position⟩ := skipBlank_cons (by decide) _ _
      simp [nextElement, lead, comma, advance, skipped, other]

theorem nextElement_end {blanks : List Char} (blank : Blank blanks) (first : Bool)
    (rest : List Char) (position : Position) :
    ∃ place, nextElement ⟨blanks ++ ']' :: rest, position⟩ first =
      .ok (false, ⟨']' :: rest, place⟩) := by
  obtain ⟨place, skipped⟩ := skipBlank_append blank (by decide : isBlank ']' = false) rest position
  exact ⟨place, by simp [nextElement, skipped]⟩

section Lists

variable {element : Reader α} {text : β → List Char} {readable fits : β → Prop} {change : β → α}

/-- The elements of a written list are taken one after another. -/
theorem yields_elementsFrom (layout : Layout) (depth : Nat) {blanks : List Char}
    (blank : Blank blanks) (rest : List Char) {values : List β}
    (starts : ∀ value ∈ values, StartsElement (text value))
    (takes : ∀ value ∈ values,
      Takes element (text value) (readable value) (fits value) (change value))
    {bound : Nat} (enough : values.length < bound) (first : Bool) (taken : List α)
    (position : Position) :
    Yields (elementsFrom element bound first taken
        ⟨pending layout depth first (values.map text) ++ (blanks ++ ']' :: rest), position⟩)
      (∀ value ∈ values, readable value) (∀ value ∈ values, fits value)
      (taken.reverse ++ values.map change) rest := by
  induction values generalizing bound first taken position with
  | nil =>
      cases bound with
      | zero => cases enough
      | succ bound =>
          obtain ⟨place, ended⟩ := nextElement_end blank first rest position
          have result : elementsFrom element (bound + 1) first taken
              ⟨pending layout depth first [] ++ (blanks ++ ']' :: rest), position⟩ =
              .ok (taken.reverse, ⟨rest, place.after ']'⟩) := by
            rw [pending_nil, List.nil_append, elementsFrom, ended, Outcome.ok_bind]
            rfl
          rw [List.map_nil, result, List.map_nil, List.append_nil]
          exact .ok (List.forall_mem_nil _) (List.forall_mem_nil _) ..
  | cons value values inductionHypothesis =>
      obtain ⟨startsHere, startLater⟩ := List.forall_mem_cons.mp starts
      obtain ⟨takesHere, takeLater⟩ := List.forall_mem_cons.mp takes
      cases bound with
      | zero => cases enough
      | succ bound =>
          obtain ⟨place, reached⟩ := nextElement_part startsHere
            (layout.blank_lineBreak (depth + 1)) first
            (pending layout depth false (values.map text) ++ (blanks ++ ']' :: rest)) position
          have here := takesHere [] _ place (List.forall_mem_nil _)
            (endsNumber_pending ']' (by decide) blank layout depth (values.map text) rest)
          have later := inductionHypothesis startLater takeLater (Nat.lt_of_succ_lt_succ enough)
            false (change value :: taken)
          have order : taken.reverse ++ (value :: values).map change =
              (change value :: taken).reverse ++ values.map change := by
            simp
          rw [List.map_cons, pending_cons, elementsFrom, order]
          simp only [List.append_assoc, reached, Outcome.ok_bind, if_true]
          exact (here.bind fun position => later position).congr List.forall_mem_cons
            List.forall_mem_cons

/-- A written list is taken behind its bracket. -/
theorem yields_elements (layout : Layout) (depth : Nat) (rest : List Char) {values : List β}
    (starts : ∀ value ∈ values, StartsElement (text value))
    (takes : ∀ value ∈ values,
      Takes element (text value) (readable value) (fits value) (change value))
    {bound : Nat} (enough : (layout.enclose depth '[' ']' (values.map text)).length ≤ bound)
    (position : Position) :
    Yields (elements bound element
        ⟨layout.separate depth (values.map text) ++
          (layout.ending depth (values.map text) ++ ']' :: rest), position⟩)
      (∀ value ∈ values, readable value) (∀ value ∈ values, fits value) (values.map change)
      rest := by
  have some : ∀ part ∈ values.map text, part ≠ [] :=
    List.forall_mem_map.mpr fun value among => (starts value among).ne_nil
  have count := Nat.le_trans (layout.count_le_enclose depth '[' ']' some) enough
  rw [List.length_map] at count
  exact yields_elementsFrom layout depth (layout.blank_ending depth (values.map text)) rest starts
    takes (Nat.lt_succ_of_le count) true [] position

end Lists

/-! ### Objects -/

theorem nextName_part {blanks : List Char} (blank : Blank blanks) (first : Bool)
    (rest : List Char) (position : Position) :
    ∃ place, nextName ⟨lead first ++ (blanks ++ '"' :: rest), position⟩ first =
      .ok (true, ⟨'"' :: rest, place⟩) := by
  have quote : isBlank '"' = false := by decide
  cases first with
  | true =>
      obtain ⟨place, skipped⟩ := skipBlank_append blank quote rest position
      exact ⟨place, by simp [nextName, lead, skipped]⟩
  | false =>
      obtain ⟨place, skipped⟩ := skipBlank_append blank quote rest (position.after ',')
      refine ⟨place, ?_⟩
      have comma : skipBlank ⟨',' :: (blanks ++ '"' :: rest), position⟩ =
          ⟨',' :: (blanks ++ '"' :: rest), position⟩ := skipBlank_cons (by decide) _ _
      simp [nextName, lead, comma, advance, skipped]

theorem nextName_end {blanks : List Char} (blank : Blank blanks) (first : Bool)
    (rest : List Char) (position : Position) :
    ∃ place, nextName ⟨blanks ++ '\x7d' :: rest, position⟩ first =
      .ok (false, ⟨'\x7d' :: rest, place⟩) := by
  obtain ⟨place, skipped⟩ :=
    skipBlank_append blank (by decide : isBlank '\x7d' = false) rest position
  exact ⟨place, by simp [nextName, skipped]⟩

theorem colon_append (rest : List Char) (position : Position) :
    colon ⟨':' :: rest, position⟩ = .ok ⟨rest, position.after ':'⟩ := by
  have here : skipBlank ⟨':' :: rest, position⟩ = ⟨':' :: rest, position⟩ :=
    skipBlank_cons (by decide) _ _
  simp [colon, here, advance]

/-- The text of a member, part by part. -/
theorem member_eq (layout : Layout) (name : String) (text : List Char) :
    ∃ blanks, Blank blanks ∧ layout.member name text =
      '"' :: (name.toList.flatMap escapeChar ++ '"' :: ':' :: (blanks ++ text)) := by
  cases layout with
  | compact =>
      exact ⟨[], List.forall_mem_nil _, by simp [Layout.member, Layout.colon, writeString]⟩
  | indented =>
      exact ⟨[' '], List.forall_mem_singleton.mpr rfl,
        by simp [Layout.member, Layout.colon, writeString]⟩

/-- Taking the fields with the given texts one after another leads from a state to another one, if
they are readable and a condition on the nesting holds. -/
inductive FieldsTake (field : σ → String → Except Fault (Reader σ)) :
    σ → List (String × List Char) → Prop → Prop → σ → Prop where
  | nil (state : σ) : FieldsTake field state [] True True state
  | cons {state next final : σ} {name : String} {text : List Char}
      {entries : List (String × List Char)} {readable fits readable' fits' : Prop}
      {reader : Reader σ} (known : field state name = .ok reader)
      (takes : Takes reader text readable fits next)
      (later : FieldsTake field next entries readable' fits' final) :
      FieldsTake field state ((name, text) :: entries) (readable ∧ readable') (fits ∧ fits') final

theorem FieldsTake.congr {field : σ → String → Except Fault (Reader σ)} {state final : σ}
    {entries : List (String × List Char)} {readable fits readable' fits' : Prop}
    (take : FieldsTake field state entries readable fits final)
    (sameReadable : readable' ↔ readable) (sameFits : fits' ↔ fits) :
    FieldsTake field state entries readable' fits' final := by
  rwa [sameReadable, sameFits]

/-- The members with the given names and texts. -/
def memberTexts (layout : Layout) (entries : List (String × List Char)) : List (List Char) :=
  entries.map fun entry => layout.member entry.1 entry.2

theorem yields_fieldsFrom {field : σ → String → Except Fault (Reader σ)} (layout : Layout)
    (depth : Nat) {blanks : List Char} (blank : Blank blanks) (rest : List Char)
    {state final : σ} {entries : List (String × List Char)} {readable fits : Prop}
    (take : FieldsTake field state entries readable fits final) {bound : Nat}
    (enough : entries.length < bound) (first : Bool) (position : Position) :
    Yields (fieldsFrom field bound first state
        ⟨pending layout depth first (memberTexts layout entries) ++ (blanks ++ '\x7d' :: rest),
          position⟩)
      readable fits final rest := by
  induction take generalizing bound first position with
  | nil state =>
      cases bound with
      | zero => cases enough
      | succ bound =>
          obtain ⟨place, ended⟩ := nextName_end blank first rest position
          have result : fieldsFrom field (bound + 1) first state
              ⟨pending layout depth first [] ++ (blanks ++ '\x7d' :: rest), position⟩ =
              .ok (state, ⟨rest, place.after '\x7d'⟩) := by
            rw [pending_nil, List.nil_append, fieldsFrom, ended, Outcome.ok_bind]
            rfl
          rw [memberTexts, List.map_nil, result]
          exact .ok trivial trivial ..
  | @cons state next final name text entries readable fits _ _ reader known takes later
      inductionHypothesis =>
      cases bound with
      | zero => cases enough
      | succ bound =>
          obtain ⟨space, white, written⟩ := member_eq layout name text
          -- What follows the member, up to the end of the whole text.
          let others := pending layout depth false (memberTexts layout entries) ++
            (blanks ++ '\x7d' :: rest)
          obtain ⟨place, reached⟩ := nextName_part (layout.blank_lineBreak (depth + 1)) first
            (name.toList.flatMap escapeChar ++ '"' :: ':' :: (space ++ (text ++ others))) position
          obtain ⟨behind, read⟩ := string_append name (':' :: (space ++ (text ++ others)))
            (place.after '"')
          have here := takes space others (behind.after ':') white
            (endsNumber_pending '\x7d' (by decide) blank layout depth _ rest)
          have texts : memberTexts layout ((name, text) :: entries) =
              layout.member name text :: memberTexts layout entries := rfl
          rw [texts, pending_cons, written, fieldsFrom]
          simp only [List.append_assoc, List.cons_append]
          rw [reached, Outcome.ok_bind]
          simp only [if_true, advance, read, Outcome.ok_bind, known, colon_append]
          exact here.bind fun position =>
            inductionHypothesis (Nat.lt_of_succ_lt_succ enough) false position

/-- A written object is taken behind its brace. -/
theorem yields_fields {field : σ → String → Except Fault (Reader σ)} (layout : Layout)
    (depth : Nat) (rest : List Char) {state final : σ} {entries : List (String × List Char)}
    {readable fits : Prop} (take : FieldsTake field state entries readable fits final) {bound : Nat}
    (enough : (layout.enclose depth '{' '}' (memberTexts layout entries)).length ≤ bound)
    (position : Position) :
    Yields (fields bound field state
        ⟨layout.separate depth (memberTexts layout entries) ++
          (layout.ending depth (memberTexts layout entries) ++ '\x7d' :: rest), position⟩)
      readable fits final rest := by
  have some : ∀ part ∈ memberTexts layout entries, part ≠ [] :=
    List.forall_mem_map.mpr fun entry _ => layout.member_ne_nil entry.1 entry.2
  have count := Nat.le_trans (layout.count_le_enclose depth '{' '}' some) enough
  rw [memberTexts, List.length_map] at count
  exact yields_fieldsFrom layout depth (layout.blank_ending depth _) rest take
    (Nat.lt_succ_of_le count) true position

/-- How the members of an object with any names are taken. -/
def memberField (value : Reader α) (members : Members α) (name : String) :
    Except Fault (Reader (Members α)) :=
  .ok fun cursor => do
    let (value, cursor) ← value cursor
    .ok (members.insert name value, cursor)

section Objects

variable {reader : Reader α} (text : β → List Char) (readable fits : β → Prop) (change : β → α)

/-- Members with ascending names are put behind each other. -/
theorem fieldsTake_members (taken : Members α) {entries : Members β}
    (ordered : Members.Ordered (taken ++ entries.mapValues change))
    (takes : ∀ entry ∈ entries,
      Takes reader (text entry.2) (readable entry.2) (fits entry.2) (change entry.2)) :
    FieldsTake (memberField reader) taken (entries.mapValues text)
      (∀ entry ∈ entries, readable entry.2) (∀ entry ∈ entries, fits entry.2)
      (taken ++ entries.mapValues change) := by
  induction entries generalizing taken with
  | nil =>
      rw [Members.mapValues_nil, Members.mapValues_nil, List.append_nil]
      exact (FieldsTake.nil taken).congr (iff_true_intro (List.forall_mem_nil _))
        (iff_true_intro (List.forall_mem_nil _))
  | cons entry entries inductionHypothesis =>
      obtain ⟨takesHere, takeLater⟩ := List.forall_mem_cons.mp takes
      rw [Members.mapValues_cons] at ordered
      rw [Members.mapValues_cons, Members.mapValues_cons]
      have greatest : ∀ member ∈ taken, member.1 < entry.1 := fun member among =>
        (List.pairwise_append.mp ordered).2.2 member among _ List.mem_cons_self
      have order : taken ++ (entry.1, change entry.2) :: Members.mapValues change entries =
          taken.insert entry.1 (change entry.2) ++ Members.mapValues change entries := by
        rw [Members.insert_append greatest, List.append_assoc]
        rfl
      rw [order] at ordered ⊢
      have here := takesHere.map fun value => taken.insert entry.1 value
      exact (FieldsTake.cons rfl here (inductionHypothesis _ ordered takeLater)).congr
        List.forall_mem_cons List.forall_mem_cons

/-- A written object with any names is taken behind its brace. -/
theorem yields_members (layout : Layout) (depth : Nat) (rest : List Char) {entries : Members β}
    (ordered : Members.Ordered entries)
    (takes : ∀ entry ∈ entries,
      Takes reader (text entry.2) (readable entry.2) (fits entry.2) (change entry.2))
    {bound : Nat} (enough : (layout.enclose depth '{' '}'
      (memberTexts layout (entries.mapValues text))).length ≤ bound) (position : Position) :
    Yields (members bound reader
        ⟨layout.separate depth (memberTexts layout (entries.mapValues text)) ++
          (layout.ending depth (memberTexts layout (entries.mapValues text)) ++ '\x7d' :: rest),
          position⟩)
      (∀ entry ∈ entries, readable entry.2) (∀ entry ∈ entries, fits entry.2)
      (entries.mapValues change) rest :=
  yields_fields layout depth rest
    (fieldsTake_members text readable fits change [] (ordered.mapValues change) takes) enough
    position

end Objects

/-! ## Whole texts -/

/-- What a reader makes of a text that stands alone. -/
theorem Takes.alone {reader : Reader α} {text : List Char} {readable fits : Prop} {value : α}
    (takes : Takes reader text readable fits value) :
    Yields (reader (start (String.ofList text))) readable fits value [] := by
  have ends : EndsNumber [] := fun char never => by cases never
  have yields := takes [] [] .start (List.forall_mem_nil _) ends
  rw [List.nil_append, List.append_nil] at yields
  rwa [start, String.toList_ofList]

/-- A whole text is read from its first character on, and nothing may be left of it. -/
theorem readWhole_ofList (reader : Nat → Reader α) (text : List Char) :
    readWhole reader (String.ofList text) =
      reader text.length (start (String.ofList text)) >>= fun read =>
        read.2.finish >>= fun _ => .ok read.1 := by
  have whole : (start (String.ofList text)).rest = text := String.toList_ofList
  rw [readWhole, whole]

section Whole

variable {reader : Nat → Reader α} {text : List Char} {readable fits : Prop} {value : α}

/-- A text that a reader takes as a value is read as the value. -/
theorem Takes.readWhole (takes : Takes (reader text.length) text readable fits value)
    (able : readable) (holds : fits) :
    Cursor.readWhole reader (String.ofList text) = .ok value := by
  obtain ⟨position, read⟩ := takes.alone.reads able holds
  rw [readWhole_ofList, read]
  rfl

/-- A text that a reader refuses as too deep is refused as too deep. -/
theorem Takes.readWhole_tooDeep (takes : Takes (reader text.length) text readable fits value)
    (able : readable) (fails : ¬fits) :
    ∃ position, Cursor.readWhole reader (String.ofList text) =
      .error ⟨.tooDeep, some position⟩ := by
  obtain ⟨position, refused⟩ := takes.alone.tooDeep able fails
  refine ⟨position, ?_⟩
  rw [readWhole_ofList, refused]
  rfl

/-- A text that is not readable is refused. -/
theorem Takes.readWhole_refused (takes : Takes (reader text.length) text readable fits value)
    (unable : ¬readable) :
    ∃ refusal, Cursor.readWhole reader (String.ofList text) = .error refusal := by
  obtain ⟨refusal, refused⟩ := takes.alone.refuses unable
  refine ⟨refusal, ?_⟩
  rw [readWhole_ofList, refused]
  rfl

/-- A text that a reader takes as a value is read as nothing else. -/
theorem Takes.readWhole_eq_ok_iff (takes : Takes (reader text.length) text readable fits value)
    {result : α} :
    Cursor.readWhole reader (String.ofList text) = .ok result ↔
      readable ∧ fits ∧ value = result := by
  by_cases able : readable
  · by_cases holds : fits
    · simp [takes.readWhole able holds, able, holds]
    · obtain ⟨position, refused⟩ := takes.readWhole_tooDeep able holds
      simp [refused, holds]
  · obtain ⟨refusal, refused⟩ := takes.readWhole_refused able
    simp [refused, able]

end Whole

end Cursor

end Json

end Flowpress
