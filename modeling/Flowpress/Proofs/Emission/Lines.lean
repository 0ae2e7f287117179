import Mathlib.Data.List.Basic
import Flowpress.Emission.Segment

/-!
# Lines and segments of a text

The lines of a text give it back if each of them is followed by a line feed, the
last one only if the text ends with one. Cutting the lines into segments keeps
them in order, and numbers the segments. So the text is what the segments hold,
one after another, where every segment but the last one ends its last line.
-/

namespace Flowpress.Segment

/-! ## Lines -/

/-- The lines of a text with what follows each of them: a line feed, and behind the last line only
if the text ends with one. -/
def pieces (terminated : Bool) : List (List Char) → List (List Char)
  | [] => []
  | [line] => [line ++ if terminated then ['\n'] else []]
  | line :: next :: rest => (line ++ ['\n']) :: pieces terminated (next :: rest)

/-- Lines in front of others are all followed by a line feed. -/
theorem pieces_append (terminated : Bool) (first : List (List Char)) {second : List (List Char)}
    (more : second ≠ []) :
    pieces terminated (first ++ second) = pieces true first ++ pieces terminated second := by
  induction first with
  | nil => rfl
  | cons line first inductionHypothesis =>
      cases first with
      | nil =>
          obtain ⟨next, rest, rfl⟩ := List.exists_cons_of_ne_nil more
          rfl
      | cons next first =>
          rw [List.cons_append, List.cons_append, pieces, ← List.cons_append,
            inductionHypothesis, pieces, List.cons_append]

@[simp] theorem length_pieces (terminated : Bool) (lines : List (List Char)) :
    (pieces terminated lines).length = lines.length := by
  fun_induction pieces terminated lines <;> simp_all

/-- A line feed follows every line but the last one of a text that does not end with one. -/
theorem getElem?_pieces (terminated : Bool) (lines : List (List Char)) (place : Nat) :
    (pieces terminated lines)[place]? = lines[place]?.map fun line =>
      line ++ if !terminated && place + 1 == lines.length then [] else ['\n'] := by
  fun_induction pieces terminated lines generalizing place with
  | case1 => simp
  | case2 line => cases place <;> cases terminated <;> simp
  | case3 line next rest inductionHypothesis =>
      cases place with
      | zero => simp
      | succ place => simp [inductionHypothesis]

/-- Whether a text ends with a line feed, character by character. -/
def endsWithFeed (text : List Char) : Bool := text.getLast? == some '\n'

theorem endsWithFeed_cons (char : Char) {rest : List Char} (more : rest ≠ []) :
    endsWithFeed (char :: rest) = endsWithFeed rest := by
  obtain ⟨next, rest, rfl⟩ := List.exists_cons_of_ne_nil more
  rw [endsWithFeed, endsWithFeed, List.getLast?_cons_cons]

/-- The first line begins with what was read of it. -/
theorem exists_linesAfter_eq (line : List Char) {rest : List Char} (some : line ≠ [] ∨ rest ≠ []) :
    ∃ more others, linesAfter line rest = (line.reverse ++ more) :: others := by
  induction rest generalizing line with
  | nil =>
      have filled : line ≠ [] := by simpa using some
      exact ⟨[], [], by simp [linesAfter, filled]⟩
  | cons char rest inductionHypothesis =>
      rw [linesAfter]
      split_ifs
      · exact ⟨[], linesAfter [] rest, by rw [List.append_nil]⟩
      · obtain ⟨more, others, split⟩ :=
          inductionHypothesis (char :: line) (.inl (List.cons_ne_nil _ _))
        exact ⟨char :: more, others, by simpa using split⟩

theorem linesAfter_ne_nil (line : List Char) {rest : List Char} (some : line ≠ [] ∨ rest ≠ []) :
    linesAfter line rest ≠ [] := by
  obtain ⟨more, others, split⟩ := exists_linesAfter_eq line some
  rw [split]
  exact List.cons_ne_nil _ _

/-- Lines with what follows them are the text. -/
theorem flatten_pieces_linesAfter (line rest : List Char) :
    (pieces (endsWithFeed rest) (linesAfter line rest)).flatten = line.reverse ++ rest := by
  induction rest generalizing line with
  | nil =>
      rw [linesAfter]
      split_ifs with empty
      · simp [List.isEmpty_iff.mp empty, pieces]
      · simp [pieces, endsWithFeed]
  | cons char rest inductionHypothesis =>
      rw [linesAfter]
      by_cases more : rest = []
      · subst more
        by_cases feed : char = '\n'
        · simp [feed, linesAfter, pieces, endsWithFeed]
        · simp [feed, linesAfter, pieces, endsWithFeed]
      · rw [endsWithFeed_cons char more]
        by_cases feed : char = '\n'
        · obtain ⟨next, others, split⟩ :=
            List.exists_cons_of_ne_nil (linesAfter_ne_nil [] (.inr more))
          rw [if_pos feed, split, pieces, ← split, List.flatten_cons, inductionHypothesis]
          simp [feed]
        · rw [if_neg feed, inductionHypothesis]
          simp

/-- The lines of a text hold its characters but for the line feeds. -/
theorem flatten_linesAfter (line rest : List Char) :
    (linesAfter line rest).flatten = line.reverse ++ rest.filter (· ≠ '\n') := by
  induction rest generalizing line with
  | nil =>
      rw [linesAfter]
      split_ifs with empty
      · simp [List.isEmpty_iff.mp empty]
      · simp
  | cons char rest inductionHypothesis =>
      rw [linesAfter]
      by_cases feed : char = '\n'
      · rw [if_pos feed, List.flatten_cons, inductionHypothesis]
        simp [feed]
      · rw [if_neg feed, inductionHypothesis]
        simp [feed]

/-- No line holds a line feed. -/
theorem newline_not_mem_linesAfter {line rest found : List Char} (clean : '\n' ∉ line)
    (member : found ∈ linesAfter line rest) : '\n' ∉ found := by
  intro inside
  have among : '\n' ∈ (linesAfter line rest).flatten := List.mem_flatten_of_mem member inside
  rw [flatten_linesAfter, List.mem_append] at among
  rcases among with before | behind
  · exact clean (List.mem_reverse.mp before)
  · simp at behind

/-- A character of a text other than a line feed stands in one of its lines, and the lines hold
nothing else. -/
theorem mem_linesAfter {line rest : List Char} {char : Char} (plain : char ≠ '\n') :
    (∃ found ∈ linesAfter line rest, char ∈ found) ↔ char ∈ line ∨ char ∈ rest := by
  rw [← List.mem_flatten, flatten_linesAfter, List.mem_append, List.mem_reverse, List.mem_filter]
  simp [plain]

/-- Every line feed ends a line, and what stands behind the last one is a line unless it is empty. -/
theorem length_linesAfter (line rest : List Char) :
    (linesAfter line rest).length =
      rest.count '\n' + if line = [] ∧ rest = [] ∨ endsWithFeed rest then 0 else 1 := by
  induction rest generalizing line with
  | nil =>
      rw [linesAfter]
      cases line <;> simp [endsWithFeed]
  | cons char rest inductionHypothesis =>
      rw [linesAfter]
      by_cases more : rest = []
      · subst more
        by_cases feed : char = '\n' <;> simp [feed, linesAfter, endsWithFeed]
      · rw [endsWithFeed_cons char more]
        by_cases feed : char = '\n'
        · simp [feed, inductionHypothesis, more]
          omega
        · simp [feed, inductionHypothesis, more]

theorem endsLine_eq (text : String) : endsLine text = endsWithFeed text.toList := rfl

theorem map_toList_linesOf (text : String) :
    (linesOf text).map String.toList = linesAfter [] text.toList := by
  simp [linesOf, Function.comp_def]

theorem flatten_linesOf (text : String) :
    ((linesOf text).map String.toList).flatten = text.toList.filter (· ≠ '\n') := by
  rw [map_toList_linesOf, flatten_linesAfter, List.reverse_nil, List.nil_append]

/-- A text has one line for each line feed, and one more if it does not end with one. -/
theorem length_linesOf (text : String) :
    (linesOf text).length =
      text.toList.count '\n' + if text = "" ∨ endsLine text then 0 else 1 := by
  rw [linesOf, List.length_map, length_linesAfter]
  exact congrArg _ (if_congr (by simp [endsLine_eq]) rfl rfl)

/-- The lines of a text with what follows them are the text. -/
theorem flatten_pieces_linesOf (text : String) :
    (pieces (endsLine text) ((linesOf text).map String.toList)).flatten = text.toList := by
  rw [map_toList_linesOf, endsLine_eq, flatten_pieces_linesAfter]
  rfl

/-! ## Segments -/

theorem flatten_groups {α : Type} (size : Nat) (elements : List α) :
    (groups size elements).flatten = elements := by
  fun_induction groups size elements with
  | case1 => rfl
  | case2 first rest inductionHypothesis =>
      rw [List.flatten_cons, inductionHypothesis, List.cons_append, List.take_append_drop]

theorem ne_nil_of_mem_groups {α : Type} {size : Nat} {elements group : List α}
    (member : group ∈ groups size elements) : group ≠ [] := by
  fun_induction groups size elements with
  | case1 => cases member
  | case2 first rest inductionHypothesis =>
      rcases List.mem_cons.mp member with rfl | later
      · exact List.cons_ne_nil _ _
      · exact inductionHypothesis later

/-- The segments of chunks of lines, of which the first one has the number `index`. -/
def numbered (terminated : Bool) (index : Nat) : List (List String) → List Segment
  | [] => []
  | [lines] => [⟨index, lines, true, terminated⟩]
  | lines :: next :: rest =>
    ⟨index, lines, false, false⟩ :: numbered terminated (index + 1) (next :: rest)

/-- The chunks of the lines of a text: at least one, and no empty one beside others. -/
def chunksOf (text : String) (size : Nat) : List (List String) :=
  match groups size (linesOf text) with
  | [] => [[]]
  | chunks => chunks

theorem numbered_eq_map (terminated : Bool) (index total : Nat) (chunks : List (List String))
    (fits : index + chunks.length = total) :
    (chunks.zipIdx index).map (fun (lines, index) =>
        let isFinal := decide (index + 1 = total)
        ({ index, lines, isFinal, trailingTerminator := isFinal && terminated } : Segment)) =
      numbered terminated index chunks := by
  fun_induction numbered terminated index chunks with
  | case1 index => rfl
  | case2 index lines =>
      obtain rfl : index + 1 = total := fits
      simp
  | case3 index lines next rest inductionHypothesis =>
      have later : index + 1 ≠ total := by
        simp only [List.length_cons] at fits
        omega
      rw [List.zipIdx_cons, List.map_cons, inductionHypothesis (by simp at fits ⊢; omega)]
      simp [later]

/-- Cutting a text gives the numbered segments of its chunks. -/
theorem ofText_succ (text : String) (size : Nat) :
    ofText text (size + 1) = .ok (numbered (endsLine text) 0 (chunksOf text size)) := by
  rw [← numbered_eq_map (endsLine text) 0 (chunksOf text size).length (chunksOf text size)
    (Nat.zero_add _)]
  rfl

theorem flatten_chunksOf (text : String) (size : Nat) :
    (chunksOf text size).flatten = linesOf text := by
  rw [chunksOf]
  split
  · next none => simpa [none] using (flatten_groups size (linesOf text))
  · exact flatten_groups size (linesOf text)

/-- The lines of a segment with what follows them. Only the last segment can leave a line open. -/
def contents (segment : Segment) : List (List Char) :=
  pieces (!segment.isFinal || segment.trailingTerminator) (segment.lines.map String.toList)

/-- What numbered segments hold is what their chunks hold together, if no chunk behind the first one
is empty. -/
theorem flatMap_contents_numbered (terminated : Bool) (index : Nat) (chunks : List (List String))
    (filled : ∀ chunk ∈ chunks.tail, chunk ≠ []) :
    (numbered terminated index chunks).flatMap contents =
      pieces terminated (chunks.flatten.map String.toList) := by
  fun_induction numbered terminated index chunks with
  | case1 index => rfl
  | case2 index lines => simp [contents]
  | case3 index lines next rest inductionHypothesis =>
      have more : ((next :: rest).flatten.map String.toList) ≠ [] := by
        have some : next ≠ [] := filled next List.mem_cons_self
        simp [some]
      have others := inductionHypothesis fun chunk member =>
        filled chunk (List.mem_of_mem_tail member)
      have all : (lines :: next :: rest).flatten.map String.toList =
          lines.map String.toList ++ (next :: rest).flatten.map String.toList := by
        simp
      rw [List.flatMap_cons, others, all, pieces_append terminated _ more]
      rfl

theorem filled_chunksOf (text : String) (size : Nat) :
    ∀ chunk ∈ (chunksOf text size).tail, chunk ≠ [] := by
  intro chunk member
  rw [chunksOf] at member
  split at member
  · cases member
  · exact ne_nil_of_mem_groups (List.mem_of_mem_tail member)

/-- The segments of a text hold its lines with what follows them. -/
theorem flatMap_contents_ofText (text : String) (size : Nat) :
    (numbered (endsLine text) 0 (chunksOf text size)).flatMap contents =
      pieces (endsLine text) ((linesOf text).map String.toList) := by
  rw [flatMap_contents_numbered _ _ _ (filled_chunksOf text size), flatten_chunksOf]

/-- What a numbered segment says by its place. -/
theorem getElem?_numbered {terminated : Bool} {chunks : List (List String)} {index : Nat}
    {segment : Segment} (found : (numbered terminated 0 chunks)[index]? = some segment) :
    segment.index = index ∧ segment.isFinal = decide (index + 1 = chunks.length) ∧
      segment.trailingTerminator = (segment.isFinal && terminated) := by
  rw [← numbered_eq_map terminated 0 chunks.length chunks (Nat.zero_add _), List.getElem?_map,
    List.getElem?_zipIdx, Option.map_map, Option.map_eq_some_iff] at found
  obtain ⟨lines, -, rfl⟩ := found
  simp

theorem map_index_numbered (terminated : Bool) (index : Nat) (chunks : List (List String)) :
    (numbered terminated index chunks).map Segment.index = List.range' index chunks.length := by
  fun_induction numbered terminated index chunks with
  | case1 index => rfl
  | case2 index lines => rfl
  | case3 index lines next rest inductionHypothesis =>
      rw [List.map_cons, inductionHypothesis, List.length_cons (a := lines), List.range'_succ]

theorem length_numbered (terminated : Bool) (index : Nat) (chunks : List (List String)) :
    (numbered terminated index chunks).length = chunks.length := by
  have lengths := congrArg List.length (map_index_numbered terminated index chunks)
  simpa using lengths

theorem flatMap_lines_numbered (terminated : Bool) (index : Nat) (chunks : List (List String)) :
    (numbered terminated index chunks).flatMap Segment.lines = chunks.flatten := by
  fun_induction numbered terminated index chunks <;> simp_all

end Flowpress.Segment
