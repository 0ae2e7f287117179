import Flowpress.Proofs.Emission.Lines

/-!
# Which lists of segments are cut from a text

Cutting a text and putting its segments together again undo each other. A list of
segments is cut from some text exactly if it is `Regular`: numbered from zero, with
nothing but full segments in front of the last one, which alone is marked as final
and alone can say that a line feed ends the text. Two texts that differ only in a
line feed at their ends are told apart by that mark, and for the same reason the
last line of a text that does not end with a line feed is never empty.
-/

namespace Flowpress.Segment

/-! ## Lines of a text that is put together -/

/-- Lines that a text can have: none of them holds a line feed, and behind the last line feed stands
an empty line only if it is written as the end of the line before it. -/
structure Separable (terminated : Bool) (lines : List (List Char)) : Prop where
  clean : ∀ line ∈ lines, '\n' ∉ line
  closed : terminated = true → lines ≠ []
  visible : terminated = false → lines.getLast? ≠ some []

/-- A line feed ends the line in front of it. -/
theorem linesAfter_append_feed (line : List Char) {first : List Char} (clean : '\n' ∉ first)
    (rest : List Char) :
    linesAfter line (first ++ '\n' :: rest) = (line.reverse ++ first) :: linesAfter [] rest := by
  induction first generalizing line with
  | nil => simp [linesAfter]
  | cons char first inductionHypothesis =>
      obtain ⟨plain, others⟩ := List.ne_and_not_mem_of_not_mem_cons clean
      rw [List.cons_append, linesAfter, if_neg plain.symm, inductionHypothesis _ others]
      simp

/-- What stands behind the last line feed is a line unless it is empty. -/
theorem linesAfter_of_clean (line : List Char) {last : List Char} (clean : '\n' ∉ last) :
    linesAfter line last = if line.reverse ++ last = [] then [] else [line.reverse ++ last] := by
  induction last generalizing line with
  | nil => simp [linesAfter]
  | cons char last inductionHypothesis =>
      obtain ⟨plain, others⟩ := List.ne_and_not_mem_of_not_mem_cons clean
      rw [linesAfter, if_neg plain.symm, inductionHypothesis _ others]
      simp

/-- The lines of a text are the lines that it was put together from. -/
theorem linesAfter_flatten_pieces {terminated : Bool} {lines : List (List Char)}
    (separable : Separable terminated lines) :
    linesAfter [] (pieces terminated lines).flatten = lines := by
  obtain ⟨clean, -, visible⟩ := separable
  fun_induction pieces terminated lines with
  | case1 => rfl
  | case2 line =>
      have own : '\n' ∉ line := clean line List.mem_cons_self
      cases terminated with
      | true => simpa [linesAfter] using linesAfter_append_feed [] own []
      | false =>
          have filled : line ≠ [] := fun empty => visible rfl (by rw [empty]; rfl)
          simp [linesAfter_of_clean [] own, filled]
  | case3 line next rest inductionHypothesis =>
      have own : '\n' ∉ line := clean line List.mem_cons_self
      have others := inductionHypothesis (fun found among => clean found (.tail _ among))
        fun never => by simpa using visible never
      rw [List.flatten_cons, List.append_assoc, List.singleton_append,
        linesAfter_append_feed [] own, others]
      rfl

/-- A text ends with a line feed exactly if it was put together so. -/
theorem endsWithFeed_flatten_pieces {terminated : Bool} {lines : List (List Char)}
    (separable : Separable terminated lines) :
    endsWithFeed (pieces terminated lines).flatten = terminated := by
  obtain ⟨clean, closed, visible⟩ := separable
  rcases List.eq_nil_or_concat lines with rfl | ⟨init, last, rfl⟩
  · cases terminated with
    | true => exact absurd rfl (closed rfl)
    | false => rfl
  · rw [List.concat_eq_append] at clean visible ⊢
    rw [pieces_append terminated init (List.cons_ne_nil last []), List.flatten_append, endsWithFeed]
    cases terminated with
    | true => simp [pieces]
    | false =>
        have filled : last ≠ [] := by simpa using visible rfl
        have plain : last.getLast? ≠ some '\n' := fun feed =>
          clean last (by simp) (List.mem_of_getLast? feed)
        simpa [pieces, List.getLast?_append, List.getLast?_eq_some_getLast filled] using plain

/-- Only a line feed can leave an empty line behind it. -/
theorem endsWithFeed_of_getLast?_linesAfter {line rest : List Char}
    (empty : (linesAfter line rest).getLast? = some []) : endsWithFeed rest = true := by
  induction rest generalizing line with
  | nil =>
      rw [linesAfter] at empty
      split_ifs at empty with none
      · cases empty
      · exact absurd (by simpa using empty) (mt List.isEmpty_iff.mpr none)
  | cons char rest inductionHypothesis =>
      by_cases more : rest = []
      · subst more
        by_cases feed : char = '\n'
        · rw [feed]
          rfl
        · simp [linesAfter, feed] at empty
      · rw [endsWithFeed_cons char more]
        rw [linesAfter] at empty
        split_ifs at empty with feed
        · obtain ⟨next, others, split⟩ :=
            List.exists_cons_of_ne_nil (linesAfter_ne_nil [] (.inr more))
          rw [split, List.getLast?_cons_cons, ← split] at empty
          exact inductionHypothesis empty
        · exact inductionHypothesis empty

/-- The lines of a text are lines that a text can have. -/
theorem separable_linesAfter (text : List Char) :
    Separable (endsWithFeed text) (linesAfter [] text) where
  clean _ among := newline_not_mem_linesAfter List.not_mem_nil among
  closed ends := by
    refine linesAfter_ne_nil [] (.inr ?_)
    rintro rfl
    cases ends
  visible continues empty := by
    rw [endsWithFeed_of_getLast?_linesAfter empty] at continues
    cases continues

/-! ## Putting segments together -/

/-- Whether the last of some segments says that a line feed ends the text. -/
def terminates (segments : List Segment) : Bool :=
  segments.getLast?.any Segment.trailingTerminator

theorem intercalate_eq_flatten_pieces (terminated : Bool) {lines : List (List Char)}
    (filled : lines ≠ []) :
    ['\n'].intercalate lines ++ (if terminated then ['\n'] else []) =
      (pieces terminated lines).flatten := by
  fun_induction pieces terminated lines with
  | case1 => exact absurd rfl filled
  | case2 line => simp
  | case3 line next rest inductionHypothesis =>
      rw [List.intercalate_cons_cons, List.append_assoc, inductionHypothesis (List.cons_ne_nil _ _),
        List.flatten_cons]

/-- Segments are put together to the lines they hold with what follows each line. -/
theorem toList_reassemble {segments : List Segment}
    (closed : terminates segments = true → segments.flatMap Segment.lines ≠ []) :
    (reassemble segments).toList =
      (pieces (terminates segments)
        ((segments.flatMap Segment.lines).map String.toList)).flatten := by
  have joined : (reassemble segments).toList =
      ['\n'].intercalate ((segments.flatMap Segment.lines).map String.toList) ++
        if terminates segments then ['\n'] else [] := by
    rw [reassemble, terminates]
    cases segments.getLast? with
    | none => simp [String.toList_intercalate]
    | some last =>
        cases ends : last.trailingTerminator <;> simp [ends, String.toList_intercalate]
  rw [joined]
  by_cases none : segments.flatMap Segment.lines = []
  · have continues : terminates segments = false := by simpa using mt closed (not_not.mpr none)
    simp [none, continues, pieces]
  · exact intercalate_eq_flatten_pieces _ (mt List.map_eq_nil_iff.mp none)

/-! ## Groups -/

/-- Groups as large as they may be, up to the last one, which holds at least one element. -/
structure Packed {α : Type} (size : Nat) (chunks : List (List α)) : Prop where
  full : ∀ chunk ∈ chunks.dropLast, chunk.length = size + 1
  last : ∀ chunk ∈ chunks.getLast?, 1 ≤ chunk.length ∧ chunk.length ≤ size + 1

section Groups

variable {α : Type} {size : Nat}

theorem packed_groups (elements : List α) : Packed size (groups size elements) := by
  fun_induction groups size elements with
  | case1 => exact ⟨List.forall_mem_nil _, fun _ among => absurd among (Option.not_mem_none _)⟩
  | case2 first rest inductionHypothesis =>
      have least : 1 ≤ (first :: rest.take size).length := by simp
      have most : (first :: rest.take size).length ≤ size + 1 :=
        Nat.succ_le_succ (List.length_take_le size rest)
      cases others : groups size (rest.drop size) with
      | nil =>
          refine ⟨List.forall_mem_nil _, fun chunk among => ?_⟩
          obtain rfl := Option.some.inj among
          exact ⟨least, most⟩
      | cons next more =>
          rw [others] at inductionHypothesis
          have longer : size ≤ rest.length := by
            refine Nat.le_of_not_lt fun shorter => ?_
            rw [List.drop_eq_nil_of_le (Nat.le_of_lt shorter), groups] at others
            cases others
          refine ⟨?_, ?_⟩
          · rw [List.dropLast_cons_cons, List.forall_mem_cons]
            exact ⟨congrArg _ (List.length_take_of_le longer), inductionHypothesis.full⟩
          · rw [List.getLast?_cons_cons]
            exact inductionHypothesis.last

/-- Packed groups are the groups of their elements. -/
theorem groups_flatten {chunks : List (List α)} (packed : Packed size chunks) :
    groups size chunks.flatten = chunks := by
  induction chunks with
  | nil => rw [List.flatten_nil, groups]
  | cons chunk chunks inductionHypothesis =>
      cases chunks with
      | nil =>
          obtain ⟨least, most⟩ := packed.last chunk rfl
          obtain ⟨first, rest, rfl⟩ := List.exists_cons_of_length_pos least
          have fits : rest.length ≤ size := Nat.le_of_succ_le_succ most
          rw [List.flatten_singleton, groups, List.take_of_length_le fits,
            List.drop_eq_nil_of_le fits, groups]
      | cons next more =>
          have length : chunk.length = size + 1 := packed.full chunk List.mem_cons_self
          obtain ⟨first, rest, rfl⟩ := List.exists_cons_of_length_eq_add_one length
          have others := inductionHypothesis
            ⟨fun found among => packed.full found (.tail _ among), packed.last⟩
          have fits : rest.length = size := Nat.succ.inj length
          rw [List.flatten_cons, List.cons_append, groups, List.take_left' fits,
            List.drop_left' fits, others]

/-- There are as many groups as full ones are needed, the last one counted as full. -/
theorem length_groups (elements : List α) :
    (groups size elements).length = (elements.length + size) / (size + 1) := by
  fun_induction groups size elements with
  | case1 =>
      rw [List.length_nil, List.length_nil, Nat.zero_add, Nat.div_eq_of_lt (Nat.lt_succ_self size)]
  | case2 first rest inductionHypothesis =>
      rw [List.length_cons, inductionHypothesis, List.length_drop, List.length_cons]
      by_cases longer : size ≤ rest.length
      · have split : rest.length + 1 + size = rest.length - size + size + (size + 1) := by omega
        rw [split, Nat.add_div_right _ (Nat.succ_pos size)]
      · have none : rest.length - size + size < size + 1 := by omega
        have one : rest.length + 1 + size = rest.length + (size + 1) := by omega
        rw [Nat.div_eq_of_lt none, one, Nat.add_div_right _ (Nat.succ_pos size),
          Nat.div_eq_of_lt (by omega)]

end Groups

/-! ## Numbered segments -/

/-- Segments are numbered for their lines exactly if their indices ascend, the last one is marked
and says what is said of the text, and no other one is marked or says anything. -/
theorem eq_numbered_iff {terminated : Bool} {index : Nat} {segments : List Segment} :
    segments = numbered terminated index (segments.map Segment.lines) ↔
      segments.map Segment.index = List.range' index segments.length ∧
        (∀ segment ∈ segments.dropLast,
          segment.isFinal = false ∧ segment.trailingTerminator = false) ∧
        ∀ segment ∈ segments.getLast?,
          segment.isFinal = true ∧ segment.trailingTerminator = terminated := by
  induction segments generalizing index with
  | nil => simp [numbered]
  | cons segment segments inductionHypothesis =>
      obtain ⟨number, lines, isFinal, trailingTerminator⟩ := segment
      cases segments with
      | nil => simp [numbered]
      | cons next more =>
          rw [List.map_cons, List.map_cons, numbered, ← List.map_cons, List.cons.injEq,
            inductionHypothesis, @List.length_cons _ _ (next :: more), List.range'_succ,
            List.dropLast_cons_cons, List.forall_mem_cons, List.getLast?_cons_cons]
          simp only [Segment.mk.injEq, List.map_cons, List.cons.injEq]
          tauto

theorem map_lines_numbered (terminated : Bool) (index : Nat) (chunks : List (List String)) :
    (numbered terminated index chunks).map Segment.lines = chunks := by
  fun_induction numbered terminated index chunks with
  | case1 => rfl
  | case2 => rfl
  | case3 index lines next rest inductionHypothesis => rw [List.map_cons, inductionHypothesis]

theorem terminates_numbered (terminated : Bool) (index : Nat) {chunks : List (List String)}
    (filled : chunks ≠ []) : terminates (numbered terminated index chunks) = terminated := by
  fun_induction numbered terminated index chunks with
  | case1 => exact absurd rfl filled
  | case2 => rfl
  | case3 index lines next rest inductionHypothesis =>
      have others := inductionHypothesis (List.cons_ne_nil _ _)
      obtain ⟨second, more, split⟩ : ∃ second more,
          numbered terminated (index + 1) (next :: rest) = second :: more := by
        cases rest <;> exact ⟨_, _, rfl⟩
      rw [split] at others ⊢
      rwa [terminates, List.getLast?_cons_cons]

/-! ## Segments of a text -/

/-- Segments that a text can be cut into, with at most `bound` lines each. -/
structure Regular (bound : Nat) (segments : List Segment) : Prop where
  nonempty : segments ≠ []
  indices : segments.map Segment.index = List.range segments.length
  /-- Nothing is said of a segment that others follow. -/
  unmarked : ∀ segment ∈ segments.dropLast,
    segment.isFinal = false ∧ segment.trailingTerminator = false
  final : (segments.getLast nonempty).isFinal = true
  clean : ∀ segment ∈ segments, ∀ line ∈ segment.lines, '\n' ∉ line.toList
  /-- Either there is nothing at all, or only the last segment can have fewer lines than allowed,
  and its last line can be seen: it is not empty, or a line feed ends it. -/
  packed :
    (∃ segment, segments = [segment] ∧ segment.lines = [] ∧ segment.trailingTerminator = false) ∨
      (∀ segment ∈ segments.dropLast, segment.length = bound) ∧
        1 ≤ (segments.getLast nonempty).length ∧ (segments.getLast nonempty).length ≤ bound ∧
        ((segments.getLast nonempty).trailingTerminator = true ∨
          (segments.getLast nonempty).lines.getLast? ≠ some "")

/-- No regular segment has more lines than allowed. -/
theorem Regular.length_le {bound : Nat} {segments : List Segment}
    (regular : Regular bound segments) : ∀ segment ∈ segments, segment.length ≤ bound := by
  rcases regular.packed with ⟨segment, rfl, none, -⟩ | ⟨full, -, most, -⟩
  · rw [List.forall_mem_singleton, Segment.length, none]
    exact Nat.zero_le bound
  · intro segment among
    rw [← List.dropLast_append_getLast regular.nonempty] at among
    rcases List.mem_append.mp among with earlier | last
    · exact Nat.le_of_eq (full segment earlier)
    · rw [List.mem_singleton.mp last]
      exact most

/-- The lines of a text are lines that a text can have. -/
theorem separable_linesOf (text : String) :
    Separable (endsLine text) ((linesOf text).map String.toList) := by
  rw [map_toList_linesOf, endsLine_eq]
  exact separable_linesAfter text.toList

theorem chunksOf_of_linesOf_eq_nil {text : String} (empty : linesOf text = []) (size : Nat) :
    chunksOf text size = [[]] := by
  rw [chunksOf, empty, groups]

theorem chunksOf_of_linesOf_ne_nil {text : String} (filled : linesOf text ≠ []) (size : Nat) :
    chunksOf text size = groups size (linesOf text) := by
  rw [chunksOf]
  split
  · next none =>
      have flat := flatten_groups size (linesOf text)
      rw [none] at flat
      exact absurd flat.symm filled
  · rfl

theorem chunksOf_ne_nil (text : String) (size : Nat) : chunksOf text size ≠ [] := by
  rw [chunksOf]
  split
  · exact List.cons_ne_nil _ _
  · next filled => exact fun none => filled none

/-- The last line of some segments stands in the last one, if that has lines. -/
theorem getLast?_flatMap_lines {segments : List Segment} (nonempty : segments ≠ [])
    (filled : (segments.getLast nonempty).lines ≠ []) :
    (segments.flatMap Segment.lines).getLast? = (segments.getLast nonempty).lines.getLast? := by
  conv_lhs => rw [← List.dropLast_concat_getLast nonempty]
  rw [List.flatMap_append, List.flatMap_singleton, List.getLast?_append,
    List.getLast?_eq_some_getLast filled, Option.some_or]

theorem flatMap_lines_ne_nil {segments : List Segment} (nonempty : segments ≠ [])
    (filled : (segments.getLast nonempty).lines ≠ []) : segments.flatMap Segment.lines ≠ [] := by
  intro none
  have last := getLast?_flatMap_lines nonempty filled
  rw [none, List.getLast?_eq_some_getLast filled] at last
  cases last

/-- Cutting a text gives segments that a text can be cut into. -/
theorem regular_numbered (text : String) (size : Nat) :
    Regular (size + 1) (numbered (endsLine text) 0 (chunksOf text size)) := by
  obtain ⟨segments, same⟩ : ∃ segments,
      segments = numbered (endsLine text) 0 (chunksOf text size) := ⟨_, rfl⟩
  have chunks : segments.map Segment.lines = chunksOf text size := by
    rw [same, map_lines_numbered]
  have nonempty : segments ≠ [] := by
    rintro rfl
    exact chunksOf_ne_nil text size chunks.symm
  obtain ⟨indices, unmarked, marked⟩ := eq_numbered_iff.mp (chunks.symm ▸ same)
  obtain ⟨final, terminator⟩ := marked _ (List.getLast?_eq_some_getLast nonempty)
  have lines : segments.flatMap Segment.lines = linesOf text := by
    rw [same, flatMap_lines_numbered, flatten_chunksOf]
  have separable := separable_linesOf text
  rw [← same]
  refine ⟨nonempty, by rw [indices, List.range_eq_range'], unmarked, final, ?_, ?_⟩
  · intro segment among line inside
    refine separable.clean _ (List.mem_map_of_mem ?_)
    rw [← lines]
    exact List.mem_flatMap_of_mem among inside
  · by_cases empty : linesOf text = []
    · left
      have continues : endsLine text = false := Bool.eq_false_iff.mpr fun ends =>
        separable.closed ends (by rw [empty]; rfl)
      rw [chunksOf_of_linesOf_eq_nil empty, continues] at same
      exact ⟨_, same, rfl, rfl⟩
    · right
      rw [chunksOf_of_linesOf_ne_nil empty] at chunks
      have packed : Packed size (segments.map Segment.lines) :=
        chunks ▸ packed_groups (linesOf text)
      have last : (segments.getLast nonempty).lines ∈ (segments.map Segment.lines).getLast? := by
        rw [List.getLast?_map, List.getLast?_eq_some_getLast nonempty]
        rfl
      obtain ⟨least, most⟩ := packed.last _ last
      refine ⟨fun segment among => packed.full _ ?_, least, most, ?_⟩
      · rw [← List.map_dropLast]
        exact List.mem_map_of_mem among
      · rw [terminator, ← Bool.not_eq_false, ← imp_iff_not_or]
        intro continues invisible
        rw [← getLast?_flatMap_lines nonempty (List.ne_nil_of_length_pos least), lines] at invisible
        exact separable.visible continues (by rw [List.getLast?_map, invisible]; rfl)

/-- What is said of a text by segments that it can be cut into. -/
theorem Regular.terminates_eq {bound : Nat} {segments : List Segment}
    (regular : Regular bound segments) :
    terminates segments = (segments.getLast regular.nonempty).trailingTerminator := by
  rw [terminates, List.getLast?_eq_some_getLast regular.nonempty, Option.any_some]

/-- The lines of regular segments are lines that a text can have. -/
theorem Regular.separable {bound : Nat} {segments : List Segment}
    (regular : Regular bound segments) :
    Separable (terminates segments) ((segments.flatMap Segment.lines).map String.toList) where
  clean := by
    rw [List.forall_mem_map]
    intro line among
    obtain ⟨segment, inside, holds⟩ := List.mem_flatMap.mp among
    exact regular.clean segment inside line holds
  closed ends := by
    rcases regular.packed with ⟨segment, rfl, -, continues⟩ | ⟨-, least, -, -⟩
    · rw [terminates, List.getLast?_singleton, Option.any_some, continues] at ends
      cases ends
    · exact mt List.map_eq_nil_iff.mp
        (flatMap_lines_ne_nil regular.nonempty (List.ne_nil_of_length_pos least))
  visible continues invisible := by
    rcases regular.packed with ⟨segment, rfl, empty, -⟩ | ⟨-, least, -, ends | visible⟩
    · simp [empty] at invisible
    · rw [regular.terminates_eq, ends] at continues
      cases continues
    · refine visible ?_
      rw [← getLast?_flatMap_lines regular.nonempty (List.ne_nil_of_length_pos least)]
      rw [List.getLast?_map, Option.map_eq_some_iff] at invisible
      obtain ⟨line, last, empty⟩ := invisible
      rw [last, String.toList_eq_nil_iff.mp empty]

/-- Regular segments are those of the text that they are put together to. -/
theorem Regular.ofText_reassemble {bound : Nat} (positive : 0 < bound) {segments : List Segment}
    (regular : Regular bound segments) : ofText (reassemble segments) bound = .ok segments := by
  obtain ⟨size, rfl⟩ := Nat.exists_eq_add_one_of_ne_zero (Nat.ne_of_gt positive)
  have separable := regular.separable
  have text := toList_reassemble fun ends => mt List.map_eq_nil_iff.mpr (separable.closed ends)
  have ends : endsLine (reassemble segments) = terminates segments := by
    rw [endsLine_eq, text, endsWithFeed_flatten_pieces separable]
  have lines : linesOf (reassemble segments) = segments.flatMap Segment.lines := by
    rw [linesOf, text, linesAfter_flatten_pieces separable, List.map_map]
    simp [Function.comp_def]
  have chunks : chunksOf (reassemble segments) size = segments.map Segment.lines := by
    rcases regular.packed with ⟨segment, rfl, empty, -⟩ | ⟨full, least, most, -⟩
    · rw [chunksOf_of_linesOf_eq_nil (by simp [lines, empty]), List.map_singleton, empty]
    · have filled := flatMap_lines_ne_nil regular.nonempty (List.ne_nil_of_length_pos least)
      rw [chunksOf_of_linesOf_ne_nil (lines ▸ filled), lines, List.flatMap_def]
      refine groups_flatten ⟨?_, ?_⟩
      · rw [← List.map_dropLast]
        exact List.forall_mem_map.mpr full
      · rw [List.getLast?_map, List.getLast?_eq_some_getLast regular.nonempty]
        rintro chunk ⟨⟩
        exact ⟨least, most⟩
  rw [ofText_succ, ends, chunks]
  refine congrArg _ (eq_numbered_iff.mpr ⟨?_, regular.unmarked, ?_⟩).symm
  · rw [regular.indices, List.range_eq_range']
  · rw [List.getLast?_eq_some_getLast regular.nonempty]
    rintro segment ⟨⟩
    exact ⟨regular.final, regular.terminates_eq.symm⟩

/-- There are as many segments as are needed for the lines of the text, and at least one. -/
theorem length_chunksOf (text : String) (size : Nat) :
    (chunksOf text size).length = max 1 (((linesOf text).length + size) / (size + 1)) := by
  by_cases empty : linesOf text = []
  · rw [chunksOf_of_linesOf_eq_nil empty, empty, List.length_nil, Nat.zero_add,
      Nat.div_eq_of_lt (Nat.lt_succ_self size)]
    rfl
  · rw [chunksOf_of_linesOf_ne_nil empty, length_groups]
    have filled : 1 ≤ (linesOf text).length := List.length_pos_of_ne_nil empty
    refine (Nat.max_eq_right ?_).symm
    rw [Nat.le_div_iff_mul_le (Nat.succ_pos size)]
    omega

/-- The segments of a text are put together to the text. -/
theorem reassemble_numbered (text : String) (size : Nat) :
    reassemble (numbered (endsLine text) 0 (chunksOf text size)) = text := by
  have separable := separable_linesOf text
  have ends := terminates_numbered (endsLine text) 0 (chunksOf_ne_nil text size)
  have lines : (numbered (endsLine text) 0 (chunksOf text size)).flatMap Segment.lines =
      linesOf text := by
    rw [flatMap_lines_numbered, flatten_chunksOf]
  apply String.toList_injective
  rw [toList_reassemble, lines, ends, flatten_pieces_linesOf]
  rw [lines, ends]
  exact fun terminated => mt List.map_eq_nil_iff.mpr (separable.closed terminated)

/-- Cutting and putting together undo each other, and the regular lists of segments are all that
cutting gives. How many segments there are follows from the number of lines; which lines they hold,
and whether a line feed ends the last one, is the same for every bound. -/
theorem ofText_eq_ok_iff_regular (bound : Nat) (positive : 0 < bound) :
    (∀ text, ∃ segments, ofText text bound = .ok segments ∧ reassemble segments = text ∧
      segments.length = max 1 (((linesOf text).length + bound - 1) / bound) ∧
      segments.flatMap Segment.lines = linesOf text ∧ terminates segments = endsLine text) ∧
    ∀ segments, ((∃ text, ofText text bound = .ok segments) ↔ Regular bound segments) ∧
      (Regular bound segments → ofText (reassemble segments) bound = .ok segments) := by
  refine ⟨fun text => ?_, fun segments => ⟨⟨?_, ?_⟩, Regular.ofText_reassemble positive⟩⟩
  · obtain ⟨size, rfl⟩ := Nat.exists_eq_add_one_of_ne_zero (Nat.ne_of_gt positive)
    refine ⟨_, ofText_succ text size, reassemble_numbered text size, ?_, ?_, ?_⟩
    · rw [length_numbered, length_chunksOf, ← Nat.add_assoc, Nat.add_sub_cancel]
    · rw [flatMap_lines_numbered, flatten_chunksOf]
    · exact terminates_numbered _ _ (chunksOf_ne_nil text size)
  · obtain ⟨size, rfl⟩ := Nat.exists_eq_add_one_of_ne_zero (Nat.ne_of_gt positive)
    rintro ⟨text, cut⟩
    rw [ofText_succ] at cut
    exact Except.ok.inj cut ▸ regular_numbered text size
  · exact fun regular => ⟨_, regular.ofText_reassemble positive⟩

/-- A text that ends with two line feeds, cut into pairs of lines. -/
theorem blankLine_cut :
    0 < 2 ∧ Regular 2 [⟨0, ["a", "b"], false, false⟩, ⟨1, ["c", ""], true, true⟩] ∧
      ofText (reassemble [⟨0, ["a", "b"], false, false⟩, ⟨1, ["c", ""], true, true⟩]) 2 =
        .ok [⟨0, ["a", "b"], false, false⟩, ⟨1, ["c", ""], true, true⟩] ∧
      reassemble [⟨0, ["a", "b"], false, false⟩, ⟨1, ["c", ""], true, true⟩] = "a\nb\nc\n\n" := by
  obtain ⟨-, onto⟩ := ofText_eq_ok_iff_regular 2 (by decide)
  obtain ⟨image, inverse⟩ := onto [⟨0, ["a", "b"], false, false⟩, ⟨1, ["c", ""], true, true⟩]
  have regular := image.mp ⟨"a\nb\nc\n\n", by decide +kernel⟩
  exact ⟨by decide, regular, inverse regular, by decide⟩

end Flowpress.Segment
