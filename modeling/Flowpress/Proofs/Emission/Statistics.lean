import Flowpress.Emission.Statistics
import Flowpress.Pipeline.Session
import Flowpress.Proofs.Emission.Presentation
import Flowpress.Proofs.Emission.Tokens
import Flowpress.Proofs.Pipeline.Counting
import Flowpress.Proofs.Pipeline.Orders
import Flowpress.Proofs.Pipeline.Sums

/-!
# Statistics describe the text

The figures of a unit are figures about its text, whatever the number of lines that a
segment may have. The lengths of the lines are words, which is no loss as long as the
text has no more characters than there are words to count them; then their sum is the
number of characters but for the line feeds, and no part of it is out of range. The
sizes of all segments together are those of the text without its line feeds.

The three pipelines may share one view of the lengths: the first two are views of their
own, and only the sum consumes the shared one.
-/

namespace Flowpress

open Literal (byteLength byteLength_append byteLength_cons byteLength_toList)

/-! ## Lines without their line feeds -/

namespace Segment

/-- A text without its line feeds is shorter by one character for each of them. -/
theorem length_filter_feeds (text : List Char) :
    (text.filter (· ≠ '\n')).length + text.count '\n' = text.length := by
  induction text with
  | nil => rfl
  | cons char text inductionHypothesis =>
      by_cases feed : char = '\n'
      · subst feed
        rw [List.filter_cons_of_neg (by simp), List.count_cons_self, List.length_cons]
        omega
      · rw [List.filter_cons_of_pos (by simpa using feed), List.count_cons_of_ne feed,
          List.length_cons, List.length_cons]
        omega

/-- A text without its line feeds is shorter by one byte for each of them. -/
theorem byteLength_filter_feeds (text : List Char) :
    byteLength (text.filter (· ≠ '\n')) + text.count '\n' = byteLength text := by
  induction text with
  | nil => rfl
  | cons char text inductionHypothesis =>
      by_cases feed : char = '\n'
      · have one : '\n'.utf8Size = 1 := by decide
        subst feed
        rw [List.filter_cons_of_neg (by simp), List.count_cons_self, byteLength_cons, one]
        omega
      · rw [List.filter_cons_of_pos (by simpa using feed), List.count_cons_of_ne feed,
          byteLength_cons, byteLength_cons]
        omega

/-- No line has more characters than the lines together. -/
theorem length_le_flatten {lines : List String} {line : String} (among : line ∈ lines) :
    line.length ≤ (lines.map String.toList).flatten.length := by
  have member : line.toList ∈ lines.map String.toList := List.mem_map_of_mem among
  rw [← String.length_toList]
  exact (List.sublist_flatten_of_mem member).length_le

end Segment

/-! ## Three pipelines over one view -/

namespace View

variable {ε : Type}

/-- The order that puts the greatest word in front. -/
def descending (first second : Int64) : Ordering := Element.order second first

instance transCmp_descending : Std.TransCmp descending :=
  have natural : Std.TransCmp (Element.order : Int64 → Int64 → Ordering) := transCmp_order .long
  { eq_swap := natural.eq_swap
    isLE_trans := fun second first => natural.isLE_trans first second }

theorem isLE_descending_iff (first second : Int64) :
    (descending first second).isLE ↔ second.toInt ≤ first.toInt := by
  show (compare second.toInt first.toInt).isLE ↔ _
  exact Std.isLE_compare

/-- All words of a list. -/
def ofWords (words : List Int64) : View ε .long := ofSource (.items words)

/-- What counts the words that are zero. -/
def zeros (words : List Int64) : View ε .long :=
  (ofWords words).append (.filter fun word => .silent (decide (word = 0)))

/-- The words from the greatest down. -/
def fromGreatest (words : List Int64) : View ε .long :=
  (ofWords words).append (.sorted (some descending))

theorem collect_ofWords (words : List Int64) :
    (ofWords words : View ε .long).collect = .silent words :=
  collect_items _

theorem count_zeros (words : List Int64) :
    (zeros words : View ε .long).count.value = words.count 0 := by
  have items : (ofWords words : View ε .long).flow.items = words := by
    have collected : (ofWords words : View ε .long).collect = .silent words := collect_ofWords words
    rw [collect_eq] at collected
    exact congrArg Traced.value collected
  have kept : (zeros words : View ε .long).collect = _ := collect_append _ nofun
  rw [count_value, kept, Action.apply, Flow.items_filter, items, List.count_eq_length_filter]
  rfl

theorem first_fromGreatest (words : List Int64) :
    (fromGreatest words : View ε .long).first.value =
      (Flow.sortList descending words).head? := by
  have sorted : (fromGreatest words : View ε .long).collect = _ := collect_append_sorted _ _
  rw [first_value, sorted, collect_ofWords]
  rfl

/-- The first word from the greatest down is the greatest of them. -/
theorem first_fromGreatest_eq_some_iff (words : List Int64) (greatest : Int64) :
    (fromGreatest words : View ε .long).first.value = some greatest ↔
      greatest ∈ words ∧ ∀ word ∈ words, word.toInt ≤ greatest.toInt := by
  have stable : StableSort descending words (Flow.sortList descending words) :=
    sortList_isStable words
  obtain ⟨perm, ordered, -⟩ := stable
  rw [first_fromGreatest]
  cases sorted : Flow.sortList descending words with
  | nil =>
      rw [sorted] at perm
      simp [List.nil_perm.mp perm]
  | cons first others =>
      rw [sorted] at perm ordered
      have above : ∀ word ∈ words, word.toInt ≤ first.toInt := by
        intro word member
        rcases List.mem_cons.mp (perm.mem_iff.mpr member) with rfl | later
        · exact Int.le_refl _
        · exact (isLE_descending_iff _ _).mp ((List.pairwise_cons.mp ordered).1 word later)
      have among : first ∈ words := perm.mem_iff.mp List.mem_cons_self
      rw [List.head?_cons, Option.some.injEq]
      constructor
      · rintro rfl
        exact ⟨among, above⟩
      · rintro ⟨member, greatest⟩
        exact Int64.toInt_inj.mp (Int.le_antisymm (greatest first among) (above _ member))

end View

/-! ## Figures about lines -/

namespace GeneratedUnit

open View (ofWords zeros fromGreatest)

/-- The characters of all lines. -/
def lineCharacters (unit : GeneratedUnit) : List Char := (unit.lines.map String.toList).flatten

/-- There are words to count the characters of all lines. -/
def Countable (unit : GeneratedUnit) : Prop :=
  (unit.lineCharacters.length : Int) ≤ Int64.maxValue.toInt

variable {unit : GeneratedUnit}

/-- The length of a line is not lost. -/
theorem Countable.toInt_lineLength (countable : unit.Countable) {line : String}
    (among : line ∈ unit.lines) : (Int64.ofNat line.length).toInt = line.length := by
  have greatest : Int64.maxValue.toInt = 9223372036854775807 := by decide
  have fits : (line.length : Int) ≤ Int64.maxValue.toInt :=
    Int.le_trans (Int.ofNat_le.mpr (Segment.length_le_flatten among)) countable
  exact Int64.toInt_ofNat_of_lt (by omega)

theorem Countable.total_lineLengths (countable : unit.Countable) :
    Word.total unit.lineLengths = unit.lineCharacters.length := by
  have kept : ∀ line ∈ unit.lines, (Int64.ofNat line.length).toInt = line.length :=
    fun _ among => countable.toInt_lineLength among
  rw [lineLengths, lineCharacters]
  generalize unit.lines = lines at kept ⊢
  induction lines with
  | nil => rfl
  | cons line lines inductionHypothesis =>
      have others := inductionHypothesis fun other member =>
        kept other (List.mem_cons_of_mem _ member)
      have head : Word.toInt (Int64.ofNat line.length) = line.length := kept line List.mem_cons_self
      rw [List.map_cons, Word.total_cons, others, head, List.map_cons, List.flatten_cons,
        List.length_append, String.length_toList, Int.natCast_add]

theorem Countable.count_lineLengths (countable : unit.Countable) :
    unit.lineLengths.count 0 = unit.lines.count "" := by
  rw [lineLengths, List.count_eq_countP, List.countP_map, List.count_eq_countP]
  refine List.countP_congr fun line among => ?_
  have kept := countable.toInt_lineLength among
  have zero : Int64.ofNat line.length = 0 ↔ line = "" := by
    rw [← Int64.toInt_inj, kept, Int64.toInt_zero, Int.natCast_eq_zero, String.length_eq_zero_iff]
  simpa using zero

/-- The first length from the greatest down is that of the longest line. -/
theorem Countable.first_lineLengths {ε : Type} (countable : unit.Countable) :
    (fromGreatest unit.lineLengths : View ε .long).first.value =
      (unit.lines.map String.length).max?.map Int64.ofNat := by
  cases longest : (unit.lines.map String.length).max? with
  | none =>
      have empty : unit.lineLengths = [] := by
        rw [List.max?_eq_none_iff, List.map_eq_nil_iff] at longest
        rw [lineLengths, longest, List.map_nil]
      rw [empty, View.first_fromGreatest]
      simp [Flow.sortList]
  | some length =>
      obtain ⟨among, greatest⟩ := List.max?_eq_some_iff.mp longest
      obtain ⟨line, member, rfl⟩ := List.mem_map.mp among
      rw [Option.map_some, View.first_fromGreatest_eq_some_iff]
      refine ⟨List.mem_map_of_mem member, fun word found => ?_⟩
      obtain ⟨other, there, rfl⟩ := List.mem_map.mp found
      rw [countable.toInt_lineLength there, countable.toInt_lineLength member]
      exact Int.ofNat_le.mpr (greatest _ (List.mem_map_of_mem there))

theorem Countable.longest_lineLengths (countable : unit.Countable) :
    ((unit.lines.map String.length).max?.map Int64.ofNat |>.getD 0).toInt.toNat =
      (unit.lines.map String.length).max?.getD 0 := by
  cases longest : (unit.lines.map String.length).max? with
  | none => rfl
  | some length =>
      obtain ⟨among, -⟩ := List.max?_eq_some_iff.mp longest
      obtain ⟨line, member, rfl⟩ := List.mem_map.mp among
      rw [Option.map_some, Option.getD_some, countable.toInt_lineLength member, Int.toNat_natCast,
        Option.getD_some]

/-- The sum of the lengths is the number of characters. -/
theorem Countable.sum_lineLengths {ε : Type} (countable : unit.Countable) :
    ∃ sum, (ofWords unit.lineLengths : View ε .long).sum.value = .ok sum ∧
      sum.toInt = unit.lineCharacters.length := by
  have within : Word.StaysWithin unit.lineLengths := by
    refine Word.staysWithin_of_nonneg (fun word member => ?_) ?_
    · obtain ⟨line, among, rfl⟩ := List.mem_map.mp member
      exact (Int.natCast_nonneg line.length).trans_eq (countable.toInt_lineLength among).symm
    · rw [countable.total_lineLengths]
      exact countable
  obtain ⟨given, -⟩ := (ofWords unit.lineLengths : View ε .long).sumsExactly
  rw [View.collect_ofWords] at given
  obtain ⟨sum, given, same⟩ := given within
  exact ⟨sum, by rw [given], same.trans countable.total_lineLengths⟩

/-- The figures of a unit are figures about its lines. -/
theorem Countable.statistics_eq (countable : unit.Countable) :
    unit.statistics = .ok {
      total := unit.lines.length
      blank := unit.lines.count ""
      longest := (unit.lines.map String.length).max?.getD 0
      characters := unit.lineCharacters.length } := by
  obtain ⟨sum, given, characters⟩ : ∃ sum, unit.lengthView.sum.value = .ok sum ∧
      sum.toInt = unit.lineCharacters.length := countable.sum_lineLengths
  have blank : (zeros unit.lineLengths : View Empty .long).count.value = unit.lines.count "" := by
    rw [View.count_zeros, countable.count_lineLengths]
  have longest : (fromGreatest unit.lineLengths : View Empty .long).first.value =
      (unit.lines.map String.length).max?.map Int64.ofNat := countable.first_lineLengths
  have total : unit.lineLengths.length = unit.lines.length := List.length_map _
  unfold statistics
  dsimp only
  rw [given, Outcome.ok_bind, total, characters, ← countable.longest_lineLengths, ← longest,
    ← blank]
  rfl

/-! ## One session -/

/-- The steps that ask for the figures in one session. The view of the lengths is continued twice,
and what continues it is run, before it is run itself. -/
def inquiries (unit : GeneratedUnit) : List Step :=
  [.source "lengths" .long (.items unit.lineLengths),
    .append "lengths" "zeros" fun _ => .filter fun value => .silent (decide (value = Element.zero)),
    .terminal "zeros" .count,
    .append "lengths" "descending" fun _ =>
      .sorted (some fun first second => Element.order second first),
    .terminal "descending" .first,
    .terminal "lengths" .sum]

/-- No step is refused, and each gets the answer of its own view. -/
theorem run_inquiries (unit : GeneratedUnit) :
    Session.empty.run unit.inquiries =
      [.silent (.made .long 0 false), .silent (.made .long 1 false),
        Session.runTerminal (zeros unit.lineLengths) .count, .silent (.made .long 1 false),
        Session.runTerminal (fromGreatest unit.lineLengths) .first,
        Session.runTerminal (ofWords unit.lineLengths) .sum] := rfl

theorem Countable.answers_inquiries (countable : unit.Countable) :
    (Session.empty.run unit.inquiries).map Traced.value =
      [.made .long 0 false, .made .long 1 false, .count (unit.lines.count ""),
        .made .long 1 false,
        .optional ((unit.lines.map String.length).max?.map fun longest =>
          ⟨.long, Int64.ofNat longest⟩),
        .element ⟨.long, Int64.ofInt unit.lineCharacters.length⟩] := by
  have blank : (zeros unit.lineLengths : View Event .long).count.value = unit.lines.count "" := by
    rw [View.count_zeros, countable.count_lineLengths]
  have longest : (fromGreatest unit.lineLengths : View Event .long).first.value = _ :=
    countable.first_lineLengths
  obtain ⟨sum, given, characters⟩ : ∃ sum, (ofWords unit.lineLengths : View Event .long).sum.value =
      .ok sum ∧ sum.toInt = unit.lineCharacters.length := countable.sum_lineLengths
  rw [run_inquiries, ← characters, Int64.ofInt_toInt]
  simp only [List.map_cons, List.map_nil, Session.runTerminal, Traced.map, Traced.silent, blank,
    longest, given, Option.map_map]
  rfl

/-! ## Sizes of segments -/

/-- The sizes of lines add up to the size of their characters. -/
theorem bytes_lines (lines : List String) :
    (lines.map String.utf8ByteSize).foldl (· + ·) 0 =
      byteLength (lines.map String.toList).flatten := by
  rw [← List.sum_eq_foldl]
  induction lines with
  | nil => rfl
  | cons line lines inductionHypothesis =>
      rw [List.map_cons, List.sum_cons, inductionHypothesis, List.map_cons, List.flatten_cons,
        byteLength_append, byteLength_toList]

theorem bytes_segments (segments : List Segment) :
    (segments.map fun segment =>
        (segment.lines.map String.utf8ByteSize).foldl (· + ·) 0).foldl (· + ·) 0 =
      byteLength ((segments.flatMap Segment.lines).map String.toList).flatten := by
  rw [← List.sum_eq_foldl]
  induction segments with
  | nil => rfl
  | cons segment segments inductionHypothesis =>
      rw [List.map_cons, List.sum_cons, inductionHypothesis, bytes_lines, List.flatMap_cons,
        List.map_append, List.flatten_append, byteLength_append]

/-- A segment is laid out by what it holds. -/
theorem layout_unitOf (config : EmitterConfig) (text : String) :
    (Emitter.unitOf config text).layout = (Emitter.segmentsOf config text).map fun segment =>
      ⟨segment.index, config.partName segment.index, segment.length,
        (segment.lines.map String.utf8ByteSize).foldl (· + ·) 0⟩ := by
  have procedures : (Emitter.unitOf config text).procedures =
      (Emitter.unitOf config text).segments.map (Emitter.procedureOf config) := rfl
  rw [layout, procedures, List.zip_map_right, List.map_map]
  refine List.ext_getElem (by simp [Emitter.unitOf]) fun place _ _ => ?_
  simp [Emitter.unitOf, Emitter.procedureOf]

end GeneratedUnit

/-! ## The figures of a text -/

/-- The figures about a text. -/
def LineStatistics.ofText (text : String) : LineStatistics where
  total := (Segment.linesOf text).length
  blank := (Segment.linesOf text).count ""
  longest := ((Segment.linesOf text).map String.length).max?.getD 0
  characters := text.length - text.toList.count '\n'

namespace EmitterConfig

open Emitter (unitOf)

theorem lines_unitOf (config : EmitterConfig) (text : String) :
    (unitOf config text).lines = Segment.linesOf text :=
  Emitter.flatMap_lines_segmentsOf config text

theorem lineCharacters_unitOf (config : EmitterConfig) (text : String) :
    (unitOf config text).lineCharacters = text.toList.filter (· ≠ '\n') := by
  rw [GeneratedUnit.lineCharacters, lines_unitOf, Segment.flatten_linesOf]

theorem length_lineCharacters_unitOf (config : EmitterConfig) (text : String) :
    ((unitOf config text).lineCharacters.length : Int) =
      text.length - text.toList.count '\n' := by
  have split := Segment.length_filter_feeds text.toList
  rw [String.length_toList] at split
  rw [lineCharacters_unitOf]
  omega

theorem countable_unitOf (config : EmitterConfig) {text : String}
    (held : (text.length : Int) ≤ Int64.maxValue.toInt) : (unitOf config text).Countable := by
  rw [GeneratedUnit.Countable, length_lineCharacters_unitOf]
  omega

theorem statistics_unitOf (config : EmitterConfig) {text : String}
    (held : (text.length : Int) ≤ Int64.maxValue.toInt) :
    (unitOf config text).statistics = .ok (.ofText text) := by
  rw [(countable_unitOf config held).statistics_eq, lines_unitOf, length_lineCharacters_unitOf]
  rfl

/-- The segments have the lines of the text together. -/
theorem lines_layout_unitOf (config : EmitterConfig) (text : String) :
    ((unitOf config text).layout.map SegmentLayout.lines).foldl (· + ·) 0 =
      (Segment.linesOf text).length := by
  rw [GeneratedUnit.layout_unitOf, List.map_map]
  exact Emitter.lineCount_unitOf config text

/-- The segments have the bytes of the text together, but for the line feeds. -/
theorem bytes_layout_unitOf (config : EmitterConfig) (text : String) :
    ((unitOf config text).layout.map SegmentLayout.bytes).foldl (· + ·) 0 +
      text.toList.count '\n' = text.utf8ByteSize := by
  rw [GeneratedUnit.layout_unitOf, List.map_map]
  have sizes := GeneratedUnit.bytes_segments (Emitter.segmentsOf config text)
  rw [Emitter.flatMap_lines_segmentsOf, Segment.flatten_linesOf] at sizes
  rw [← byteLength_toList, ← Segment.byteLength_filter_feeds]
  exact congrArg (· + _) sizes

/-- The figures of a unit describe its text, whatever the number of lines that a segment may have.
They are given for every text that is held in memory, since none of these has more characters than
a signed word counts: the number of lines, one for each line feed and one more if the text does not
end with one; how many of them are empty; the greatest number of characters in a line; and the
number of characters but for the line feeds. The three pipelines that find them may run in one
session over one view of the lengths, and get the same figures there. The segments that are laid out
have all of the lines together, and the bytes of the text but for the line feeds. -/
theorem statistics_describe_text {config : EmitterConfig} {text : String} {unit : GeneratedUnit}
    (emitted : config.emit text = .ok unit)
    (held : (text.length : Int) ≤ Int64.maxValue.toInt) :
    let figures := LineStatistics.ofText text
    unit.statistics = .ok figures ∧
    figures.total =
      text.toList.count '\n' + (if text = "" ∨ Segment.endsLine text then 0 else 1) ∧
    (Session.empty.run unit.inquiries).map Traced.value =
      [.made .long 0 false, .made .long 1 false, .count figures.blank, .made .long 1 false,
        .optional (((Segment.linesOf text).map String.length).max?.map fun longest =>
          ⟨.long, Int64.ofNat longest⟩),
        .element ⟨.long, Int64.ofInt figures.characters⟩] ∧
    (unit.layout.map SegmentLayout.lines).foldl (· + ·) 0 = figures.total ∧
    (unit.layout.map SegmentLayout.bytes).foldl (· + ·) 0 + text.toList.count '\n' =
      text.utf8ByteSize ∧
    ∀ (other : EmitterConfig) (otherUnit : GeneratedUnit), other.emit text = .ok otherUnit →
      otherUnit.statistics = unit.statistics ∧
      (otherUnit.layout.map SegmentLayout.lines).foldl (· + ·) 0 =
        (unit.layout.map SegmentLayout.lines).foldl (· + ·) 0 ∧
      (otherUnit.layout.map SegmentLayout.bytes).foldl (· + ·) 0 =
        (unit.layout.map SegmentLayout.bytes).foldl (· + ·) 0 := by
  obtain ⟨-, -, rfl⟩ := (emit_eq_ok_iff config text unit).mp emitted
  have answers := (countable_unitOf config held).answers_inquiries
  rw [lines_unitOf, length_lineCharacters_unitOf] at answers
  have bytes := bytes_layout_unitOf config text
  refine ⟨statistics_unitOf config held, Segment.length_linesOf text, answers,
    lines_layout_unitOf config text, bytes, fun other otherUnit otherEmitted => ?_⟩
  obtain ⟨-, -, rfl⟩ := (emit_eq_ok_iff other text otherUnit).mp otherEmitted
  have otherBytes := bytes_layout_unitOf other text
  refine ⟨?_, ?_, by omega⟩
  · rw [statistics_unitOf other held, statistics_unitOf config held]
  · rw [lines_layout_unitOf, lines_layout_unitOf]

/-- A text with an empty line, a carriage return, a character of two bytes and an open end, cut into
pairs of lines and, in the other target, not at all. -/
theorem openEnd_described :
    twoLines.emit "é\r\n\n\nlast" = .ok (unitOf twoLines "é\r\n\n\nlast") ∧
    (("é\r\n\n\nlast".length : Int) ≤ Int64.maxValue.toInt) ∧
    (unitOf twoLines "é\r\n\n\nlast").statistics = .ok ⟨4, 2, 4, 6⟩ ∧
    (unitOf standard "é\r\n\n\nlast").statistics = .ok ⟨4, 2, 4, 6⟩ := by
  have emitted : twoLines.emit "é\r\n\n\nlast" = .ok (unitOf twoLines "é\r\n\n\nlast") :=
    (emit_eq_ok_iff ..).mpr ⟨by decide, by decide, rfl⟩
  have otherEmitted : standard.emit "é\r\n\n\nlast" = .ok (unitOf standard "é\r\n\n\nlast") :=
    (emit_eq_ok_iff ..).mpr ⟨by decide, by decide, rfl⟩
  have held : (("é\r\n\n\nlast".length : Int) ≤ Int64.maxValue.toInt) := by decide
  obtain ⟨figures, -, -, -, -, others⟩ := statistics_describe_text emitted held
  have same : LineStatistics.ofText "é\r\n\n\nlast" = ⟨4, 2, 4, 6⟩ := by decide
  rw [same] at figures
  exact ⟨emitted, held, figures, (others standard _ otherEmitted).1.trans figures⟩

end EmitterConfig

end Flowpress
