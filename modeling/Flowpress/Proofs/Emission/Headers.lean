import Mathlib.Data.List.TakeWhile
import Flowpress.Emission.Source
import Flowpress.Proofs.Emission.Literals
import Flowpress.Proofs.Emission.Names

/-!
# The name of a unit in the header

The header of a file says in a comment what the unit is called. `behindComment`
reads a comment as the language of the target does, up to the first character
that ends a line there, and the question is whether it stops at the line feed
that the file itself writes. The characters that `Source.onOneLine` replaces are
the control characters of Unicode: they hold every end of a line of the first
target, but not the two separators that end a line in the second target as well.
-/

namespace Flowpress

namespace Target

/-- The characters that end a line, and a comment that runs to the end of its line. -/
def lineEnds : Target → List Char
  | .rust => ['\n', '\r']
  | .typeScript => ['\n', '\r', '\u2028', '\u2029']

/-- The separators of lines and of paragraphs, which are no control characters. -/
def separators : List Char := ['\u2028', '\u2029']

/-- What the language of a target reads behind a comment, of which the beginning is read. -/
def behindComment (target : Target) (text : List Char) : List Char :=
  text.dropWhile (· ∉ target.lineEnds)

/-- A text without any end of a line. -/
def InLine (target : Target) (text : String) : Prop := ∀ char ∈ text.toList, char ∉ target.lineEnds

instance (target : Target) (text : String) : Decidable (target.InLine text) :=
  inferInstanceAs (Decidable (∀ char ∈ text.toList, char ∉ target.lineEnds))

theorem newline_mem_lineEnds (target : Target) : '\n' ∈ target.lineEnds := by
  cases target <;> decide

theorem not_isControl_separator {char : Char} (separator : char ∈ separators) :
    Source.isControl char = false := by
  revert char
  decide

theorem separator_mem_lineEnds {char : Char} (separator : char ∈ separators) :
    char ∈ lineEnds .typeScript := by
  revert char
  decide

/-- What ends a line is a control character, or a separator in the second target. -/
theorem mem_lineEnds {target : Target} {char : Char} (ends : char ∈ target.lineEnds) :
    Source.isControl char ∨ target = .typeScript ∧ char ∈ separators := by
  revert char
  cases target <;> decide

variable {target : Target}

/-- A comment without any end of a line reaches up to the line feed behind it. -/
theorem behindComment_of_inLine {comment : String} (inside : target.InLine comment)
    (rest : List Char) :
    target.behindComment (comment.toList ++ '\n' :: rest) = '\n' :: rest := by
  have whole : ∀ char ∈ comment.toList, decide (char ∉ target.lineEnds) = true := by
    simpa [InLine] using inside
  rw [behindComment, List.dropWhile_append_of_pos whole, List.dropWhile_cons_of_neg]
  simpa using newline_mem_lineEnds target

/-- A comment with an end of a line stops there, and what it was to say stands behind it. -/
theorem behindComment_of_not_inLine {comment : String} (outside : ¬target.InLine comment)
    (rest : List Char) :
    ∃ before char after, comment.toList = before ++ char :: after ∧ char ∈ target.lineEnds ∧
      target.behindComment (comment.toList ++ rest) = char :: after ++ rest := by
  have some : comment.toList.dropWhile (· ∉ target.lineEnds) ≠ [] := by
    intro none
    refine outside fun char member => ?_
    simpa using List.dropWhile_eq_nil_iff.mp none char member
  obtain ⟨char, after, found⟩ := List.exists_cons_of_ne_nil some
  refine ⟨comment.toList.takeWhile (· ∉ target.lineEnds), char, after, ?_, ?_, ?_⟩
  · rw [← found, List.takeWhile_append_dropWhile]
  · have stop := List.head?_dropWhile_not (fun char => decide (char ∉ target.lineEnds))
      comment.toList
    rw [found] at stop
    simpa using stop
  · rw [behindComment, List.dropWhile_append, if_neg (by simpa using some), found]

end Target

namespace Source

open Target (separators)

/-- What stands in front of the summary, the mark of its comment included. -/
def opening : Target → String
  | .rust => "//! @generated by strata-codegen. Do not edit.\n//!\n//! "
  | .typeScript => "// @generated by strata-codegen. Do not edit.\n// "

/-- The declaration of the lazily built text in the first target. -/
def cell : String :=
  "\nuse std::sync::OnceLock;\n\nstatic METADATA: OnceLock<String> = OnceLock::new();\n\n"

/-- What stands below the line of the summary. -/
def below (config : EmitterConfig) (procedures : List Procedure) : String :=
  match config.target with
  | .rust =>
    cell ++
      "/// The reassembled serialized metadata.\npub fn metadata() -> &'static str \x7b\n" ++
      "    METADATA.get_or_init(" ++ config.driverName ++ ")\n\x7d" ++ "\n\n" ++
      ofSections (Rust.driver config procedures :: procedures.map (Rust.part config))
  | .typeScript =>
    "\n" ++ ofSections (procedures.map (TypeScript.part config) ++
      [TypeScript.driver config procedures])

theorem ofSections_cons (first : String) {rest : List String} (some : rest ≠ []) :
    ofSections (first :: rest) = first ++ "\n\n" ++ ofSections rest := by
  obtain ⟨second, rest, rfl⟩ := List.exists_cons_of_ne_nil some
  simp only [ofSections, String.intercalate_cons_cons, String.append_assoc]

/-- The line of the summary is the only one that the name of the unit has a part in. -/
theorem file_eq (config : EmitterConfig) (procedures : List Procedure) :
    file config procedures =
      opening config.target ++ summary config procedures ++ "\n" ++ below config procedures := by
  unfold file below opening
  cases config.target with
  | rust =>
      unfold Rust.file Rust.header
      have feed :
          "\n\nuse std::sync::OnceLock;\n\nstatic METADATA: OnceLock<String> = OnceLock::new();\n\n" =
            "\n" ++ cell := by
        decide +kernel
      rw [ofSections_cons _ (List.cons_ne_nil _ _), feed]
      simp only [String.append_assoc, -String.reduceAppend]
  | typeScript =>
      unfold TypeScript.file TypeScript.header
      have feed : "\n\n" = "\n" ++ "\n" := by decide +kernel
      rw [ofSections_cons _ (by simp), feed]
      simp only [String.append_assoc, -String.reduceAppend]

/-! ## The characters of the summary -/

/-- What all texts of a header but the name of the unit consist of. -/
def IsPrintable (char : Char) : Prop := 0x20 ≤ char.toNat ∧ char.toNat < 0x7f

instance (char : Char) : Decidable (IsPrintable char) :=
  inferInstanceAs (Decidable (0x20 ≤ char.toNat ∧ char.toNat < 0x7f))

theorem isPrintable_toString (count : Nat) : ∀ char ∈ (toString count).toList, IsPrintable char := by
  rw [Nat.toString_eq_ofList_toDigits, String.toList_ofList]
  intro digit member
  have decimal := Nat.isDigit_of_mem_toDigits (by decide) (by decide) member
  have least : 48 ≤ digit.toNat := (Char.isDigit_iff_toNat.mp decimal).1
  have greatest : digit.toNat ≤ 57 := (Char.isDigit_iff_toNat.mp decimal).2
  exact ⟨by omega, by omega⟩

/-- Of a property that all printable characters have, the summary has as much as the name of the
unit in it. -/
theorem forall_mem_summary_iff {property : Char → Prop}
    (printable : ∀ char, IsPrintable char → property char) (config : EmitterConfig)
    (procedures : List Procedure) :
    (∀ char ∈ (summary config procedures).toList, property char) ↔
      ∀ char ∈ (onOneLine config.unitName).toList, property char := by
  unfold summary
  have fixed {text : String} (all : ∀ char ∈ text.toList, IsPrintable char) :
      ∀ char ∈ text.toList, property char := fun char member => printable char (all char member)
  have front := @fixed "Serialized metadata for `" (by decide +kernel)
  have parts := @fixed "`, split into " (by decide +kernel)
  have bound := @fixed " part(s) of at most " (by decide +kernel)
  have last := @fixed " lines." (by decide +kernel)
  have count := fixed (isPrintable_toString procedures.length)
  have size := fixed (isPrintable_toString config.maxLines)
  simp only [String.toList_append, List.forall_mem_append]
  exact ⟨fun all => all.1.1.1.1.1.2,
    fun name => ⟨⟨⟨⟨⟨⟨front, name⟩, parts⟩, count⟩, bound⟩, size⟩, last⟩⟩

theorem not_isControl_onOneLine (text : String) :
    ∀ char ∈ (onOneLine text).toList, isControl char = false := by
  unfold onOneLine
  rw [String.toList_ofList, List.forall_mem_map]
  intro char _
  split_ifs with control
  · decide
  · simpa using control

theorem not_isControl_summary (config : EmitterConfig) (procedures : List Procedure) :
    ∀ char ∈ (summary config procedures).toList, isControl char = false := by
  refine (forall_mem_summary_iff (fun char printable => ?_) config procedures).mpr
    (not_isControl_onOneLine _)
  obtain ⟨least, greatest⟩ := printable
  rw [isControl, decide_eq_false_iff_not]
  omega

/-- Separators are kept, and none comes in. -/
theorem separator_mem_onOneLine_iff {char : Char} (separator : char ∈ separators) (text : String) :
    char ∈ (onOneLine text).toList ↔ char ∈ text.toList := by
  unfold onOneLine
  rw [String.toList_ofList, List.mem_map]
  constructor
  · rintro ⟨source, member, same⟩
    split_ifs at same with control
    · subst same
      exact absurd separator (by decide)
    · exact same ▸ member
  · exact fun member => ⟨char, member, by simp [Target.not_isControl_separator separator]⟩

/-- What ends a line in the summary is a separator in the second target. -/
theorem lineEnd_mem_summary {config : EmitterConfig} {procedures : List Procedure} {char : Char}
    (member : char ∈ (summary config procedures).toList) {target : Target}
    (ends : char ∈ target.lineEnds) : target = .typeScript ∧ char ∈ separators := by
  refine (Target.mem_lineEnds ends).resolve_left fun control => ?_
  rw [not_isControl_summary config procedures char member] at control
  cases control

theorem inLine_summary_iff (config : EmitterConfig) (procedures : List Procedure)
    (target : Target) :
    target.InLine (summary config procedures) ↔
      (target = .typeScript → ∀ char ∈ config.unitName.toList, char ∉ separators) := by
  have printable (char : Char) (range : IsPrintable char) : char ∉ separators := by
    rintro member
    rcases List.mem_pair.mp member with rfl | rfl <;> revert range <;> decide
  have name : (∀ char ∈ (summary config procedures).toList, char ∉ separators) ↔
      ∀ char ∈ config.unitName.toList, char ∉ separators := by
    rw [forall_mem_summary_iff printable]
    constructor
    · intro clean char member separator
      exact clean char ((separator_mem_onOneLine_iff separator _).mpr member) separator
    · intro clean char member separator
      exact clean char ((separator_mem_onOneLine_iff separator _).mp member) separator
  rw [← name]
  constructor
  · rintro inside rfl char member separator
    exact inside char member (Target.separator_mem_lineEnds separator)
  · intro clean char member ends
    obtain ⟨typeScript, separator⟩ := lineEnd_mem_summary member ends
    exact clean typeScript char member separator

/-- The name of a unit shows in the line of the summary and nowhere else. It stays in the comment of
this line unless it holds a separator in the second target: then the comment ends at the separator,
and the rest of the summary stands outside. -/
theorem unitName_contained_iff (config : EmitterConfig) (procedures : List Procedure) :
    file config procedures =
      opening config.target ++ summary config procedures ++ "\n" ++ below config procedures ∧
    (∀ name? : Option String,
      below { config with unitName? := name? } procedures = below config procedures) ∧
    (config.target.InLine (summary config procedures) ↔
      (config.target = .typeScript → ∀ char ∈ config.unitName.toList, char ∉ separators)) ∧
    let comment := (summary config procedures).toList
    let rest := '\n' :: (below config procedures).toList
    (config.target.InLine (summary config procedures) ∧
        config.target.behindComment (comment ++ rest) = rest ∨
      ∃ before separator after, comment = before ++ separator :: after ∧
        separator ∈ separators ∧
        config.target.behindComment (comment ++ rest) = separator :: after ++ rest) := by
  refine ⟨file_eq config procedures, fun _ => rfl,
    inLine_summary_iff config procedures config.target, ?_⟩
  by_cases inLine : config.target.InLine (summary config procedures)
  · exact .inl ⟨inLine, Target.behindComment_of_inLine inLine _⟩
  · obtain ⟨before, char, after, split, ends, behind⟩ :=
      Target.behindComment_of_not_inLine inLine ('\n' :: (below config procedures).toList)
    have member : char ∈ (summary config procedures).toList := by simp [split]
    exact .inr ⟨before, char, after, split, (lineEnd_mem_summary member ends).2, behind⟩

/-- A name that has a separator in front of a statement. -/
def separated : EmitterConfig :=
  { EmitterConfig.ofTarget .typeScript with unitName? := some "a\u2028alert(1);//" }

/-- Not every summary stays in its comment. -/
theorem separated_leaves_comment :
    ¬(∀ (config : EmitterConfig) (procedures : List Procedure),
      config.target.InLine (summary config procedures)) ∧
    separated.Valid ∧
    separated.target.behindComment (summary separated []).toList =
      "\u2028alert(1);//`, split into 0 part(s) of at most 100 lines.".toList := by
  have outside : ¬separated.target.InLine (summary separated []) := by decide +kernel
  exact ⟨fun all => outside (all separated []), by decide, by decide +kernel⟩

end Source

end Flowpress
