import Flowpress.Files.Tree
import Flowpress.Proofs.Outcome

/-!
# Reading what was put into a file

A walk through a tree passes directories only. So putting a file where there is no
directory leaves all walks that succeed as they are, and a path whose file was
replaced leads to the new text.
-/

namespace Flowpress.Files

theorem Path.steps_of_not_endsWithSlash {path : Path} (noSlash : path.endsWithSlash = false) :
    path.steps = path.parts := by
  rw [steps, noSlash]
  rfl

namespace Tree

theorem lookup_filter_ne {place other : Place} (differ : other ≠ place)
    (entries : List (Place × Entry)) :
    (entries.filter fun entry => entry.1 != place).lookup other = entries.lookup other := by
  induction entries with
  | nil => rfl
  | cons entry entries inductionHypothesis =>
      obtain ⟨found, content⟩ := entry
      by_cases same : found = place
      · subst same
        rw [List.filter_cons_of_neg (by simp), inductionHypothesis, List.lookup_cons,
          beq_false_of_ne differ]
      · rw [List.filter_cons_of_pos (by simpa using same), List.lookup_cons, List.lookup_cons,
          inductionHypothesis]

variable {tree : Tree} {place : Place}

theorem entry?_put_self (inside : place ≠ []) (entry : Entry) :
    entry? (tree.put place entry) place = some entry := by
  simp [put, entry?, inside]

theorem entry?_put_of_ne {other : Place} (differ : other ≠ place) (entry : Entry) :
    entry? (tree.put place entry) other = tree.entry? other := by
  unfold entry? put
  rw [List.lookup_cons, beq_false_of_ne differ, lookup_filter_ne differ]

/-- What was there is there behind a put, or what was put. -/
theorem exists_entry?_put {other : Place} {found : Entry} (there : tree.entry? other = some found)
    (entry : Entry) : ∃ now, entry? (tree.put place entry) other = some now := by
  by_cases root : other = []
  · exact ⟨.directory, if_pos root⟩
  · by_cases same : other = place
    · subst same
      exact ⟨entry, entry?_put_self root entry⟩
    · exact ⟨found, by rw [entry?_put_of_ne same, there]⟩

/-! ## Walks -/

/-- A walk goes on from where its first part ends. -/
theorem follow_append (start : Place) (first second : List String) :
    tree.follow start (first ++ second) =
      (tree.follow start first >>= fun reached => tree.follow reached second) := by
  induction first generalizing start with
  | nil => rfl
  | cons step steps inductionHypothesis =>
      rw [List.cons_append, follow, follow]
      cases tree.entry? start with
      | none => rfl
      | some entry =>
          cases entry with
          | file content => rfl
          | directory =>
              dsimp only
              split_ifs
              · exact inductionHypothesis start
              · exact inductionHypothesis start.dropLast
              · cases tree.entry? (start ++ [step]) with
                | none => rfl
                | some inner => exact inductionHypothesis (start ++ [step])

/-- A walk takes a step from a directory only. -/
theorem entry?_of_follow_cons {start reached : Place} {step : String} {steps : List String}
    (walk : tree.follow start (step :: steps) = .ok reached) :
    tree.entry? start = some .directory := by
  rw [follow] at walk
  split at walk
  · cases walk
  · cases walk
  · assumption

/-- A step by a dot checks that there is a directory. -/
theorem follow_dot_eq_ok {start reached : Place} (walk : tree.follow start ["."] = .ok reached) :
    start = reached ∧ tree.entry? start = some .directory := by
  have passed := entry?_of_follow_cons walk
  rw [follow, passed] at walk
  exact ⟨Except.ok.inj walk, passed⟩

/-- A step by a name leads to what the directory has under the name. -/
theorem follow_name {start : Place} {step : String} {steps : List String}
    (passed : tree.entry? start = some .directory) (name : step ≠ "." ∧ step ≠ "..") {found : Entry}
    (there : tree.entry? (start ++ [step]) = some found) :
    tree.follow start (step :: steps) = tree.follow (start ++ [step]) steps := by
  rw [follow, passed]
  dsimp only
  rw [if_neg name.1, if_neg name.2, there]

/-- Putting a file where no directory is breaks no walk. -/
theorem follow_put {start reached : Place} {steps : List String}
    (free : tree.entry? place ≠ some .directory) (content : ByteArray)
    (walk : tree.follow start steps = .ok reached) :
    (tree.put place (.file content)).follow start steps = .ok reached := by
  induction steps generalizing start with
  | nil => exact walk
  | cons step steps inductionHypothesis =>
      -- The walk leaves `start`, so there is a directory; the file is put elsewhere.
      have passed := entry?_of_follow_cons walk
      have other : start ≠ place := fun same => free (same ▸ passed)
      rw [follow, passed] at walk
      rw [follow, entry?_put_of_ne other, passed]
      dsimp only at walk ⊢
      split_ifs at walk ⊢
      · exact inductionHypothesis walk
      · exact inductionHypothesis walk
      · cases there : tree.entry? (start ++ [step]) with
        | none =>
            rw [there] at walk
            cases walk
        | some found =>
            rw [there] at walk
            obtain ⟨now, still⟩ := exists_entry?_put there (.file content)
            rw [still]
            exact inductionHypothesis walk

/-! ## Replacing a file -/

/-- The place of a path is found if there is a directory in front of its last part. -/
theorem locate_eq_ok {path : Path} {directory : Place} {last : String}
    (located : tree.locate path = .ok (directory, last)) :
    path.text ≠ "" ∧ tree.follow (tree.origin path) path.parts.dropLast = .ok directory ∧
      tree.entry? directory = some .directory ∧ path.parts.getLast?.getD "." = last := by
  unfold locate at located
  split_ifs at located with empty
  cases walk : tree.follow (tree.origin path) (path.parts.dropLast ++ ["."]) with
  | error error =>
      rw [walk] at located
      cases located
  | ok place =>
      rw [walk] at located
      obtain ⟨rfl, rfl⟩ := Prod.mk.inj (Except.ok.inj located)
      rw [follow_append] at walk
      obtain ⟨reached, front, stay⟩ := Outcome.bind_eq_ok_iff.mp walk
      obtain ⟨rfl, passed⟩ := follow_dot_eq_ok stay
      exact ⟨empty, front, passed, rfl⟩

/-- A path whose file was replaced leads to the new text. -/
theorem readText_replaceFile {path : Path} {text : String} {after : Tree}
    (replaced : tree.replaceFile path text = .ok after) : after.readText path = .ok text := by
  unfold replaceFile at replaced
  obtain ⟨⟨directory, last⟩, located, rest⟩ := Outcome.bind_eq_ok_iff.mp replaced
  simp only [Outcome.error_bind, Outcome.refuse_eq_ok_iff, not_or] at rest
  obtain ⟨name, noSlash, rest⟩ := rest
  obtain ⟨named, walk, passed, lastPart⟩ := locate_eq_ok located
  have free : tree.entry? (directory ++ [last]) ≠ some .directory := by
    intro taken
    rw [taken] at rest
    cases rest
  have put : tree.put (directory ++ [last]) (.file text.toUTF8) = after := by
    split at rest
    · contradiction
    · exact Except.ok.inj rest
  subst put
  have steps : path.steps = path.parts.dropLast ++ [last] := by
    rw [Path.steps_of_not_endsWithSlash (by simpa using noSlash)]
    cases split : path.parts.getLast? with
    | none =>
        rw [split] at lastPart
        exact absurd lastPart.symm name.1
    | some part =>
        rw [split] at lastPart
        obtain rfl : part = last := lastPart
        exact (List.dropLast_append_getLast? _ split).symm
  have inside : directory ++ [last] ≠ [] := by simp
  have other : directory ≠ directory ++ [last] := by simp
  have there := @entry?_put_self tree _ inside (.file text.toUTF8)
  have still := (entry?_put_of_ne other (.file text.toUTF8)).trans passed
  have resolved : (tree.put (directory ++ [last]) (.file text.toUTF8)).resolve path =
      .ok (directory ++ [last]) := by
    rw [resolve, if_neg named, steps, follow_append]
    have front := follow_put free text.toUTF8 walk
    have origin : (tree.put (directory ++ [last]) (.file text.toUTF8)).origin path =
        tree.origin path := rfl
    rw [origin, front, Outcome.ok_bind, follow_name still name there, follow]
  rw [readText, resolved, Outcome.ok_bind, there]
  have decoded : String.fromUTF8? text.toUTF8 = some text := by
    rw [String.fromUTF8?, String.toUTF8_eq_toByteArray, dif_pos text.isValidUTF8]
    rfl
  simp only [decoded]

end Tree

end Flowpress.Files
