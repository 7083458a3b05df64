/-
This file proves what the split at headings gives. The sections are the text cut in pieces:
one behind the other they are the text again, every section but the last ends its line, and
every section behind the first starts with a heading and holds no other.
-/

import FleetMemory.Chunker

namespace FleetMemory

/-! ### The lines of the sections -/

theorem gatherSections_ne_nil {current lines : List String} (some_line : current ++ lines ≠ []) :
    gatherSections current lines ≠ [] := by
  induction lines generalizing current with
  | nil =>
    rw [List.append_nil] at some_line
    rw [gatherSections, if_neg some_line]
    exact List.cons_ne_nil _ _
  | cons line rest inductionHypothesis =>
    rw [gatherSections]
    split
    · split
      · exact inductionHypothesis (by simp)
      · exact List.cons_ne_nil _ _
    · exact inductionHypothesis (by simp)

/-- A text with any line in it is never treated as one section without lines. -/
theorem splitIntoSections_eq (text : String) :
    splitIntoSections text = gatherSections [] (Text.split '\n' text) := by
  have some_section : gatherSections [] (Text.split '\n' text) ≠ [] :=
    gatherSections_ne_nil (by simpa using Text.split_ne_nil '\n' text)
  rw [splitIntoSections]
  split
  · rename_i none
    exact absurd none some_section
  · rfl

theorem flatMap_gatherSections {current lines : List String} (some_line : current ++ lines ≠ []) :
    (gatherSections current lines).flatMap String.toList =
      (Text.join '\n' (current ++ lines)).toList := by
  induction lines generalizing current with
  | nil =>
    rw [List.append_nil] at some_line ⊢
    rw [gatherSections, if_neg some_line]
    simp
  | cons line rest inductionHypothesis =>
    rw [gatherSections]
    split
    · split
      · rename_i empty
        rw [inductionHypothesis (by simp), empty]
        rfl
      · rename_i nonempty
        rw [List.flatMap_cons, inductionHypothesis (by simp),
          Text.toList_join_append '\n' nonempty (by simp)]
        simp
    · rw [inductionHypothesis (by simp)]
      simp

/-- The sections, one behind the other, are the text. -/
theorem join_splitIntoSections (text : String) : String.join (splitIntoSections text) = text := by
  apply String.toList_inj.mp
  rw [String.toList_join, splitIntoSections_eq,
    flatMap_gatherSections (by simpa using Text.split_ne_nil '\n' text), List.nil_append,
    Text.join_split]

/-- Every section but the last ends its line. -/
theorem ends_of_mem_dropLast {current lines : List String} {text : String}
    (member : text ∈ (gatherSections current lines).dropLast) :
    text.toList.getLast? = some '\n' := by
  induction lines generalizing current with
  | nil =>
    rw [gatherSections] at member
    split at member <;> cases member
  | cons line rest inductionHypothesis =>
    rw [gatherSections] at member
    split at member
    · split at member
      · exact inductionHypothesis member
      · rw [List.dropLast_cons_of_ne_nil (gatherSections_ne_nil (by simp))] at member
        rcases List.mem_cons.mp member with rfl | later
        · simp
        · exact inductionHypothesis later
    · exact inductionHypothesis member

/-! ### Headings -/

/-- A text that starts with a heading line and holds no other. -/
def Headed (text : String) : Prop :=
  ∃ heading rest, Text.split '\n' text = heading :: rest ∧ isHeading heading = true ∧
    ∀ line ∈ rest, isHeading line = false

theorem headed_join {heading : String} {others : List String} (starts : isHeading heading = true)
    (plain : ∀ line ∈ others, isHeading line = false)
    (free : ∀ line ∈ heading :: others, '\n' ∉ line.toList) :
    Headed (Text.join '\n' (heading :: others)) :=
  ⟨heading, others, Text.split_join '\n' _ (List.cons_ne_nil _ _) free, starts, plain⟩

/-- The line feed behind a section adds an empty line to it. -/
theorem headed_join_feed {heading : String} {others : List String}
    (starts : isHeading heading = true) (plain : ∀ line ∈ others, isHeading line = false)
    (free : ∀ line ∈ heading :: others, '\n' ∉ line.toList) :
    Headed (Text.join '\n' (heading :: others) ++ "\n") := by
  have feed : Text.join '\n' (heading :: others) ++ "\n" =
      Text.join '\n' (heading :: (others ++ [""])) := by
    apply String.toList_inj.mp
    rw [← List.cons_append, Text.toList_join_append '\n' (List.cons_ne_nil _ _) (by simp)]
    simp [Text.join_singleton]
  rw [feed]
  refine headed_join starts ?_ ?_
  · intro line member
    rcases List.mem_append.mp member with inside | last
    · exact plain line inside
    · rw [List.mem_singleton.mp last]
      decide
  · intro line member
    rw [← List.cons_append] at member
    rcases List.mem_append.mp member with inside | last
    · exact free line inside
    · rw [List.mem_singleton.mp last]
      decide

/-- The sections gathered from a heading on start each with a heading. -/
theorem headed_of_mem_gatherSections {heading : String} {others lines : List String}
    (starts : isHeading heading = true) (plain : ∀ line ∈ others, isHeading line = false)
    (free : ∀ line ∈ heading :: others ++ lines, '\n' ∉ line.toList) {text : String}
    (member : text ∈ gatherSections (heading :: others) lines) : Headed text := by
  induction lines generalizing heading others with
  | nil =>
    rw [List.append_nil] at free
    rw [gatherSections, if_neg (List.cons_ne_nil _ _), List.mem_singleton] at member
    rw [member]
    exact headed_join starts plain free
  | cons line rest inductionHypothesis =>
    rw [gatherSections] at member
    split at member
    · rename_i next
      rw [if_neg (List.cons_ne_nil _ _)] at member
      rcases List.mem_cons.mp member with rfl | later
      · exact headed_join_feed starts plain fun other inside =>
          free other (List.mem_append_left _ inside)
      · exact inductionHypothesis next (by simp)
          (fun other inside => free other (List.mem_append_right _ (by simpa using inside))) later
    · rename_i ordinary
      rw [Bool.not_eq_true] at ordinary
      refine inductionHypothesis starts ?_ ?_ member
      · intro other inside
        rcases List.mem_append.mp inside with earlier | last
        · exact plain other earlier
        · rw [List.mem_singleton.mp last]
          exact ordinary
      · intro other inside
        exact free other (by simpa using inside)

theorem headed_of_mem_tail {current lines : List String}
    (free : ∀ line ∈ lines, '\n' ∉ line.toList) {text : String}
    (member : text ∈ (gatherSections current lines).tail) : Headed text := by
  induction lines generalizing current with
  | nil =>
    rw [gatherSections] at member
    split at member <;> cases member
  | cons line rest inductionHypothesis =>
    rw [gatherSections] at member
    split at member
    · rename_i next
      have inside : text ∈ gatherSections [line] rest := by
        split at member
        · exact List.mem_of_mem_tail member
        · exact member
      exact headed_of_mem_gatherSections next (by simp) (by simpa using free) inside
    · exact inductionHypothesis (fun other later => free other (List.mem_cons_of_mem _ later))
        member

/-- Every section behind the first starts with a heading and holds no other. -/
theorem headed_of_mem_splitIntoSections {text part : String}
    (member : part ∈ (splitIntoSections text).tail) : Headed part := by
  rw [splitIntoSections_eq] at member
  exact headed_of_mem_tail (fun line inside => Text.not_mem_of_mem_split inside) member

end FleetMemory
