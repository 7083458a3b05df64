/-
This file develops lists that are related entry by entry: what their pairs have in common is carried
from one list to the other.
-/

import Mathlib.Data.List.Forall2

namespace FleetMemory

namespace Pairings

section

variable {Left Right Common : Type} {relation : Left → Right → Prop} {left : List Left}
  {right : List Right}

theorem exists_of_mem_right (related : List.Forall₂ relation left right) {there : Right}
    (member : there ∈ right) : ∃ here ∈ left, relation here there := by
  induction related with
  | nil => cases member
  | @cons first second _ _ holds _ inductionHypothesis =>
    rcases List.mem_cons.mp member with rfl | later
    · exact ⟨first, List.mem_cons_self, holds⟩
    · obtain ⟨here, inside, relates⟩ := inductionHypothesis later
      exact ⟨here, List.mem_cons_of_mem _ inside, relates⟩

/-- What both entries of every pair show alike, the lists show alike. -/
theorem map_eq_map {readLeft : Left → Common} {readRight : Right → Common}
    (related : List.Forall₂ relation left right)
    (alike : ∀ here ∈ left, ∀ there, relation here there → readLeft here = readRight there) :
    left.map readLeft = right.map readRight := by
  induction related with
  | nil => rfl
  | cons holds _ inductionHypothesis =>
    rw [List.map_cons, List.map_cons, alike _ List.mem_cons_self _ holds,
      inductionHypothesis fun here member => alike here (List.mem_cons_of_mem _ member)]

/-- A list is read back from the one it is related to. -/
theorem map_eq_left {back : Right → Left} (related : List.Forall₂ relation left right)
    (undone : ∀ here ∈ left, ∀ there, relation here there → back there = here) :
    right.map back = left := by
  have same := @map_eq_map _ _ _ _ _ _ id back related fun here member there relates =>
    (undone here member there relates).symm
  rw [← same, List.map_id]

/-- What related entries agree on holds of all of one list exactly when it does of the other. -/
theorem forall_mem_iff {holdsLeft : Left → Prop} {holdsRight : Right → Prop}
    (agree : ∀ here there, relation here there → (holdsLeft here ↔ holdsRight there))
    (related : List.Forall₂ relation left right) :
    (∀ here ∈ left, holdsLeft here) ↔ ∀ there ∈ right, holdsRight there := by
  induction related with
  | nil => simp
  | cons first _ inductionHypothesis =>
    rw [List.forall_mem_cons, List.forall_mem_cons, agree _ _ first, inductionHypothesis]

end

end Pairings

end FleetMemory
