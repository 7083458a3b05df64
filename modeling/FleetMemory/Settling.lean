/-
This file is a small library of jobs made of steps, where a step that was applied once
settles: applied again it changes nothing, and no other step of the job unsettles it. Such
a job may be broken off after any of its steps and started again, any number of times: a
whole run still ends where a whole run from the start ends.
-/

import Mathlib.Data.List.Basic

namespace Settling

variable {State Step : Type}

/-- The steps of a job settle, on the states of an invariant they keep. -/
structure Settles (apply : State → Step → State) (invariant : State → Prop)
    (settled : Step → State → Prop) (steps : List Step) : Prop where
  keeps : ∀ step ∈ steps, ∀ state, invariant state → invariant (apply state step)
  still : ∀ step ∈ steps, ∀ state, invariant state → settled step state → apply state step = state
  reached : ∀ step ∈ steps, ∀ state, invariant state → settled step (apply state step)
  kept : ∀ step ∈ steps, ∀ other ∈ steps, ∀ state, invariant state →
    settled step state → settled step (apply state other)

variable {apply : State → Step → State} {invariant : State → Prop}
  {settled : Step → State → Prop} {steps more : List Step} {state : State}

namespace Settles

theorem sublist (settles : Settles apply invariant settled steps) (fewer : more ⊆ steps) :
    Settles apply invariant settled more where
  keeps step member := settles.keeps step (fewer member)
  still step member := settles.still step (fewer member)
  reached step member := settles.reached step (fewer member)
  kept step member other inside := settles.kept step (fewer member) other (fewer inside)

theorem invariant_foldl (settles : Settles apply invariant settled steps)
    (holds : invariant state) : invariant (steps.foldl apply state) := by
  induction steps generalizing state with
  | nil => exact holds
  | cons step rest inductionHypothesis =>
    exact inductionHypothesis (settles.sublist (List.subset_cons_self step rest))
      (settles.keeps step List.mem_cons_self state holds)

/-- Steps that are settled change nothing. -/
theorem foldl_of_settled (settles : Settles apply invariant settled steps)
    (holds : invariant state) (all : ∀ step ∈ steps, settled step state) :
    steps.foldl apply state = state := by
  induction steps with
  | nil => rfl
  | cons step rest inductionHypothesis =>
    rw [List.foldl_cons, settles.still step List.mem_cons_self state holds
      (all step List.mem_cons_self)]
    exact inductionHypothesis (settles.sublist (List.subset_cons_self step rest))
      fun other member => all other (List.mem_cons_of_mem step member)

/-- A settled step stays settled over a run. -/
theorem kept_foldl (settles : Settles apply invariant settled steps) (fewer : more ⊆ steps)
    (holds : invariant state) {step : Step} (member : step ∈ steps) (before : settled step state) :
    settled step (more.foldl apply state) := by
  induction more generalizing state with
  | nil => exact before
  | cons other rest inductionHypothesis =>
    have inside := fewer List.mem_cons_self
    exact inductionHypothesis (fun later present => fewer (List.mem_cons_of_mem other present))
      (settles.keeps other inside state holds)
      (settles.kept step member other inside state holds before)

/-- After a run all of its steps are settled. -/
theorem settled_foldl (settles : Settles apply invariant settled steps) (fewer : more ⊆ steps)
    (holds : invariant state) {step : Step} (member : step ∈ more) :
    settled step (more.foldl apply state) := by
  induction more generalizing state with
  | nil => cases member
  | cons first rest inductionHypothesis =>
    have inside := fewer List.mem_cons_self
    have holdsNext := settles.keeps first inside state holds
    have rests : rest ⊆ steps := fun later present => fewer (List.mem_cons_of_mem first present)
    rcases List.mem_cons.mp member with rfl | later
    · exact settles.kept_foldl rests holdsNext inside (settles.reached step inside state holds)
    · exact inductionHypothesis rests holdsNext later

/-- A run after some of its first steps ends where the run ends. -/
theorem foldl_take (settles : Settles apply invariant settled steps) (holds : invariant state)
    (count : Nat) :
    steps.foldl apply ((steps.take count).foldl apply state) = steps.foldl apply state := by
  have fewer : steps.take count ⊆ steps := List.take_subset count steps
  have firsts := settles.sublist fewer
  have again : (steps.take count).foldl apply ((steps.take count).foldl apply state) =
      (steps.take count).foldl apply state :=
    firsts.foldl_of_settled (firsts.invariant_foldl holds)
      fun step member => settles.settled_foldl fewer holds member
  calc steps.foldl apply ((steps.take count).foldl apply state)
      = (steps.take count ++ steps.drop count).foldl apply
          ((steps.take count).foldl apply state) := by rw [List.take_append_drop]
    _ = (steps.drop count).foldl apply ((steps.take count).foldl apply state) := by
        rw [List.foldl_append, again]
    _ = (steps.take count ++ steps.drop count).foldl apply state := by rw [List.foldl_append]
    _ = steps.foldl apply state := by rw [List.take_append_drop]

/-- The state after runs that were broken off, each after a number of steps. -/
def brokenOff (apply : State → Step → State) (steps : List Step) (state : State)
    (counts : List Nat) : State :=
  counts.foldl (fun reached count => (steps.take count).foldl apply reached) state

theorem invariant_brokenOff (settles : Settles apply invariant settled steps)
    (holds : invariant state) (counts : List Nat) :
    invariant (brokenOff apply steps state counts) := by
  induction counts generalizing state with
  | nil => exact holds
  | cons count rest inductionHypothesis =>
    exact inductionHypothesis
      ((settles.sublist (List.take_subset count steps)).invariant_foldl holds)

/-- A whole run after broken-off runs ends where a whole run from the start ends. -/
theorem foldl_brokenOff (settles : Settles apply invariant settled steps)
    (holds : invariant state) (counts : List Nat) :
    steps.foldl apply (brokenOff apply steps state counts) = steps.foldl apply state := by
  induction counts generalizing state with
  | nil => rfl
  | cons count rest inductionHypothesis =>
    have next := (settles.sublist (List.take_subset count steps)).invariant_foldl holds
    exact (inductionHypothesis next).trans (settles.foldl_take holds count)

/-- One more whole run changes nothing. -/
theorem foldl_foldl (settles : Settles apply invariant settled steps) (holds : invariant state) :
    steps.foldl apply (steps.foldl apply state) = steps.foldl apply state :=
  settles.foldl_of_settled (settles.invariant_foldl holds)
    fun _ member => settles.settled_foldl (List.Subset.refl steps) holds member

end Settles

end Settling
