/-
This file is a small library of programs that share a store and take turns, one call at a
time. A run is a run of the transitions library, labelled by who called what, so its rules
are those of that library; a program that runs alone takes its turns one after another.
-/

import FleetMemory.Program
import FleetMemory.Transitions
import Mathlib.Logic.Function.Basic

namespace StoreProgram

open Transitions

variable {Index Place Value Query Item Fault Result State : Type} [DecidableEq Index]

/-- The first call of a program, when it succeeds: the call, what is left of the program and the
store after the call. -/
def Program.step? (world : World Place Value Query Item State) :
    Program Place Value Query Item Fault Result → State →
      Option (Call Place Value Query × Program Place Value Query Item Fault Result × State)
  | done _, _ => none
  | aget place next, state => some (.aget place, next (.ok (world.get state place)), state)
  | asearch query next, state => some (.asearch query, next (.ok (world.search state query)), state)
  | aput place value next, state =>
    some (.aput place value, next (.ok ()), world.put state place value)

/-- Programs and the store they share. -/
structure Configuration (Index Place Value Query Item Fault Result State : Type) where
  programs : Index → Program Place Value Query Item Fault Result
  state : State

/-- One of the programs makes its next call. -/
inductive Turn (world : World Place Value Query Item State) :
    Configuration Index Place Value Query Item Fault Result State →
      Index × Call Place Value Query →
        Configuration Index Place Value Query Item Fault Result State → Prop
  | call {programs : Index → Program Place Value Query Item Fault Result} {state after : State}
      {program : Program Place Value Query Item Fault Result} {call : Call Place Value Query}
      (index : Index) (steps : (programs index).step? world state = some (call, program, after)) :
      Turn world ⟨programs, state⟩ (index, call) ⟨Function.update programs index program, after⟩

variable {world : World Place Value Query Item State}

/-- A program that has ended takes no turn. -/
theorem programs_eq_of_done {index : Index} {outcome : Outcome Fault Result}
    {start final : Configuration Index Place Value Query Item Fault Result State}
    {labels : List (Index × Call Place Value Query)} (run : Run (Turn world) start labels final)
    (ended : start.programs index = .done outcome) : final.programs index = .done outcome := by
  refine run.invariant (fun configuration => configuration.programs index = .done outcome) ended ?_
  rintro _ _ _ here (⟨mover, steps⟩)
  dsimp only at here ⊢
  by_cases same : index = mover
  · subst same
    rw [here] at steps
    cases steps
  · rw [Function.update_of_ne same, here]

/-- What follows the next call of a program follows the configuration before the call. -/
theorem exists_run_of_turn {index : Index} {call : Call Place Value Query}
    {program next : Program Place Value Query Item Fault Result} {state middle : State}
    {programs : Index → Program Place Value Query Item Fault Result}
    {final : Configuration Index Place Value Query Item Fault Result State}
    (own : programs index = program) (steps : program.step? world state = some (call, next, middle))
    (later : ∃ labels, Run (Turn world) ⟨Function.update programs index next, middle⟩ labels final ∧
      ∀ label ∈ labels, label.1 = index) :
    ∃ labels, Run (Turn world) ⟨programs, state⟩ labels final ∧
      ∀ label ∈ labels, label.1 = index := by
  obtain ⟨labels, run, alone⟩ := later
  refine ⟨_, (Run.single (.call index (own ▸ steps))).append run, ?_⟩
  intro label member
  rcases List.mem_append.mp member with first | rest
  · rw [List.mem_singleton.mp first]
  · exact alone label rest

/-- A program that runs alone takes all of its turns in a row. -/
theorem exists_run_of_run (index : Index)
    (programs : Index → Program Place Value Query Item Fault Result) {outcome : Outcome Fault Result}
    {program : Program Place Value Query Item Fault Result} {state after : State}
    (own : programs index = program) (run : program.run world state = (outcome, after)) :
    ∃ labels, Run (Turn world) ⟨programs, state⟩ labels
        ⟨Function.update programs index (.done outcome), after⟩ ∧
      ∀ label ∈ labels, label.1 = index := by
  induction program generalizing programs state with
  | done ending =>
    cases run
    rw [← own, Function.update_eq_self]
    exact ⟨[], .nil, by simp⟩
  | aget place next inductionHypothesis =>
    have later := inductionHypothesis _ _ (Function.update_self index _ programs) run
    rw [Function.update_idem] at later
    exact exists_run_of_turn own rfl later
  | asearch query next inductionHypothesis =>
    have later := inductionHypothesis _ _ (Function.update_self index _ programs) run
    rw [Function.update_idem] at later
    exact exists_run_of_turn own rfl later
  | aput place value next inductionHypothesis =>
    have later := inductionHypothesis _ _ (Function.update_self index _ programs) run
    rw [Function.update_idem] at later
    exact exists_run_of_turn own rfl later

end StoreProgram
