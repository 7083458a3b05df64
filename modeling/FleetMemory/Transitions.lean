/-
This file is a small library of labelled transition systems: the finite runs of a step
relation, the rule that an invariant of every step holds after every run, and runs all of
whose steps meet a guard on the state they start from.
-/

import Mathlib.Data.List.Infix

namespace Transitions

variable {State Label : Type}

/-- A finite run: the labels of its steps, in order, and the state it ends in. -/
inductive Run (step : State → Label → State → Prop) (start : State) : List Label → State → Prop
  | nil : Run step start [] start
  | snoc {labels : List Label} {middle final : State} {label : Label}
      (earlier : Run step start labels middle) (last : step middle label final) :
      Run step start (labels ++ [label]) final

/-- The steps that meet a guard on their label in the state they start from. -/
def Guarded (step : State → Label → State → Prop) (guard : State → Label → Prop)
    (state : State) (label : Label) (next : State) : Prop :=
  step state label next ∧ guard state label

/-- A label leads from a state to one state. -/
def Functional (step : State → Label → State → Prop) : Prop :=
  ∀ state label first second, step state label first → step state label second → first = second

variable {step : State → Label → State → Prop} {guard : State → Label → Prop}

namespace Run

variable {start middle final : State} {labels more : List Label}

/-- What holds of the start without a past, and is kept by every step as it joins the past, holds
of the end and the whole past. -/
theorem invariant_of_labels (property : List Label → State → Prop) (initially : property [] start)
    (kept : ∀ past state label next, property past state → step state label next →
      property (past ++ [label]) next)
    (run : Run step start labels final) : property labels final := by
  induction run with
  | nil => exact initially
  | snoc earlier last inductionHypothesis => exact kept _ _ _ _ inductionHypothesis last

/-- What holds at the start and is kept by every step holds at the end. -/
theorem invariant (property : State → Prop) (initially : property start)
    (kept : ∀ state label next, property state → step state label next → property next)
    (run : Run step start labels final) : property final :=
  run.invariant_of_labels (fun _ => property) initially fun _ => kept

/-- Runs of fewer steps are runs of more. -/
theorem mono {other : State → Label → State → Prop}
    (wider : ∀ state label next, step state label next → other state label next)
    (run : Run step start labels final) : Run other start labels final := by
  induction run with
  | nil => exact .nil
  | snoc earlier last inductionHypothesis => exact .snoc inductionHypothesis (wider _ _ _ last)

theorem of_guarded (run : Run (Guarded step guard) start labels final) :
    Run step start labels final :=
  run.mono fun _ _ _ last => last.1

theorem single {label : Label} (last : step start label final) : Run step start [label] final :=
  .snoc .nil last

theorem append (earlier : Run step start labels middle) (later : Run step middle more final) :
    Run step start (labels ++ more) final := by
  induction later with
  | nil => rwa [List.append_nil]
  | snoc _ last inductionHypothesis =>
    rw [← List.append_assoc]
    exact .snoc inductionHypothesis last

/-- The last step of a run. -/
theorem of_concat {label : Label} (run : Run step start (labels ++ [label]) final) :
    ∃ middle, Run step start labels middle ∧ step middle label final := by
  generalize whole : labels ++ [label] = all at run
  cases run with
  | nil => exact absurd whole (by simp)
  | snoc earlier last =>
    obtain ⟨rfl, same⟩ := List.append_inj' whole rfl
    obtain rfl := List.singleton_inj.mp same
    exact ⟨_, earlier, last⟩

/-- A run reaches a state after each part of it that comes first. -/
theorem of_append (run : Run step start (labels ++ more) final) :
    ∃ middle, Run step start labels middle := by
  induction more using List.reverseRecOn generalizing final with
  | nil => exact ⟨final, List.append_nil labels ▸ run⟩
  | append_singleton rest last inductionHypothesis =>
    rw [← List.append_assoc] at run
    obtain ⟨middle, earlier, _⟩ := run.of_concat
    exact inductionHypothesis earlier

/-! ### Guards that say exactly when a property is kept -/

/-- A run of a functional relation ends in one state. -/
theorem unique (functional : Functional step) (run : Run step start labels final) {other : State}
    (second : Run step start labels other) : final = other := by
  induction run generalizing other with
  | nil =>
    generalize none : ([] : List Label) = labels at second
    cases second with
    | nil => rfl
    | snoc _ _ => exact absurd none (by simp)
  | snoc _ last inductionHypothesis =>
    obtain ⟨middle, earlier, final⟩ := second.of_concat
    obtain rfl := inductionHypothesis earlier
    exact functional _ _ _ _ last final

/-- Where each step keeps a property exactly when it meets a guard, the property holds of every
state of a run exactly when every step of the run meets the guard. -/
theorem always_iff (functional : Functional step) (assumed property : State → Prop)
    (initiallyAssumed : assumed start) (initially : property start)
    (keeps : ∀ state label next, assumed state → step state label next → assumed next)
    (exactly : ∀ state label next, assumed state → property state → step state label next →
      (property next ↔ guard state label))
    (run : Run step start labels final) :
    (∀ past reached, past <+: labels → Run step start past reached → property reached) ↔
      Run (Guarded step guard) start labels final := by
  constructor
  · intro always
    induction run with
    | nil => exact .nil
    | @snoc labels middle final label earlier last inductionHypothesis =>
      have before : ∀ past reached, past <+: labels → Run step start past reached →
          property reached := fun past reached within =>
        always past reached (within.trans (List.prefix_append labels [label]))
      refine .snoc (inductionHypothesis before) ⟨last, ?_⟩
      refine (exactly middle label final (earlier.invariant assumed initiallyAssumed keeps)
        (before labels middle List.prefix_rfl earlier) last).mp ?_
      exact always (labels ++ [label]) final List.prefix_rfl (.snoc earlier last)
  · rintro guarded past reached ⟨rest, rfl⟩ run
    obtain ⟨middle, met⟩ := guarded.of_append
    obtain rfl := run.unique functional met.of_guarded
    refine (met.invariant (fun state => assumed state ∧ property state)
      ⟨initiallyAssumed, initially⟩ ?_).2
    rintro state label next ⟨known, held⟩ ⟨last, meets⟩
    exact ⟨keeps state label next known last, (exactly state label next known held last).mpr meets⟩

end Run

/-! ### Runs of a function -/

/-- What does not hold at the start and holds at the end of a run of a step function comes to hold
at one of its steps. -/
theorem exists_turn {advance : State → Label → State} {holds : State → Prop} {start : State}
    {labels : List Label} (initially : ¬holds start) (eventually : holds (labels.foldl advance start)) :
    ∃ earlier label later, labels = earlier ++ label :: later ∧
      ¬holds (earlier.foldl advance start) ∧
        holds (advance (earlier.foldl advance start) label) := by
  induction labels generalizing start with
  | nil => exact absurd eventually initially
  | cons label rest inductionHypothesis =>
    by_cases now : holds (advance start label)
    · exact ⟨[], label, rest, rfl, initially, now⟩
    · obtain ⟨earlier, turning, later, rfl, before, turns⟩ := inductionHypothesis now eventually
      exact ⟨label :: earlier, turning, later, rfl, before, turns⟩

end Transitions
