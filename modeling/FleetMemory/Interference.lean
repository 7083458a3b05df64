/-
This file is a small library on servers with several clients that share a state. A client
is undisturbed when a relation of states is kept by the requests of the others on one side
and by its own requests on both: its answers, and the state up to the relation, are then
those of a run of its own requests alone, and so the same in any two runs that hold them.
-/

import Mathlib.Data.List.Basic

namespace Interference

/-! ### Conditions along a run -/

section

variable {Entry State : Type} {step : Entry → State → State} {holds : Entry → State → Prop}
  {state : State}

/-- Every entry meets the condition in the state it is made in. -/
def Along (step : Entry → State → State) (holds : Entry → State → Prop) : List Entry → State → Prop
  | [], _ => True
  | entry :: rest, state => holds entry state ∧ Along step holds rest (step entry state)

theorem along_append {entries more : List Entry} :
    Along step holds (entries ++ more) state ↔
      Along step holds entries state ∧ Along step holds more (entries.foldl (flip step) state) := by
  induction entries generalizing state with
  | nil => simp [Along]
  | cons entry rest inductionHypothesis =>
    rw [List.cons_append, Along, Along, inductionHypothesis, and_assoc]
    rfl

theorem Along.of_prefix {entries more : List Entry} (along : Along step holds more state)
    (isPrefix : entries <+: more) : Along step holds entries state := by
  obtain ⟨rest, rfl⟩ := isPrefix
  exact (along_append.mp along).1

end

/-! ### Runs -/

variable {Client Request Answer State : Type}

/-- Serve the requests in order; each answer is kept with the client it goes to. -/
def run (serve : Client → Request → State → Answer × State) :
    List (Client × Request) → State → List (Client × Answer) × State
  | [], state => ([], state)
  | (client, request) :: rest, state =>
    let served := serve client request state
    let following := run serve rest served.2
    ((client, served.1) :: following.1, following.2)

/-- The state a request leaves. -/
def leaves (serve : Client → Request → State → Answer × State) (entry : Client × Request)
    (state : State) : State :=
  (serve entry.1 entry.2 state).2

theorem run_state {serve : Client → Request → State → Answer × State}
    (entries : List (Client × Request)) (state : State) :
    (run serve entries state).2 = entries.foldl (flip (leaves serve)) state := by
  induction entries generalizing state with
  | nil => rfl
  | cons entry rest inductionHypothesis => exact inductionHypothesis _

/-- A run of a longer list goes on from where the shorter one ends. -/
theorem run_append {serve : Client → Request → State → Answer × State}
    (entries more : List (Client × Request)) (state : State) :
    (run serve (entries ++ more) state).2 = (run serve more (run serve entries state).2).2 := by
  simp only [run_state, List.foldl_append]

/-! ### Shielded clients -/

variable [DecidableEq Client]

/-- The entries of one client. -/
def entriesOf {Entry : Type} (client : Client) (entries : List (Client × Entry)) :
    List (Client × Entry) :=
  entries.filter fun entry => entry.1 = client

/-- The requests of one client. -/
def requestsOf {Entry : Type} (client : Client) (entries : List (Client × Entry)) : List Entry :=
  (entriesOf client entries).map Prod.snd

variable {serve : Client → Request → State → Answer × State} {client : Client}

@[simp] theorem requestsOf_nil {Entry : Type} :
    requestsOf client ([] : List (Client × Entry)) = [] := rfl

theorem requestsOf_cons_own {Entry : Type} (entry : Entry) (rest : List (Client × Entry)) :
    requestsOf client ((client, entry) :: rest) = entry :: requestsOf client rest := by
  simp [requestsOf, entriesOf]

theorem requestsOf_cons_other {Entry : Type} {someone : Client} (different : someone ≠ client)
    (entry : Entry) (rest : List (Client × Entry)) :
    requestsOf client ((someone, entry) :: rest) = requestsOf client rest := by
  simp [requestsOf, entriesOf, different]

/-- A client's entries are its requests, each with the client. -/
theorem entriesOf_eq {Entry : Type} (client : Client) (entries : List (Client × Entry)) :
    entriesOf client entries = (requestsOf client entries).map fun entry => (client, entry) := by
  rw [requestsOf, List.map_map]
  refine (List.map_id _).symm.trans (List.map_congr_left fun entry member => ?_)
  have own : entry.1 = client := by simpa using (List.mem_filter.mp member).2
  exact Prod.ext own rfl

/-- The requests of others alone are none of the client's. -/
theorem requestsOf_others {Entry : Type} {entries : List (Client × Entry)}
    (others : ∀ entry ∈ entries, entry.1 ≠ client) (more : List (Client × Entry)) :
    requestsOf client (entries ++ more) = requestsOf client more := by
  rw [requestsOf, entriesOf, List.filter_append, List.filter_eq_nil_iff.mpr, List.nil_append]
  · rfl
  · intro entry member
    simpa using others entry member

/-- A relation of states that shields a client, from the entries still to come: a request of another
client keeps it, whatever the right state, and a request of the client is answered alike on both
sides and keeps it. -/
structure Shields (serve : Client → Request → State → Answer × State) (client : Client)
    (related : List (Client × Request) → State → State → Prop) : Prop where
  other : ∀ someone request rest first second, someone ≠ client →
    related ((someone, request) :: rest) first second →
      related rest (serve someone request first).2 second
  own : ∀ request rest first second, related ((client, request) :: rest) first second →
    (serve client request first).1 = (serve client request second).1 ∧
      related rest (serve client request first).2 (serve client request second).2

variable {related : List (Client × Request) → State → State → Prop}

/-- A run gives the client the answers of its own requests alone, and ends related to them. -/
theorem run_alone (shields : Shields serve client related) (entries : List (Client × Request))
    (first second : State) (start : related entries first second) :
    entriesOf client (run serve entries first).1 =
        entriesOf client (run serve (entriesOf client entries) second).1 ∧
      related [] (run serve entries first).2 (run serve (entriesOf client entries) second).2 := by
  induction entries generalizing first second with
  | nil => exact ⟨rfl, start⟩
  | cons entry rest inductionHypothesis =>
    obtain ⟨someone, request⟩ := entry
    by_cases same : someone = client
    · subst same
      obtain ⟨answered, kept⟩ := shields.own request rest first second start
      obtain ⟨answers, ended⟩ := inductionHypothesis _ _ kept
      simp only [entriesOf, run, decide_true, List.filter_cons_of_pos, answered] at answers ended ⊢
      exact ⟨by rw [answers], ended⟩
    · obtain ⟨answers, ended⟩ := inductionHypothesis _ _
        (shields.other someone request rest first second same start)
      simp only [entriesOf, run, same, decide_false, Bool.false_eq_true, not_false_eq_true,
        List.filter_cons_of_neg] at answers ended ⊢
      exact ⟨answers, ended⟩

/-- Two runs with the same requests of the client give it the same answers, and end related to one
state. -/
theorem run_same (shields : Shields serve client related) {first second : List (Client × Request)}
    (same : requestsOf client first = requestsOf client second) {start : State}
    (firstStart : related first start start) (secondStart : related second start start) :
    entriesOf client (run serve first start).1 = entriesOf client (run serve second start).1 ∧
      ∃ alone, related [] (run serve first start).2 alone ∧
        related [] (run serve second start).2 alone := by
  obtain ⟨firstAnswers, firstEnd⟩ := run_alone shields first start start firstStart
  obtain ⟨secondAnswers, secondEnd⟩ := run_alone shields second start start secondStart
  rw [entriesOf_eq client first, same, ← entriesOf_eq] at firstAnswers firstEnd
  exact ⟨firstAnswers.trans secondAnswers.symm, _, firstEnd, secondEnd⟩

end Interference
