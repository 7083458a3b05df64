/-
This file is a small library of programs that call a store. A program is a tree:
a leaf is the way the program ends, and a node is one store call with a
continuation for each answer the call may give. The code under verification is
written in this monad, so one text of it can be run on its own, run against a
store whose calls fail, or interleaved call by call with other programs.

The rules a proof uses are `run_bind` and `run_tryCatch`, which split a run at a
sequencing or at an exception handler, `Uses`, which bounds the calls a program
makes whatever the answers are, and `run_preserves` and `run_related`, which turn
such a bound into an invariant of one run and into an equality of two. A `transcript` is
what a program does when its searches may be answered with anything.
-/

import Mathlib.Logic.Basic

namespace StoreProgram

/-! ### Outcomes -/

/-- How a computation ends: it returns, it raises, or it never ends. -/
inductive Outcome (Fault Result : Type) where
  | returned (result : Result)
  | raised (fault : Fault)
  | hung
deriving DecidableEq, Repr

namespace Outcome

variable {Fault Result Other : Type}

def bind (outcome : Outcome Fault Result) (next : Result → Outcome Fault Other) :
    Outcome Fault Other :=
  match outcome with
  | returned result => next result
  | raised fault => raised fault
  | hung => hung

instance : Monad (Outcome Fault) where
  pure := returned
  bind := bind

/-- The computation with what it raises translated. -/
def mapFault (translate : Fault → Fault) : Outcome Fault Result → Outcome Fault Result
  | returned result => returned result
  | raised fault => raised (translate fault)
  | hung => hung

/-- The computation, going on from what it raises. -/
def recover (handled : Fault → Outcome Fault Result) : Outcome Fault Result → Outcome Fault Result
  | returned result => returned result
  | raised fault => handled fault
  | hung => hung

/-- What the computation returned, if it did. -/
def returned? : Outcome Fault Result → Option Result
  | returned result => some result
  | raised _ => none
  | hung => none

/-- A computation that either has a value or raises. -/
def ofExcept : Except Fault Result → Outcome Fault Result
  | .ok result => returned result
  | .error fault => raised fault

@[simp] theorem pure_eq (result : Result) :
    (pure result : Outcome Fault Result) = returned result := rfl

@[simp] theorem returned_bind (result : Result) (next : Result → Outcome Fault Other) :
    returned result >>= next = next result := rfl

@[simp] theorem raised_bind (fault : Fault) (next : Result → Outcome Fault Other) :
    raised fault >>= next = raised fault := rfl

@[simp] theorem hung_bind (next : Result → Outcome Fault Other) :
    (hung : Outcome Fault Result) >>= next = hung := rfl

theorem returned?_eq_some {outcome : Outcome Fault Result} {result : Result} :
    outcome.returned? = some result ↔ outcome = returned result := by
  cases outcome <;> simp [returned?]

theorem mapFault_eq_returned {translate : Fault → Fault} {outcome : Outcome Fault Result}
    {result : Result} :
    outcome.mapFault translate = returned result ↔ outcome = returned result := by
  cases outcome <;> simp [mapFault]

/-- A sequence returns exactly when its first part returns and the rest returns on that. -/
theorem bind_eq_returned {outcome : Outcome Fault Result} {next : Result → Outcome Fault Other}
    {other : Other} :
    outcome >>= next = returned other ↔
      ∃ result, outcome = returned result ∧ next result = returned other := by
  cases outcome with
  | returned result => simp
  | raised fault => simp
  | hung => simp

theorem ofExcept_ne_hung (computed : Except Fault Result) : ofExcept computed ≠ hung := by
  cases computed <;> nofun

/-- A sequence hangs in its first part or in the rest. -/
theorem bind_ne_hung {outcome : Outcome Fault Result} {next : Result → Outcome Fault Other}
    (ends : outcome ≠ hung) (goesOn : ∀ result, outcome = returned result → next result ≠ hung) :
    outcome >>= next ≠ hung := by
  cases outcome with
  | returned result => exact goesOn result rfl
  | raised fault => nofun
  | hung => exact absurd rfl ends

end Outcome

/-! ### Programs -/

/-- One call to the store. -/
inductive Call (Place Value Query : Type) where
  | aget (place : Place)
  | asearch (query : Query)
  | aput (place : Place) (value : Value)

/-- A program that calls a store of `Value`s kept at `Place`s. Every call answers or raises, and
the program goes on from whatever the answer is. -/
inductive Program (Place Value Query Item Fault Result : Type) where
  | done (outcome : Outcome Fault Result)
  | aget (place : Place)
      (next : Except Fault (Option Value) → Program Place Value Query Item Fault Result)
  | asearch (query : Query)
      (next : Except Fault (List Item) → Program Place Value Query Item Fault Result)
  | aput (place : Place) (value : Value)
      (next : Except Fault Unit → Program Place Value Query Item Fault Result)

namespace Program

variable {Place Value Query Item Fault Result Other : Type}

def bind (program : Program Place Value Query Item Fault Result)
    (continuation : Result → Program Place Value Query Item Fault Other) :
    Program Place Value Query Item Fault Other :=
  match program with
  | done (.returned result) => continuation result
  | done (.raised fault) => done (.raised fault)
  | done .hung => done .hung
  | aget place next => aget place fun answer => (next answer).bind continuation
  | asearch query next => asearch query fun answer => (next answer).bind continuation
  | aput place value next => aput place value fun answer => (next answer).bind continuation

instance : Monad (Program Place Value Query Item Fault) where
  pure result := done (.returned result)
  bind := bind

/-- Run `program`, and `handler` on what it raises. A program that hangs reaches no handler. -/
def tryCatch (program : Program Place Value Query Item Fault Result)
    (handler : Fault → Program Place Value Query Item Fault Result) :
    Program Place Value Query Item Fault Result :=
  match program with
  | done (.returned result) => done (.returned result)
  | done (.raised fault) => handler fault
  | done .hung => done .hung
  | aget place next => aget place fun answer => (next answer).tryCatch handler
  | asearch query next => asearch query fun answer => (next answer).tryCatch handler
  | aput place value next => aput place value fun answer => (next answer).tryCatch handler

instance : MonadExceptOf Fault (Program Place Value Query Item Fault) where
  throw fault := done (.raised fault)
  tryCatch := tryCatch

/-- A computation without store calls, as a program. -/
def ofOutcome (outcome : Outcome Fault Result) : Program Place Value Query Item Fault Result :=
  done outcome

/-- End with the answer, or raise what the call raised. -/
def finish (answer : Except Fault Result) : Program Place Value Query Item Fault Result :=
  done (.ofExcept answer)

/-- The record kept at a place. -/
def get (place : Place) : Program Place Value Query Item Fault (Option Value) :=
  aget place finish

/-- The items a query selects. -/
def search (query : Query) : Program Place Value Query Item Fault (List Item) :=
  asearch query finish

/-- Keep a value at a place. -/
def put (place : Place) (value : Value) : Program Place Value Query Item Fault Unit :=
  aput place value finish

end Program

/-! ### Runs -/

/-- How a store answers: what it keeps at a place, what a query selects, and the store after a
put. -/
structure World (Place Value Query Item State : Type) where
  get : State → Place → Option Value
  search : State → Query → List Item
  put : State → Place → Value → State

namespace Program

variable {Place Value Query Item Fault Result Other State : Type}
variable (world : World Place Value Query Item State)

/-- Run a program alone against a store whose calls never fail. -/
def run : Program Place Value Query Item Fault Result → State → Outcome Fault Result × State
  | done outcome, state => (outcome, state)
  | aget place next, state => (next (.ok (world.get state place))).run state
  | asearch query next, state => (next (.ok (world.search state query))).run state
  | aput place value next, state => (next (.ok ())).run (world.put state place value)

/-- The answer of a call under a fault schedule: the fault the schedule plans for it, if any. -/
def answered {Answer : Type} (planned : Option Fault) (answer : Answer) : Except Fault Answer :=
  match planned with
  | some fault => .error fault
  | none => .ok answer

/-- Run a program against a store whose calls fail as planned: the head of the schedule is the
fate of the next call, and a call past the end of the schedule succeeds. A put that fails leaves
the store as it was. -/
def runFaulty : Program Place Value Query Item Fault Result → List (Option Fault) → State →
    Outcome Fault Result × State
  | done outcome, _, state => (outcome, state)
  | aget place next, faults, state =>
    (next (answered (faults.headD none) (world.get state place))).runFaulty faults.tail state
  | asearch query next, faults, state =>
    (next (answered (faults.headD none) (world.search state query))).runFaulty faults.tail state
  | aput place value next, faults, state =>
    match faults.headD none with
    | some fault => (next (.error fault)).runFaulty faults.tail state
    | none => (next (.ok ())).runFaulty faults.tail (world.put state place value)

variable {world}

@[simp] theorem run_pure (result : Result) (state : State) :
    (pure result : Program Place Value Query Item Fault Result).run world state =
      (.returned result, state) := rfl

@[simp] theorem run_throw (fault : Fault) (state : State) :
    (throw fault : Program Place Value Query Item Fault Result).run world state =
      (.raised fault, state) := rfl

@[simp] theorem run_done (outcome : Outcome Fault Result) (state : State) :
    (done outcome : Program Place Value Query Item Fault Result).run world state =
      (outcome, state) := rfl

@[simp] theorem run_ofOutcome (outcome : Outcome Fault Result) (state : State) :
    (ofOutcome outcome : Program Place Value Query Item Fault Result).run world state =
      (outcome, state) := rfl

@[simp] theorem run_get (place : Place) (state : State) :
    (get place : Program Place Value Query Item Fault _).run world state =
      (.returned (world.get state place), state) := rfl

@[simp] theorem run_search (query : Query) (state : State) :
    (search query : Program Place Value Query Item Fault _).run world state =
      (.returned (world.search state query), state) := rfl

@[simp] theorem run_put (place : Place) (value : Value) (state : State) :
    (put place value : Program Place Value Query Item Fault _).run world state =
      (.returned (), world.put state place value) := rfl

@[simp] theorem finish_ok_bind (result : Result)
    (next : Result → Program Place Value Query Item Fault Other) :
    (finish (.ok result) >>= next) = next result := rfl

@[simp] theorem finish_error_bind (fault : Fault)
    (next : Result → Program Place Value Query Item Fault Other) :
    (finish (.error fault) >>= next) = done (.raised fault) := rfl

theorem bind_bind {Last : Type} (program : Program Place Value Query Item Fault Result)
    (continuation : Result → Program Place Value Query Item Fault Other)
    (last : Other → Program Place Value Query Item Fault Last) :
    (program >>= continuation) >>= last = program >>= fun result => continuation result >>= last := by
  induction program with
  | done outcome => cases outcome <;> rfl
  | aget place next inductionHypothesis =>
    exact congrArg (aget place) (funext inductionHypothesis)
  | asearch query next inductionHypothesis =>
    exact congrArg (asearch query) (funext inductionHypothesis)
  | aput place value next inductionHypothesis =>
    exact congrArg (aput place value) (funext inductionHypothesis)

/-- A run of a sequence is a run of its first part, followed by a run of the rest when the first
part returned. -/
theorem run_bind (program : Program Place Value Query Item Fault Result)
    (continuation : Result → Program Place Value Query Item Fault Other) (state : State) :
    (program >>= continuation).run world state =
      match program.run world state with
      | (.returned result, middle) => (continuation result).run world middle
      | (.raised fault, middle) => (.raised fault, middle)
      | (.hung, middle) => (.hung, middle) := by
  induction program generalizing state with
  | done outcome => cases outcome <;> rfl
  | aget place next inductionHypothesis => exact inductionHypothesis _ state
  | asearch query next inductionHypothesis => exact inductionHypothesis _ state
  | aput place value next inductionHypothesis => exact inductionHypothesis _ _

/-- A run of a handled program is the program's run, followed by the handler's when the program
raised. -/
theorem run_tryCatch (program : Program Place Value Query Item Fault Result)
    (handler : Fault → Program Place Value Query Item Fault Result) (state : State) :
    (tryCatch program handler).run world state =
      match program.run world state with
      | (.returned result, middle) => (.returned result, middle)
      | (.raised fault, middle) => (handler fault).run world middle
      | (.hung, middle) => (.hung, middle) := by
  induction program generalizing state with
  | done outcome => cases outcome <;> rfl
  | aget place next inductionHypothesis => exact inductionHypothesis _ state
  | asearch query next inductionHypothesis => exact inductionHypothesis _ state
  | aput place value next inductionHypothesis => exact inductionHypothesis _ _

/-- A read that fails ends the sequence it starts. -/
theorem runFaulty_get_bind (place : Place)
    (continuation : Option Value → Program Place Value Query Item Fault Result)
    (faults : List (Option Fault)) (state : State) :
    (get place >>= continuation).runFaulty world faults state =
      match faults.headD none with
      | some fault => (.raised fault, state)
      | none => (continuation (world.get state place)).runFaulty world faults.tail state := by
  show (aget place fun answer => (finish answer).bind continuation).runFaulty world faults
    state = _
  rw [runFaulty]
  cases faults.headD none with
  | none => rfl
  | some fault => rfl

/-- A put that fails ends the sequence it starts. -/
theorem runFaulty_put_bind (place : Place) (value : Value)
    (continuation : Unit → Program Place Value Query Item Fault Result)
    (faults : List (Option Fault)) (state : State) :
    (put place value >>= continuation).runFaulty world faults state =
      match faults.headD none with
      | some fault => (.raised fault, state)
      | none => (continuation ()).runFaulty world faults.tail (world.put state place value) := by
  show (aput place value fun answer => (finish answer).bind continuation).runFaulty world faults
    state = _
  rw [runFaulty]
  cases faults.headD none with
  | none => rfl
  | some fault => rfl

/-- A handler that makes no call leaves the store and the schedule alone. -/
theorem runFaulty_tryCatch_done (handled : Fault → Outcome Fault Result)
    (program : Program Place Value Query Item Fault Result) (faults : List (Option Fault))
    (state : State) :
    (tryCatch program fun fault => done (handled fault)).runFaulty world faults state =
      ((program.runFaulty world faults state).1.recover handled,
        (program.runFaulty world faults state).2) := by
  induction program generalizing faults state with
  | done outcome => cases outcome <;> rfl
  | aget place next inductionHypothesis => exact inductionHypothesis _ _ state
  | asearch query next inductionHypothesis => exact inductionHypothesis _ _ state
  | aput place value next inductionHypothesis =>
    simp only [tryCatch, runFaulty]
    split
    · exact inductionHypothesis _ _ state
    · exact inductionHypothesis _ _ _

/-- A handler that only translates what was raised makes no call, so it leaves the store and the
schedule alone. -/
theorem runFaulty_tryCatch_translate (translate : Fault → Fault)
    (program : Program Place Value Query Item Fault Result) (faults : List (Option Fault))
    (state : State) :
    (tryCatch program fun fault => done (.raised (translate fault))).runFaulty world faults state =
      ((program.runFaulty world faults state).1.mapFault translate,
        (program.runFaulty world faults state).2) := by
  rw [runFaulty_tryCatch_done fun fault => .raised (translate fault)]
  cases (program.runFaulty world faults state).1 <;> rfl

/-- A rest that makes no call leaves the store and the schedule alone. -/
theorem runFaulty_bind_done (rest : Result → Outcome Fault Other)
    (program : Program Place Value Query Item Fault Result) (faults : List (Option Fault))
    (state : State) :
    (program >>= fun result => done (rest result)).runFaulty world faults state =
      ((program.runFaulty world faults state).1 >>= rest,
        (program.runFaulty world faults state).2) := by
  induction program generalizing faults state with
  | done outcome => cases outcome <;> rfl
  | aget place next inductionHypothesis => exact inductionHypothesis _ _ state
  | asearch query next inductionHypothesis => exact inductionHypothesis _ _ state
  | aput place value next inductionHypothesis =>
    show (aput place value fun answer => next answer >>= fun result => done (rest result)).runFaulty
      world faults state = _
    simp only [runFaulty]
    split
    · exact inductionHypothesis _ _ state
    · exact inductionHypothesis _ _ _

/-- A schedule without faults is the run against a store that never fails. -/
theorem runFaulty_nil (program : Program Place Value Query Item Fault Result) (state : State) :
    program.runFaulty world [] state = program.run world state := by
  induction program generalizing state with
  | done outcome => rfl
  | aget place next inductionHypothesis => exact inductionHypothesis _ state
  | asearch query next inductionHypothesis => exact inductionHypothesis _ state
  | aput place value next inductionHypothesis => exact inductionHypothesis _ _

theorem run_tryCatch_translate (translate : Fault → Fault)
    (program : Program Place Value Query Item Fault Result) (state : State) :
    (tryCatch program fun fault => done (.raised (translate fault))).run world state =
      ((program.run world state).1.mapFault translate, (program.run world state).2) := by
  rw [← runFaulty_nil, ← runFaulty_nil, runFaulty_tryCatch_translate]

/-! ### Programs that leave a store alone -/

variable (world) in
/-- Whichever calls fail, every put of the program puts back what the state holds already. -/
def Keeps (state : State) : Program Place Value Query Item Fault Result → Prop
  | done _ => True
  | aget place next => (next (.ok (world.get state place))).Keeps state ∧
      ∀ fault, (next (.error fault)).Keeps state
  | asearch query next => (next (.ok (world.search state query))).Keeps state ∧
      ∀ fault, (next (.error fault)).Keeps state
  | aput place value next => world.put state place value = state ∧ (next (.ok ())).Keeps state ∧
      ∀ fault, (next (.error fault)).Keeps state

/-- A program that leaves a state alone ends in it, whichever calls fail. -/
theorem runFaulty_of_keeps {program : Program Place Value Query Item Fault Result} {state : State}
    (keeps : program.Keeps world state) (faults : List (Option Fault)) :
    (program.runFaulty world faults state).2 = state := by
  induction program generalizing faults with
  | done outcome => rfl
  | aget place next inductionHypothesis =>
    rw [runFaulty]
    cases faults.headD none with
    | none => exact inductionHypothesis _ keeps.1 _
    | some fault => exact inductionHypothesis _ (keeps.2 fault) _
  | asearch query next inductionHypothesis =>
    rw [runFaulty]
    cases faults.headD none with
    | none => exact inductionHypothesis _ keeps.1 _
    | some fault => exact inductionHypothesis _ (keeps.2 fault) _
  | aput place value next inductionHypothesis =>
    rw [runFaulty]
    cases faults.headD none with
    | none =>
      dsimp only
      rw [keeps.1]
      exact inductionHypothesis _ keeps.2.1 _
    | some fault => exact inductionHypothesis _ (keeps.2.2 fault) _

theorem keeps_get_bind {place : Place}
    {continuation : Option Value → Program Place Value Query Item Fault Result} {state : State}
    (rest : (continuation (world.get state place)).Keeps world state) :
    (get place >>= continuation).Keeps world state :=
  ⟨rest, fun _ => trivial⟩

theorem keeps_put_bind {place : Place} {value : Value}
    {continuation : Unit → Program Place Value Query Item Fault Result} {state : State}
    (same : world.put state place value = state)
    (rest : (continuation ()).Keeps world state) :
    (put place value >>= continuation).Keeps world state :=
  ⟨same, rest, fun _ => trivial⟩

/-- A handler that only translates what was raised leaves the state alone too. -/
theorem keeps_tryCatch_translate {translate : Fault → Fault}
    {program : Program Place Value Query Item Fault Result} {state : State}
    (keeps : program.Keeps world state) :
    (tryCatch program fun fault => done (.raised (translate fault))).Keeps world state := by
  induction program with
  | done outcome => cases outcome <;> trivial
  | aget place next inductionHypothesis =>
    exact ⟨inductionHypothesis _ keeps.1, fun fault => inductionHypothesis _ (keeps.2 fault)⟩
  | asearch query next inductionHypothesis =>
    exact ⟨inductionHypothesis _ keeps.1, fun fault => inductionHypothesis _ (keeps.2 fault)⟩
  | aput place value next inductionHypothesis =>
    exact ⟨keeps.1, inductionHypothesis _ keeps.2.1,
      fun fault => inductionHypothesis _ (keeps.2.2 fault)⟩

/-! ### Programs that sustain an invariant -/

variable (world) in
/-- Whichever calls fail, every put of the program leaves a state that meets the invariant. -/
def Sustains (invariant : State → Prop) :
    Program Place Value Query Item Fault Result → State → Prop
  | done _, _ => True
  | aget place next, state => (next (.ok (world.get state place))).Sustains invariant state ∧
      ∀ fault, (next (.error fault)).Sustains invariant state
  | asearch query next, state => (next (.ok (world.search state query))).Sustains invariant state ∧
      ∀ fault, (next (.error fault)).Sustains invariant state
  | aput place value next, state => invariant (world.put state place value) ∧
      (next (.ok ())).Sustains invariant (world.put state place value) ∧
      ∀ fault, (next (.error fault)).Sustains invariant state

section

variable {invariant : State → Prop}

/-- A program that sustains an invariant from a state that meets it ends in one that does. -/
theorem runFaulty_of_sustains {program : Program Place Value Query Item Fault Result}
    {state : State} (sustains : program.Sustains world invariant state) (holds : invariant state)
    (faults : List (Option Fault)) : invariant (program.runFaulty world faults state).2 := by
  induction program generalizing faults state with
  | done outcome => exact holds
  | aget place next inductionHypothesis =>
    rw [runFaulty]
    cases faults.headD none with
    | none => exact inductionHypothesis _ sustains.1 holds _
    | some fault => exact inductionHypothesis _ (sustains.2 fault) holds _
  | asearch query next inductionHypothesis =>
    rw [runFaulty]
    cases faults.headD none with
    | none => exact inductionHypothesis _ sustains.1 holds _
    | some fault => exact inductionHypothesis _ (sustains.2 fault) holds _
  | aput place value next inductionHypothesis =>
    rw [runFaulty]
    cases faults.headD none with
    | none => exact inductionHypothesis _ sustains.2.1 sustains.1 _
    | some fault => exact inductionHypothesis _ (sustains.2.2 fault) holds _

theorem sustains_bind {program : Program Place Value Query Item Fault Result}
    {continuation : Result → Program Place Value Query Item Fault Other} {state : State}
    (first : program.Sustains world invariant state) (holds : invariant state)
    (rest : ∀ result after, invariant after → (continuation result).Sustains world invariant after) :
    (program >>= continuation).Sustains world invariant state := by
  induction program generalizing state with
  | done outcome =>
    cases outcome with
    | returned result => exact rest result state holds
    | raised fault => trivial
    | hung => trivial
  | aget place next inductionHypothesis =>
    exact ⟨inductionHypothesis _ first.1 holds,
      fun fault => inductionHypothesis _ (first.2 fault) holds⟩
  | asearch query next inductionHypothesis =>
    exact ⟨inductionHypothesis _ first.1 holds,
      fun fault => inductionHypothesis _ (first.2 fault) holds⟩
  | aput place value next inductionHypothesis =>
    exact ⟨first.1, inductionHypothesis _ first.2.1 first.1,
      fun fault => inductionHypothesis _ (first.2.2 fault) holds⟩

theorem sustains_get_bind {place : Place}
    {continuation : Option Value → Program Place Value Query Item Fault Result} {state : State}
    (rest : (continuation (world.get state place)).Sustains world invariant state) :
    (get place >>= continuation).Sustains world invariant state :=
  ⟨rest, fun _ => trivial⟩

theorem sustains_put_bind {place : Place} {value : Value}
    {continuation : Unit → Program Place Value Query Item Fault Result} {state : State}
    (holds : invariant (world.put state place value))
    (rest : (continuation ()).Sustains world invariant (world.put state place value)) :
    (put place value >>= continuation).Sustains world invariant state :=
  ⟨holds, rest, fun _ => trivial⟩

theorem sustains_search_bind {query : Query}
    {continuation : List Item → Program Place Value Query Item Fault Result} {state : State}
    (rest : (continuation (world.search state query)).Sustains world invariant state) :
    (search query >>= continuation).Sustains world invariant state :=
  ⟨rest, fun _ => trivial⟩

theorem sustains_tryCatch {program : Program Place Value Query Item Fault Result}
    {handler : Fault → Program Place Value Query Item Fault Result} {state : State}
    (first : program.Sustains world invariant state) (holds : invariant state)
    (rest : ∀ fault after, invariant after → (handler fault).Sustains world invariant after) :
    (tryCatch program handler).Sustains world invariant state := by
  induction program generalizing state with
  | done outcome =>
    cases outcome with
    | returned result => trivial
    | raised fault => exact rest fault state holds
    | hung => trivial
  | aget place next inductionHypothesis =>
    exact ⟨inductionHypothesis _ first.1 holds,
      fun fault => inductionHypothesis _ (first.2 fault) holds⟩
  | asearch query next inductionHypothesis =>
    exact ⟨inductionHypothesis _ first.1 holds,
      fun fault => inductionHypothesis _ (first.2 fault) holds⟩
  | aput place value next inductionHypothesis =>
    exact ⟨first.1, inductionHypothesis _ first.2.1 first.1,
      fun fault => inductionHypothesis _ (first.2.2 fault) holds⟩

end

/-! ### Programs that are stopped -/

variable (world) in
/-- The store a program leaves that is stopped after a number of its calls. -/
def stopAfter : Program Place Value Query Item Fault Result → Nat → List (Option Fault) → State →
    State
  | done _, _, _, state => state
  | aget place next, calls, faults, state =>
    match calls with
    | 0 => state
    | calls + 1 => (next (answered (faults.headD none) (world.get state place))).stopAfter calls
        faults.tail state
  | asearch query next, calls, faults, state =>
    match calls with
    | 0 => state
    | calls + 1 => (next (answered (faults.headD none) (world.search state query))).stopAfter calls
        faults.tail state
  | aput place value next, calls, faults, state =>
    match calls with
    | 0 => state
    | calls + 1 =>
      match faults.headD none with
      | some fault => (next (.error fault)).stopAfter calls faults.tail state
      | none => (next (.ok ())).stopAfter calls faults.tail (world.put state place value)

@[simp] theorem stopAfter_zero (program : Program Place Value Query Item Fault Result)
    (faults : List (Option Fault)) (state : State) :
    program.stopAfter world 0 faults state = state := by
  cases program <;> rfl

/-- A program that sustains an invariant leaves a state that meets it wherever it is stopped. -/
theorem stopAfter_of_sustains {invariant : State → Prop}
    {program : Program Place Value Query Item Fault Result} {state : State}
    (sustains : program.Sustains world invariant state) (holds : invariant state) (calls : Nat)
    (faults : List (Option Fault)) : invariant (program.stopAfter world calls faults state) := by
  induction program generalizing calls faults state with
  | done outcome => exact holds
  | aget place next inductionHypothesis =>
    cases calls with
    | zero => exact holds
    | succ calls =>
      rw [stopAfter]
      cases faults.headD none with
      | none => exact inductionHypothesis _ sustains.1 holds _ _
      | some fault => exact inductionHypothesis _ (sustains.2 fault) holds _ _
  | asearch query next inductionHypothesis =>
    cases calls with
    | zero => exact holds
    | succ calls =>
      rw [stopAfter]
      cases faults.headD none with
      | none => exact inductionHypothesis _ sustains.1 holds _ _
      | some fault => exact inductionHypothesis _ (sustains.2 fault) holds _ _
  | aput place value next inductionHypothesis =>
    cases calls with
    | zero => exact holds
    | succ calls =>
      rw [stopAfter]
      cases faults.headD none with
      | none => exact inductionHypothesis _ sustains.2.1 sustains.1 _ _
      | some fault => exact inductionHypothesis _ (sustains.2.2 fault) holds _ _

/-- A program that is stopped late enough leaves what it leaves at its end. -/
theorem exists_stopAfter_eq (program : Program Place Value Query Item Fault Result)
    (faults : List (Option Fault)) (state : State) :
    ∃ calls, program.stopAfter world calls faults state =
      (program.runFaulty world faults state).2 := by
  induction program generalizing faults state with
  | done outcome => exact ⟨0, rfl⟩
  | aget place next inductionHypothesis =>
    obtain ⟨calls, same⟩ := inductionHypothesis
      (answered (faults.headD none) (world.get state place)) faults.tail state
    exact ⟨calls + 1, same⟩
  | asearch query next inductionHypothesis =>
    obtain ⟨calls, same⟩ := inductionHypothesis
      (answered (faults.headD none) (world.search state query)) faults.tail state
    exact ⟨calls + 1, same⟩
  | aput place value next inductionHypothesis =>
    cases planned : faults.headD none with
    | none =>
      obtain ⟨calls, same⟩ := inductionHypothesis (.ok ()) faults.tail (world.put state place value)
      refine ⟨calls + 1, ?_⟩
      rw [stopAfter, runFaulty, planned]
      exact same
    | some fault =>
      obtain ⟨calls, same⟩ := inductionHypothesis (.error fault) faults.tail state
      refine ⟨calls + 1, ?_⟩
      rw [stopAfter, runFaulty, planned]
      exact same

/-- A sequence is stopped in its first part, or its first part returned and it is stopped in the
rest. -/
theorem stopAfter_bind_cases (program : Program Place Value Query Item Fault Result)
    (continuation : Result → Program Place Value Query Item Fault Other) (calls : Nat)
    (faults : List (Option Fault)) (state : State) :
    ((program >>= continuation).stopAfter world calls faults state =
        program.stopAfter world calls faults state) ∨
      ∃ result middle left later, program.runFaulty world faults state = (.returned result, middle) ∧
        (program >>= continuation).stopAfter world calls faults state =
          (continuation result).stopAfter world left later middle := by
  induction program generalizing calls faults state with
  | done ended =>
    cases ended with
    | returned result => exact Or.inr ⟨result, state, calls, faults, rfl, rfl⟩
    | raised fault => exact Or.inl rfl
    | hung => exact Or.inl rfl
  | aget place next inductionHypothesis =>
    cases calls with
    | zero => exact Or.inl rfl
    | succ calls => exact inductionHypothesis _ calls faults.tail state
  | asearch query next inductionHypothesis =>
    cases calls with
    | zero => exact Or.inl rfl
    | succ calls => exact inductionHypothesis _ calls faults.tail state
  | aput place value next inductionHypothesis =>
    cases calls with
    | zero => exact Or.inl rfl
    | succ calls =>
      have shape : (aput place value next >>= continuation).stopAfter world (calls + 1) faults state =
          match faults.headD none with
          | some fault => (next (.error fault) >>= continuation).stopAfter world calls faults.tail state
          | none => (next (.ok ()) >>= continuation).stopAfter world calls faults.tail
              (world.put state place value) := by
        show (aput place value fun answer => next answer >>= continuation).stopAfter world
          (calls + 1) faults state = _
        rw [stopAfter]
      rw [shape, stopAfter, runFaulty]
      cases faults.headD none with
      | none => exact inductionHypothesis _ calls faults.tail _
      | some fault => exact inductionHypothesis _ calls faults.tail _

/-! ### Programs that only raise -/

/-- A program that goes on from no call that failed: it raises. -/
def Propagates : Program Place Value Query Item Fault Result → Prop
  | done _ => True
  | aget _ next => (∀ answer, (next (.ok answer)).Propagates) ∧
      ∀ fault, ∃ raised, next (.error fault) = done (.raised raised)
  | asearch _ next => (∀ answer, (next (.ok answer)).Propagates) ∧
      ∀ fault, ∃ raised, next (.error fault) = done (.raised raised)
  | aput _ _ next => (∀ answer, (next (.ok answer)).Propagates) ∧
      ∀ fault, ∃ raised, next (.error fault) = done (.raised raised)

/-- A program that only raises returns as if no call failed. -/
theorem run_of_propagates {program : Program Place Value Query Item Fault Result}
    (propagates : program.Propagates) {faults : List (Option Fault)} {state after : State}
    {result : Result}
    (returned : program.runFaulty world faults state = (.returned result, after)) :
    program.run world state = (.returned result, after) := by
  induction program generalizing faults state with
  | done outcome => exact returned
  | aget place next inductionHypothesis =>
    rw [runFaulty] at returned
    cases planned : faults.headD none with
    | none =>
      rw [planned] at returned
      exact inductionHypothesis _ (propagates.1 _) returned
    | some fault =>
      obtain ⟨raised, same⟩ := propagates.2 fault
      rw [planned, answered, same] at returned
      cases (Prod.mk.inj returned).1
  | asearch query next inductionHypothesis =>
    rw [runFaulty] at returned
    cases planned : faults.headD none with
    | none =>
      rw [planned] at returned
      exact inductionHypothesis _ (propagates.1 _) returned
    | some fault =>
      obtain ⟨raised, same⟩ := propagates.2 fault
      rw [planned, answered, same] at returned
      cases (Prod.mk.inj returned).1
  | aput place value next inductionHypothesis =>
    rw [runFaulty] at returned
    cases planned : faults.headD none with
    | none =>
      rw [planned] at returned
      exact inductionHypothesis _ (propagates.1 _) returned
    | some fault =>
      obtain ⟨raised, same⟩ := propagates.2 fault
      rw [planned] at returned
      dsimp only at returned
      rw [same] at returned
      cases (Prod.mk.inj returned).1

theorem propagates_bind {program : Program Place Value Query Item Fault Result}
    {continuation : Result → Program Place Value Query Item Fault Other}
    (first : program.Propagates) (rest : ∀ result, (continuation result).Propagates) :
    (program >>= continuation).Propagates := by
  have raises {next : Program Place Value Query Item Fault Result}
      (raised : ∃ fault, next = done (.raised fault)) :
      ∃ fault, next.bind continuation = done (.raised fault) := by
    obtain ⟨fault, rfl⟩ := raised
    exact ⟨fault, rfl⟩
  induction program with
  | done outcome =>
    cases outcome with
    | returned result => exact rest result
    | raised fault => trivial
    | hung => trivial
  | aget place next inductionHypothesis =>
    exact ⟨fun answer => inductionHypothesis _ (first.1 answer), fun fault => raises (first.2 fault)⟩
  | asearch query next inductionHypothesis =>
    exact ⟨fun answer => inductionHypothesis _ (first.1 answer), fun fault => raises (first.2 fault)⟩
  | aput place value next inductionHypothesis =>
    exact ⟨fun answer => inductionHypothesis _ (first.1 answer), fun fault => raises (first.2 fault)⟩

/-- A handler that only translates what was raised still raises. -/
theorem propagates_tryCatch_translate {translate : Fault → Fault}
    {program : Program Place Value Query Item Fault Result} (first : program.Propagates) :
    (tryCatch program fun fault => done (.raised (translate fault))).Propagates := by
  have raises {next : Program Place Value Query Item Fault Result}
      (raised : ∃ fault, next = done (.raised fault)) :
      ∃ fault, next.tryCatch (fun fault => done (.raised (translate fault))) =
        done (.raised fault) := by
    obtain ⟨fault, rfl⟩ := raised
    exact ⟨translate fault, rfl⟩
  induction program with
  | done outcome => cases outcome <;> trivial
  | aget place next inductionHypothesis =>
    exact ⟨fun answer => inductionHypothesis _ (first.1 answer), fun fault => raises (first.2 fault)⟩
  | asearch query next inductionHypothesis =>
    exact ⟨fun answer => inductionHypothesis _ (first.1 answer), fun fault => raises (first.2 fault)⟩
  | aput place value next inductionHypothesis =>
    exact ⟨fun answer => inductionHypothesis _ (first.1 answer), fun fault => raises (first.2 fault)⟩

theorem propagates_get (place : Place) :
    (get place : Program Place Value Query Item Fault (Option Value)).Propagates :=
  ⟨fun _ => trivial, fun fault => ⟨fault, rfl⟩⟩

theorem propagates_search (query : Query) :
    (search query : Program Place Value Query Item Fault (List Item)).Propagates :=
  ⟨fun _ => trivial, fun fault => ⟨fault, rfl⟩⟩

theorem propagates_put (place : Place) (value : Value) :
    (put place value : Program Place Value Query Item Fault Unit).Propagates :=
  ⟨fun _ => trivial, fun fault => ⟨fault, rfl⟩⟩

/-! ### Programs that make only certain calls -/

/-- Whatever the answers are, every call the program makes is an `allowed` one. -/
def Uses (allowed : Call Place Value Query → Prop) :
    Program Place Value Query Item Fault Result → Prop
  | done _ => True
  | aget place next => allowed (.aget place) ∧ ∀ answer, (next answer).Uses allowed
  | asearch query next => allowed (.asearch query) ∧ ∀ answer, (next answer).Uses allowed
  | aput place value next => allowed (.aput place value) ∧ ∀ answer, (next answer).Uses allowed

variable {allowed : Call Place Value Query → Prop}

@[simp] theorem uses_pure (result : Result) :
    (pure result : Program Place Value Query Item Fault Result).Uses allowed := trivial

@[simp] theorem uses_throw (fault : Fault) :
    (throw fault : Program Place Value Query Item Fault Result).Uses allowed := trivial

@[simp] theorem uses_done (outcome : Outcome Fault Result) :
    (done outcome : Program Place Value Query Item Fault Result).Uses allowed := trivial

@[simp] theorem uses_ofOutcome (outcome : Outcome Fault Result) :
    (ofOutcome outcome : Program Place Value Query Item Fault Result).Uses allowed := trivial

theorem uses_search {query : Query} (allows : allowed (.asearch query)) :
    (search query : Program Place Value Query Item Fault _).Uses allowed :=
  ⟨allows, fun _ => trivial⟩

theorem uses_mono {wider : Call Place Value Query → Prop}
    (widens : ∀ call, allowed call → wider call)
    {program : Program Place Value Query Item Fault Result} (uses : program.Uses allowed) :
    program.Uses wider := by
  induction program with
  | done outcome => trivial
  | aget place next inductionHypothesis =>
    exact ⟨widens _ uses.1, fun answer => inductionHypothesis answer (uses.2 answer)⟩
  | asearch query next inductionHypothesis =>
    exact ⟨widens _ uses.1, fun answer => inductionHypothesis answer (uses.2 answer)⟩
  | aput place value next inductionHypothesis =>
    exact ⟨widens _ uses.1, fun answer => inductionHypothesis answer (uses.2 answer)⟩

theorem uses_bind {program : Program Place Value Query Item Fault Result}
    {continuation : Result → Program Place Value Query Item Fault Other}
    (first : program.Uses allowed) (rest : ∀ result, (continuation result).Uses allowed) :
    (program >>= continuation).Uses allowed := by
  induction program with
  | done outcome =>
    cases outcome with
    | returned result => exact rest result
    | raised fault => trivial
    | hung => trivial
  | aget place next inductionHypothesis =>
    exact ⟨first.1, fun answer => inductionHypothesis answer (first.2 answer)⟩
  | asearch query next inductionHypothesis =>
    exact ⟨first.1, fun answer => inductionHypothesis answer (first.2 answer)⟩
  | aput place value next inductionHypothesis =>
    exact ⟨first.1, fun answer => inductionHypothesis answer (first.2 answer)⟩

theorem uses_tryCatch {program : Program Place Value Query Item Fault Result}
    {handler : Fault → Program Place Value Query Item Fault Result}
    (first : program.Uses allowed) (rest : ∀ fault, (handler fault).Uses allowed) :
    (tryCatch program handler).Uses allowed := by
  induction program with
  | done outcome =>
    cases outcome with
    | returned result => trivial
    | raised fault => exact rest fault
    | hung => trivial
  | aget place next inductionHypothesis =>
    exact ⟨first.1, fun answer => inductionHypothesis answer (first.2 answer)⟩
  | asearch query next inductionHypothesis =>
    exact ⟨first.1, fun answer => inductionHypothesis answer (first.2 answer)⟩
  | aput place value next inductionHypothesis =>
    exact ⟨first.1, fun answer => inductionHypothesis answer (first.2 answer)⟩

/-- An invariant every allowed put keeps holds after a run. -/
theorem run_preserves (invariant : State → Prop)
    (puts : ∀ place value state, allowed (.aput place value) → invariant state →
      invariant (world.put state place value))
    (program : Program Place Value Query Item Fault Result) (uses : program.Uses allowed)
    (state : State) (holds : invariant state) : invariant (program.run world state).2 := by
  induction program generalizing state with
  | done outcome => exact holds
  | aget place next inductionHypothesis =>
    exact inductionHypothesis _ (uses.2 _) state holds
  | asearch query next inductionHypothesis =>
    exact inductionHypothesis _ (uses.2 _) state holds
  | aput place value next inductionHypothesis =>
    exact inductionHypothesis _ (uses.2 _) _ (puts place value state uses.1 holds)

/-- Two stores that give the same answers to every allowed call, and that allowed puts keep
related, make a program end the same way and stay related. -/
theorem run_related (related : State → State → Prop)
    (gets : ∀ place first second, allowed (.aget place) → related first second →
      world.get first place = world.get second place)
    (searches : ∀ query first second, allowed (.asearch query) → related first second →
      world.search first query = world.search second query)
    (puts : ∀ place value first second, allowed (.aput place value) → related first second →
      related (world.put first place value) (world.put second place value))
    (program : Program Place Value Query Item Fault Result) (uses : program.Uses allowed)
    (first second : State) (holds : related first second) :
    (program.run world first).1 = (program.run world second).1 ∧
      related (program.run world first).2 (program.run world second).2 := by
  induction program generalizing first second with
  | done outcome => exact ⟨rfl, holds⟩
  | aget place next inductionHypothesis =>
    show ((next (.ok (world.get first place))).run world first).1 =
        ((next (.ok (world.get second place))).run world second).1 ∧
      related ((next (.ok (world.get first place))).run world first).2
        ((next (.ok (world.get second place))).run world second).2
    rw [gets place first second uses.1 holds]
    exact inductionHypothesis _ (uses.2 _) first second holds
  | asearch query next inductionHypothesis =>
    show ((next (.ok (world.search first query))).run world first).1 =
        ((next (.ok (world.search second query))).run world second).1 ∧
      related ((next (.ok (world.search first query))).run world first).2
        ((next (.ok (world.search second query))).run world second).2
    rw [searches query first second uses.1 holds]
    exact inductionHypothesis _ (uses.2 _) first second holds
  | aput place value next inductionHypothesis =>
    exact inductionHypothesis _ (uses.2 _) _ _ (puts place value first second uses.1 holds)

/-- A program that makes no call ends the same in every state. -/
theorem run_of_quiet {program : Program Place Value Query Item Fault Result}
    (quiet : program.Uses fun _ => False) (first second : State) :
    (program.run world first).1 = (program.run world second).1 :=
  (run_related (fun _ _ => True) (fun _ _ _ impossible => impossible.elim)
    (fun _ _ _ impossible => impossible.elim) (fun _ _ _ _ impossible => impossible.elim)
    program quiet first second trivial).1

/-- A sequence ends the same in two states when its first part does and the rest makes no call. -/
theorem run_bind_of_quiet {program : Program Place Value Query Item Fault Result}
    {continuation : Result → Program Place Value Query Item Fault Other} {first second : State}
    (same : (program.run world first).1 = (program.run world second).1)
    (quiet : ∀ result, (continuation result).Uses fun _ => False) :
    ((program >>= continuation).run world first).1 =
      ((program >>= continuation).run world second).1 := by
  rw [run_bind, run_bind]
  generalize program.run world first = one at same
  generalize program.run world second = two at same
  obtain ⟨outcome, firstMiddle⟩ := one
  obtain ⟨_, secondMiddle⟩ := two
  obtain rfl := same
  cases outcome with
  | returned result => exact run_of_quiet (quiet result) _ _
  | raised fault => rfl
  | hung => rfl

/-- A handled program ends the same in two states when it does so unhandled and the handler makes
no call. -/
theorem run_tryCatch_of_quiet {program : Program Place Value Query Item Fault Result}
    {handler : Fault → Program Place Value Query Item Fault Result} {first second : State}
    (same : (program.run world first).1 = (program.run world second).1)
    (quiet : ∀ fault, (handler fault).Uses fun _ => False) :
    ((tryCatch program handler).run world first).1 =
      ((tryCatch program handler).run world second).1 := by
  rw [run_tryCatch, run_tryCatch]
  generalize program.run world first = one at same
  generalize program.run world second = two at same
  obtain ⟨outcome, firstMiddle⟩ := one
  obtain ⟨_, secondMiddle⟩ := two
  obtain rfl := same
  cases outcome with
  | returned result => rfl
  | raised fault => exact run_of_quiet (quiet fault) _ _
  | hung => rfl

/-! ### Programs against any answers -/

/-- The searches of a program, each with its answer, and how the program ends. -/
structure Transcript (Query Item Fault Result : Type) where
  searched : List (Query × List Item)
  outcome : Outcome Fault Result

/-- What a program does with a store that keeps nothing and answers its searches from a stream,
whatever they ask for. -/
def transcript : Program Place Value Query Item Fault Result → (Nat → List Item) →
    Transcript Query Item Fault Result
  | done outcome, _ => ⟨[], outcome⟩
  | aget _ next, answers => (next (.ok none)).transcript answers
  | asearch query next, answers =>
    let rest := (next (.ok (answers 0))).transcript fun call => answers (call + 1)
    ⟨(query, answers 0) :: rest.searched, rest.outcome⟩
  | aput _ _ next, answers => (next (.ok ())).transcript answers

@[simp] theorem transcript_pure (result : Result) (answers : Nat → List Item) :
    (pure result : Program Place Value Query Item Fault Result).transcript answers =
      ⟨[], .returned result⟩ := rfl

@[simp] theorem transcript_done (outcome : Outcome Fault Result) (answers : Nat → List Item) :
    (done outcome : Program Place Value Query Item Fault Result).transcript answers =
      ⟨[], outcome⟩ := rfl

theorem transcript_search_bind (query : Query)
    (continuation : List Item → Program Place Value Query Item Fault Result)
    (answers : Nat → List Item) :
    (search query >>= continuation).transcript answers =
      ⟨(query, answers 0) ::
          ((continuation (answers 0)).transcript fun call => answers (call + 1)).searched,
        ((continuation (answers 0)).transcript fun call => answers (call + 1)).outcome⟩ := rfl

end Program

end StoreProgram
