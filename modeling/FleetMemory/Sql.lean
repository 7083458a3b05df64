/-
This file is a small library on SQL. Conditions are true, false or NULL, and a statement
acts on the rows for which its condition is true. A session makes its calls one after
the other, each of which may fail; what it changed becomes visible at its commit, all at
once, and never when a call before it failed.
-/

import Mathlib.Data.List.Basic

namespace Sql

/-! ### Three-valued logic -/

/-- A truth value; `none` is NULL. -/
abbrev Truth := Option Bool

namespace Truth

variable {Value : Type}

/-- `OR`. -/
def or : Truth → Truth → Truth
  | some true, _ => some true
  | some false, right => right
  | none, some true => some true
  | none, _ => none

/-- `value IS NULL`. -/
def isNull (value : Option Value) : Truth :=
  some value.isNone

/-- A comparison: NULL when a side is. -/
def compare (holds : Value → Value → Bool) : Option Value → Option Value → Truth
  | some left, some right => some (holds left right)
  | _, _ => none

/-- A condition selects a row when it is true of it, and not when it is NULL. -/
def selects (truth : Truth) : Bool :=
  truth == some true

@[simp] theorem selects_or (left right : Truth) :
    (left.or right).selects = (left.selects || right.selects) := by
  rcases left with _ | _ | _ <;> rcases right with _ | _ | _ <;> rfl

@[simp] theorem selects_isNull (value : Option Value) :
    (isNull value).selects = value.isNone := by
  cases value <;> rfl

end Truth

/-! ### Statements -/

section

variable {Row Other Error : Type}

/-- The rows a condition selects, and the others. -/
def parted (condition : Row → Except Error Truth) : List Row → Except Error (List Row × List Row)
  | [] => .ok ([], [])
  | row :: rest => do
    let truth ← condition row
    let (selected, others) ← parted condition rest
    return if truth.selects then (row :: selected, others) else (selected, row :: others)

/-- `SELECT count(*) … WHERE`. -/
def count (condition : Row → Except Error Truth) (rows : List Row) : Except Error Nat :=
  (parted condition rows).map fun parts => parts.1.length

/-- `DELETE … WHERE`: the rows that remain. -/
def delete (condition : Row → Except Error Truth) (rows : List Row) : Except Error (List Row) :=
  (parted condition rows).map Prod.snd

/-- `DELETE … USING … WHERE joins AND condition`: the rows that remain. -/
def deleteUsing (joins : Row → Other → Bool) (condition : Other → Except Error Truth)
    (rows : List Row) (others : List Other) : Except Error (List Row) :=
  (parted condition others).map fun parts =>
    rows.filter fun row => !parts.1.any (joins row)

variable {condition : Row → Except Error Truth} {truth : Row → Truth} {rows : List Row}

/-- A condition that is evaluated on every row parts them. -/
theorem parted_eq_ok (evaluated : ∀ row ∈ rows, condition row = .ok (truth row)) :
    parted condition rows =
      .ok (rows.filter fun row => (truth row).selects,
        rows.filter fun row => !(truth row).selects) := by
  induction rows with
  | nil => rfl
  | cons row rest inductionHypothesis =>
    rw [parted, evaluated row List.mem_cons_self, inductionHypothesis fun other member =>
      evaluated other (List.mem_cons_of_mem row member)]
    dsimp only [bind, Except.bind, pure, Except.pure]
    cases chosen : (truth row).selects <;> simp [chosen]

theorem count_eq_ok (evaluated : ∀ row ∈ rows, condition row = .ok (truth row)) :
    count condition rows = .ok (rows.countP fun row => (truth row).selects) := by
  rw [count, parted_eq_ok evaluated, List.countP_eq_length_filter]
  rfl

theorem delete_eq_ok (evaluated : ∀ row ∈ rows, condition row = .ok (truth row)) :
    delete condition rows = .ok (rows.filter fun row => !(truth row).selects) := by
  rw [delete, parted_eq_ok evaluated]
  rfl

theorem deleteUsing_eq_ok {joined : List Other} {joins : Other → Row → Bool}
    (evaluated : ∀ row ∈ rows, condition row = .ok (truth row)) :
    deleteUsing joins condition joined rows = .ok (joined.filter fun other =>
      !(rows.filter fun row => (truth row).selects).any (joins other)) := by
  rw [deleteUsing, parted_eq_ok evaluated]
  rfl

end

/-! ### Transactions -/

/-- A session: the data others see, the data its transaction sees, and the fates of its next
calls. -/
structure Session (Data Error : Type) where
  committed : Data
  working : Data
  faults : List (Option Error)

/-- A program that makes calls in a session. -/
abbrev Driver (Data Error : Type) := ExceptT Error (StateM (Session Data Error))

section

variable {Data Error Result Other : Type}

/-- A call, which fails as planned or has its effect on the transaction's data. -/
def call (effect : Data → Except Error (Result × Data)) : Driver Data Error Result :=
  ExceptT.mk fun session =>
    match session.faults.headD none with
    | some fault => (.error fault, { session with faults := session.faults.tail })
    | none =>
      match effect session.working with
      | .error error => (.error error, { session with faults := session.faults.tail })
      | .ok (result, working) => (.ok result, { session with working, faults := session.faults.tail })

/-- `COMMIT`: all of the transaction is applied, or the call fails and nothing is. -/
def commit : Driver Data Error Unit :=
  ExceptT.mk fun session =>
    match session.faults.headD none with
    | some fault => (.error fault, { session with faults := session.faults.tail })
    | none => (.ok (), { session with committed := session.working, faults := session.faults.tail })

/-- `ROLLBACK`. -/
def rollback : Driver Data Error Unit :=
  ExceptT.mk fun session =>
    match session.faults.headD none with
    | some fault => (.error fault, { session with faults := session.faults.tail })
    | none => (.ok (), { session with working := session.committed, faults := session.faults.tail })

/-- A program that raises others for its errors. -/
def translate (translation : Error → Error) (program : Driver Data Error Result) :
    Driver Data Error Result :=
  ExceptT.mk fun session =>
    ((program.run.run session).1.mapError translation, (program.run.run session).2)

/-- How a program ends in a session, and the session it leaves. -/
def runIn (program : Driver Data Error Result) (session : Session Data Error) :
    Except Error Result × Session Data Error :=
  program.run.run session

variable {first : Driver Data Error Result} {next : Result → Driver Data Error Other}
  {session : Session Data Error}

theorem runIn_bind : runIn (first >>= next) session =
    match runIn first session with
    | (.ok result, after) => runIn (next result) after
    | (.error error, after) => (.error error, after) := by
  show (ExceptT.bindCont next (first.run.run session).1).run (first.run.run session).2 = _
  unfold runIn
  rcases first.run.run session with ⟨ended, after⟩
  cases ended <;> rfl

@[simp] theorem runIn_pure (result : Result) :
    runIn (pure result : Driver Data Error Result) session = (.ok result, session) := rfl

/-- The program changes nothing others see. -/
def KeepsCommitted (program : Driver Data Error Result) : Prop :=
  ∀ session, (runIn program session).2.committed = session.committed

/-- A program that returns does so as if no call failed. -/
def OnlyRaises (program : Driver Data Error Result) : Prop :=
  ∀ session result after, runIn program session = (.ok result, after) →
    runIn program { session with faults := [] } = (.ok result, { after with faults := [] })

theorem KeepsCommitted.bind (firstKeeps : KeepsCommitted first)
    (nextKeeps : ∀ result, KeepsCommitted (next result)) : KeepsCommitted (first >>= next) := by
  intro session
  rw [runIn_bind, ← firstKeeps session]
  rcases runIn first session with ⟨ended, after⟩
  cases ended with
  | ok result => exact nextKeeps result after
  | error error => rfl

theorem OnlyRaises.bind (firstRaises : OnlyRaises first)
    (nextRaises : ∀ result, OnlyRaises (next result)) : OnlyRaises (first >>= next) := by
  intro session result after returned
  rw [runIn_bind] at returned ⊢
  cases ended : runIn first session with
  | mk outcome middle =>
    rw [ended] at returned
    cases outcome with
    | error error => cases (Prod.mk.inj returned).1
    | ok value =>
      rw [firstRaises session value middle ended]
      exact nextRaises value middle result after returned

theorem keepsCommitted_pure (result : Result) :
    KeepsCommitted (pure result : Driver Data Error Result) :=
  fun _ => rfl

theorem onlyRaises_pure (result : Result) :
    OnlyRaises (pure result : Driver Data Error Result) := by
  intro session other after returned
  obtain ⟨same, rfl⟩ := Prod.mk.inj returned
  rw [← Except.ok.inj same]
  rfl

theorem runIn_call (effect : Data → Except Error (Result × Data)) :
    runIn (call effect) session =
      match session.faults.headD none with
      | some fault => (.error fault, { session with faults := session.faults.tail })
      | none =>
        match effect session.working with
        | .error error => (.error error, { session with faults := session.faults.tail })
        | .ok (result, working) =>
          (.ok result, { session with working, faults := session.faults.tail }) := rfl

theorem runIn_commit : runIn (commit : Driver Data Error Unit) session =
    match session.faults.headD none with
    | some fault => (.error fault, { session with faults := session.faults.tail })
    | none => (.ok (), { session with
        committed := session.working, faults := session.faults.tail }) := rfl

theorem runIn_rollback : runIn (rollback : Driver Data Error Unit) session =
    match session.faults.headD none with
    | some fault => (.error fault, { session with faults := session.faults.tail })
    | none => (.ok (), { session with
        working := session.committed, faults := session.faults.tail }) := rfl

theorem runIn_translate {program : Driver Data Error Result} (translation : Error → Error) :
    runIn (translate translation program) session =
      ((runIn program session).1.mapError translation, (runIn program session).2) := rfl

theorem KeepsCommitted.translate {program : Driver Data Error Result}
    (keeps : KeepsCommitted program) (translation : Error → Error) :
    KeepsCommitted (translate translation program) :=
  keeps

theorem OnlyRaises.translate {program : Driver Data Error Result} (raises : OnlyRaises program)
    (translation : Error → Error) : OnlyRaises (translate translation program) := by
  intro session result after returned
  rw [runIn_translate] at returned ⊢
  rcases ended : runIn program session with ⟨outcome, final⟩
  rw [ended] at returned
  obtain ⟨same, rfl⟩ := Prod.mk.inj returned
  cases outcome with
  | error error => cases same
  | ok value =>
    obtain rfl := Except.ok.inj same
    rw [raises session value final ended]
    rfl

/-- A program that raises at once. -/
theorem runIn_throw (error : Error) :
    runIn (throw error : Driver Data Error Result) session = (.error error, session) := rfl

theorem keepsCommitted_throw (error : Error) :
    KeepsCommitted (throw error : Driver Data Error Result) :=
  fun _ => rfl

theorem onlyRaises_throw (error : Error) : OnlyRaises (throw error : Driver Data Error Result) := by
  intro session result after returned
  cases (Prod.mk.inj returned).1

theorem keepsCommitted_call (effect : Data → Except Error (Result × Data)) :
    KeepsCommitted (call effect) := by
  intro session
  rw [runIn_call]
  cases session.faults.headD none with
  | some fault => rfl
  | none =>
    dsimp only
    cases effect session.working <;> rfl

theorem keepsCommitted_rollback : KeepsCommitted (rollback : Driver Data Error Unit) := by
  intro session
  rw [runIn_rollback]
  cases session.faults.headD none <;> rfl

theorem onlyRaises_call (effect : Data → Except Error (Result × Data)) :
    OnlyRaises (call effect) := by
  intro session result after returned
  rw [runIn_call] at returned ⊢
  cases planned : session.faults.headD none with
  | some fault =>
    rw [planned] at returned
    cases (Prod.mk.inj returned).1
  | none =>
    rw [planned] at returned
    dsimp only [List.headD_nil] at returned ⊢
    cases answered : effect session.working with
    | error error =>
      rw [answered] at returned
      cases (Prod.mk.inj returned).1
    | ok answer =>
      rw [answered] at returned
      obtain ⟨same, rfl⟩ := Prod.mk.inj returned
      rw [← Except.ok.inj same]
      rfl

theorem onlyRaises_commit : OnlyRaises (commit : Driver Data Error Unit) := by
  intro session result after returned
  rw [runIn_commit] at returned ⊢
  cases planned : session.faults.headD none with
  | some fault =>
    rw [planned] at returned
    cases (Prod.mk.inj returned).1
  | none =>
    rw [planned] at returned
    obtain ⟨_, rfl⟩ := Prod.mk.inj returned
    rfl

theorem onlyRaises_rollback : OnlyRaises (rollback : Driver Data Error Unit) := by
  intro session result after returned
  rw [runIn_rollback] at returned ⊢
  cases planned : session.faults.headD none with
  | some fault =>
    rw [planned] at returned
    cases (Prod.mk.inj returned).1
  | none =>
    rw [planned] at returned
    obtain ⟨_, rfl⟩ := Prod.mk.inj returned
    rfl

/-- Two programs that return under the same plans of failures, whatever the data is. -/
def SameFate (program : Driver Data Error Result) (other : Driver Data Error Other) : Prop :=
  ∀ first second : Session Data Error, first.faults = second.faults →
    (runIn program first).1.toBool = (runIn other second).1.toBool ∧
      (runIn program first).2.faults = (runIn other second).2.faults

theorem sameFate_call {effect : Data → Except Error (Result × Data)}
    {others : Data → Except Error (Other × Data)}
    (succeeds : ∀ data, (effect data).toBool = true)
    (othersSucceed : ∀ data, (others data).toBool = true) :
    SameFate (call effect) (call others) := by
  intro first second same
  rw [runIn_call, runIn_call, same]
  cases second.faults.headD none with
  | some fault => exact ⟨rfl, rfl⟩
  | none =>
    have firstSucceeds := succeeds first.working
    have secondSucceeds := othersSucceed second.working
    dsimp only
    cases answered : effect first.working with
    | error error =>
      rw [answered] at firstSucceeds
      cases firstSucceeds
    | ok answer =>
      cases answeredToo : others second.working with
      | error error =>
        rw [answeredToo] at secondSucceeds
        cases secondSucceeds
      | ok answerToo => exact ⟨rfl, rfl⟩

theorem sameFate_commit : SameFate (commit : Driver Data Error Unit) commit := by
  intro first second same
  rw [runIn_commit, runIn_commit, same]
  cases second.faults.headD none with
  | some fault => exact ⟨rfl, rfl⟩
  | none => exact ⟨rfl, rfl⟩

theorem sameFate_pure (result : Result) (other : Other) :
    SameFate (pure result : Driver Data Error Result) (pure other) :=
  fun _ _ same => ⟨rfl, same⟩

theorem SameFate.bind {Answer Last : Type} {program : Driver Data Error Result}
    {other : Driver Data Error Other} {next : Result → Driver Data Error Answer}
    {nextOther : Other → Driver Data Error Last} (fate : SameFate program other)
    (nextFate : ∀ result answer, SameFate (next result) (nextOther answer)) :
    SameFate (program >>= next) (other >>= nextOther) := by
  intro first second same
  obtain ⟨ended, left⟩ := fate first second same
  rw [runIn_bind, runIn_bind]
  rcases ran : runIn program first with ⟨outcome, firstAfter⟩
  rcases ranToo : runIn other second with ⟨outcomeToo, secondAfter⟩
  rw [ran, ranToo] at ended left
  cases outcome with
  | error error =>
    cases outcomeToo with
    | error errorToo => exact ⟨rfl, left⟩
    | ok answer => cases ended
  | ok result =>
    cases outcomeToo with
    | error errorToo => cases ended
    | ok answer => exact nextFate result answer firstAfter secondAfter left

/-- The program makes so many calls: it returns exactly when none of them is planned to fail, and
leaves the plans of the others. -/
def Makes (count : Nat) (program : Driver Data Error Result) : Prop :=
  ∀ session, ((runIn program session).1.toBool = true ↔
      ∀ fault ∈ session.faults.take count, fault = none) ∧
    ((runIn program session).1.toBool = true →
      (runIn program session).2.faults = session.faults.drop count)

theorem makes_pure (result : Result) : Makes 0 (pure result : Driver Data Error Result) :=
  fun _ => ⟨⟨fun _ _ member => absurd member List.not_mem_nil, fun _ => rfl⟩, fun _ => rfl⟩

theorem makes_call {effect : Data → Except Error (Result × Data)}
    (succeeds : ∀ data, (effect data).toBool = true) : Makes 1 (call effect) := by
  intro session
  rw [runIn_call, List.drop_one]
  cases planned : session.faults with
  | nil =>
    have returns := succeeds session.working
    dsimp only [List.headD_nil]
    cases answered : effect session.working with
    | error error =>
      rw [answered] at returns
      cases returns
    | ok answer =>
      exact ⟨⟨fun _ _ member => absurd member List.not_mem_nil, fun _ => rfl⟩, fun _ => rfl⟩
  | cons fault rest =>
    dsimp only [List.headD_cons]
    cases fault with
    | some fault =>
      refine ⟨iff_of_false Bool.false_ne_true fun silent => ?_, fun returned => by cases returned⟩
      cases silent (some fault) List.mem_cons_self
    | none =>
      have returns := succeeds session.working
      dsimp only
      cases answered : effect session.working with
      | error error =>
        rw [answered] at returns
        cases returns
      | ok answer =>
        refine ⟨⟨fun _ fault member => ?_, fun _ => rfl⟩, fun _ => rfl⟩
        rw [List.take_succ_cons, List.take_zero] at member
        exact List.mem_singleton.mp member

theorem Makes.bind {count more : Nat} (firstMakes : Makes count first)
    (nextMakes : ∀ result, Makes more (next result)) : Makes (count + more) (first >>= next) := by
  intro session
  obtain ⟨returns, left⟩ := firstMakes session
  rw [runIn_bind]
  rcases ran : runIn first session with ⟨ended, after⟩
  rw [ran] at returns left
  rw [List.take_add, ← List.drop_drop]
  cases ended with
  | error error =>
    refine ⟨iff_of_false Bool.false_ne_true fun silent => ?_, fun returned => by cases returned⟩
    cases returns.mpr fun fault member => silent fault (List.mem_append_left _ member)
  | ok result =>
    obtain ⟨nextReturns, nextLeft⟩ := nextMakes result after
    rw [left rfl] at nextReturns nextLeft
    refine ⟨nextReturns.trans ⟨fun silent fault member => ?_, fun silent fault member => ?_⟩,
      nextLeft⟩
    · rcases List.mem_append.mp member with early | late
      · exact returns.mp rfl fault early
      · exact silent fault late
    · exact silent fault (List.mem_append_right _ member)

/-- A call that is not planned to fail has its effect. -/
theorem runIn_call_bind {effect : Data → Except Error (Result × Data)} {committed working : Data}
    {result : Result} {after : Data} (succeeds : effect working = .ok (result, after)) :
    runIn (call effect >>= next) ⟨committed, working, []⟩ =
      runIn (next result) ⟨committed, after, []⟩ := by
  rw [runIn_bind, runIn_call]
  dsimp only [List.headD_nil]
  rw [succeeds]
  rfl

/-- A transaction that ends with its commit leaves everything as it was when it raises. -/
theorem committed_of_raised {transaction : Driver Data Error Result}
    {finish : Result → Other} {error : Error} {after : Session Data Error}
    (keeps : KeepsCommitted transaction)
    (raised : runIn (do let result ← transaction; commit; return finish result) session =
      (.error error, after)) : after.committed = session.committed := by
  have kept := keeps session
  rw [runIn_bind] at raised
  cases ended : runIn transaction session with
  | mk outcome middle =>
    rw [ended] at raised kept
    cases outcome with
    | error first =>
      obtain ⟨_, rfl⟩ := Prod.mk.inj raised
      exact kept
    | ok result =>
      dsimp only at raised
      rw [runIn_bind, runIn_commit] at raised
      cases planned : middle.faults.headD none with
      | some fault =>
        rw [planned] at raised
        obtain ⟨_, rfl⟩ := Prod.mk.inj raised
        exact kept
      | none =>
        rw [planned] at raised
        cases (Prod.mk.inj raised).1

end

end Sql
