/-
This file proves what a write leaves when some of its store calls fail and it returns all
the same. A failed read or put ends the write; a failed page of its lookup is swallowed, so
the record is put without a mark unless every page up to the first declaration was read.
-/

import FleetMemory.Transitions
import FleetMemory.Writer

namespace FleetMemory

open StoreProgram DeterministicWriter

/-! ### The lookup of a successor -/

/-- No page of the lookup fails up to the one that holds the first row that declares the key. -/
def PagesRead (naturalKey : String) (rows : List Item) (faults : List (Option PyError)) : Prop :=
  ∀ page ≤ rows.findIdx (declaring naturalKey) / forwardPage, faults.getD page none = none

instance (naturalKey : String) (rows : List Item) (faults : List (Option PyError)) :
    Decidable (PagesRead naturalKey rows faults) :=
  inferInstanceAs (Decidable (∀ page ≤ _, _))

/-- What the lookup of a successor answers under a fault schedule. -/
def lookedUp (naturalKey : String) (rows : List Item) (faults : List (Option PyError)) :
    Option String :=
  if PagesRead naturalKey rows faults then firstDeclaring naturalKey rows else none

section

variable {engine : SearchEngine} {store : Store} {naturalKey : String}
  {namespaceParts : List String} {rows : List Item} {faults : List (Option PyError)}

/-- A lookup whose first page fails finds nothing. -/
theorem lookedUp_of_fault {fault : PyError} (fails : faults.headD none = some fault) :
    lookedUp naturalKey rows faults = none := by
  refine if_neg fun read => ?_
  have first := read 0 (Nat.zero_le _)
  rw [← List.headD_eq_getD, fails] at first
  cases first

/-- A lookup in which no row declares the key finds nothing. -/
theorem lookedUp_of_none (absent : rows.find? (declaring naturalKey) = none) :
    lookedUp naturalKey rows faults = none := by
  rw [lookedUp, firstDeclaring, absent, Option.bind_none, ite_self]

/-- A first page that is read and declares the key ends the lookup. -/
theorem lookedUp_of_found {item : Item} (succeeds : faults.headD none = none)
    (found : (rows.take forwardPage).find? (declaring naturalKey) = some item) :
    lookedUp naturalKey rows faults = item.value.naturalKey := by
  have whole : rows.find? (declaring naturalKey) = some item := by
    rw [← List.take_append_drop forwardPage rows, List.find?_append, found, Option.some_or]
  have early : rows.findIdx (declaring naturalKey) < forwardPage := by
    have inside : (rows.take forwardPage).findIdx (declaring naturalKey) <
        (rows.take forwardPage).length :=
      List.findIdx_lt_length_of_exists
        ⟨item, List.mem_of_find?_eq_some found, List.find?_some found⟩
    rw [← List.take_append_drop forwardPage rows, List.findIdx_append, if_pos inside]
    exact inside.trans_le (List.length_take_le _ _)
  rw [lookedUp, if_pos, firstDeclaring, whole, Option.bind_some]
  intro page within
  rw [Nat.div_eq_of_lt early] at within
  rwa [Nat.le_zero.mp within, ← List.headD_eq_getD]

/-- A first page that is read without a declaration leaves the lookup to the others. -/
theorem lookedUp_of_absent (succeeds : faults.headD none = none)
    (absent : (rows.take forwardPage).find? (declaring naturalKey) = none) :
    lookedUp naturalKey rows faults =
      lookedUp naturalKey (rows.drop forwardPage) faults.tail := by
  have rest : rows.find? (declaring naturalKey) =
      (rows.drop forwardPage).find? (declaring naturalKey) := by
    conv_lhs => rw [← List.take_append_drop forwardPage rows, List.find?_append, absent]
    rw [Option.none_or]
  by_cases short : rows.length < forwardPage
  · have none_left : (rows.drop forwardPage).find? (declaring naturalKey) = none := by
      rw [List.drop_eq_nil_of_le short.le, List.find?_nil]
    rw [lookedUp_of_none (rest.trans none_left), lookedUp_of_none none_left]
  · have later : rows.findIdx (declaring naturalKey) =
        (rows.drop forwardPage).findIdx (declaring naturalKey) + forwardPage := by
      conv_lhs => rw [← List.take_append_drop forwardPage rows, List.findIdx_append]
      have none_here : (rows.take forwardPage).findIdx (declaring naturalKey) =
          (rows.take forwardPage).length :=
        List.findIdx_eq_length_of_false fun row member => by
          simpa using List.find?_eq_none.mp absent row member
      rw [if_neg none_here.not_lt, List.length_take, min_eq_left (not_lt.mp short)]
    have pages : PagesRead naturalKey rows faults ↔
        PagesRead naturalKey (rows.drop forwardPage) faults.tail := by
      have size : 0 < forwardPage := by decide
      rw [PagesRead, PagesRead, later, Nat.add_div_right _ size]
      cases faults with
      | nil => simp
      | cons fate others =>
        constructor
        · intro read page within
          exact read (page + 1) (Nat.succ_le_succ within)
        · intro read page within
          cases page with
          | zero => exact succeeds
          | succ page => exact read page (Nat.le_of_succ_le_succ within)
    rw [lookedUp, lookedUp, firstDeclaring, firstDeclaring, rest]
    simp only [pages]

variable (naturalKey) in
/-- However its pages fare, the lookup goes on with what it found in the pages it read, unless it
is given up. -/
theorem runFaulty_forwardPages_bind {Result : Type} (next : Option String → StoreM Result)
    (ranked : engine.ranking (listing namespaceParts) store = rows) (pages offset : Nat)
    (faults : List (Option PyError)) :
    let run := ((Program.tryCatch (forwardPages naturalKey namespaceParts pages offset)
      fun _ => pure none) >>= next).runFaulty (storeWorld engine) faults store
    (run = (.hung, store) ∧ forwardPage * pages ≤ (rows.drop offset).length) ∨
      ∃ left, run = (next (lookedUp naturalKey (rows.drop offset) faults)).runFaulty
        (storeWorld engine) left store := by
  intro run
  induction pages generalizing offset faults with
  | zero => exact Or.inl ⟨rfl, Nat.zero_le _⟩
  | succ pages inductionHypothesis =>
    have step : run = ((Program.tryCatch (Program.finish (Program.answered (faults.headD none)
        (((engine.ranking (listing namespaceParts) store).drop offset).take forwardPage)) >>=
          fun results => (results.find? (declaring naturalKey)).elim
            (if results.length < forwardPage then pure none
              else forwardPages naturalKey namespaceParts pages (offset + forwardPage))
            fun item => pure item.value.naturalKey)
        fun _ => pure none) >>= next).runFaulty (storeWorld engine) faults.tail store := by
      show ((Program.tryCatch (forwardPages naturalKey namespaceParts (pages + 1) offset)
        fun _ => pure none) >>= next).runFaulty (storeWorld engine) faults store = _
      rw [forwardPages_succ]
      rfl
    rw [ranked] at step
    cases fate : faults.headD none with
    | some fault =>
      right
      rw [step, fate, lookedUp_of_fault fate]
      exact ⟨faults.tail, rfl⟩
    | none =>
      rw [fate, Program.answered, Program.finish_ok_bind] at step
      cases found : ((rows.drop offset).take forwardPage).find? (declaring naturalKey) with
      | some item =>
        right
        rw [step, found, lookedUp_of_found fate found]
        exact ⟨faults.tail, rfl⟩
      | none =>
        rw [lookedUp_of_absent fate found, List.drop_drop]
        by_cases short : ((rows.drop offset).take forwardPage).length < forwardPage
        · right
          have ended : rows.drop (offset + forwardPage) = [] := by
            rw [List.length_take, List.length_drop] at short
            exact List.drop_eq_nil_of_le (by omega)
          rw [step, found, ended, lookedUp_of_none List.find?_nil]
          simp only [if_pos short]
          exact ⟨faults.tail, rfl⟩
        · rw [step, found]
          simp only [if_neg short]
          refine (inductionHypothesis (offset + forwardPage) faults.tail).imp_left fun given_up => ?_
          refine ⟨given_up.1, ?_⟩
          rw [List.length_take, List.length_drop] at short
          have more := given_up.2
          rw [List.length_drop] at more ⊢
          rw [Nat.mul_succ]
          omega

end

/-! ### A write whose calls may fail -/

/-- One call of the writer: what it is given, the search engine as it ranks during the call, and
the fate of each store call the write makes. -/
structure WriteCall where
  payload : Payload
  episodeMeta : Option EpisodeMeta
  engine : SearchEngine
  faults : List (Option PyError)

/-- A call that returns normally, and the stores before and after it. -/
def CallStep (writer : DeterministicWriter) (before : Store) (call : WriteCall) (after : Store) :
    Prop :=
  (writer.write call.payload call.episodeMeta).runFaulty (storeWorld call.engine) call.faults before =
    (.returned (), after)

namespace WriteCall

variable (call : WriteCall) (writer : DeterministicWriter)

/-- The successor the call finds for its record: the first listed declarer of its key, if every
page up to it is read. The read of the record comes before the pages. -/
def found (store : Store) : Option String :=
  lookedUp call.payload.naturalKey
    (call.engine.ranking (listing (recordNamespace call.payload)) store) call.faults.tail

/-- The record the call puts. -/
def putValue (store : Store) : StoredValue :=
  markFound (storedValue call.payload (contentHash writer.runtime call.payload)
    (writer.nextVersion call.payload store) call.episodeMeta) (call.found store)

/-- The store with the payload's record created, left or replaced. -/
def upserted (store : Store) : Store :=
  if writer.Puts call.payload store then
    store.insert (writer.recordPlace call.payload) (call.putValue writer store)
  else store

/-- The store a call that returns leaves. -/
def leaves (store : Store) : Store :=
  markAll writer.runtime call.payload.naturalKey call.payload.supersedes (call.upserted writer store)

end WriteCall

section

variable {writer : DeterministicWriter} {engine : SearchEngine} {store before after : Store}
  {faults : List (Option PyError)}

/-- Marking that returns has marked every predecessor. -/
theorem runFaulty_applySupersessions {runtime : Runtime} {successor : String}
    {predecessors : List String}
    (returned : (applySupersessions runtime successor predecessors).runFaulty (storeWorld engine)
      faults store = (.returned (), after)) :
    after = markAll runtime successor predecessors store := by
  induction predecessors generalizing faults store with
  | nil => exact (Prod.mk.inj returned).2.symm
  | cons predecessor rest inductionHypothesis =>
    rw [applySupersessions] at returned
    rw [markAll_cons, mark]
    cases named : keyPlace runtime predecessor with
    | none =>
      rw [named] at returned
      cases (Prod.mk.inj returned).1
    | some place =>
      rw [named] at returned
      dsimp only at returned ⊢
      rw [Program.runFaulty_get_bind] at returned
      cases fate : faults.headD none with
      | some fault =>
        rw [fate] at returned
        cases (Prod.mk.inj returned).1
      | none =>
        rw [fate, storeWorld_get] at returned
        cases stored : store.lookup place with
        | none =>
          rw [stored] at returned
          exact inductionHypothesis returned
        | some existing =>
          rw [stored] at returned
          dsimp only at returned
          rw [Program.runFaulty_put_bind] at returned
          cases putFate : faults.tail.headD none with
          | some fault =>
            rw [putFate] at returned
            cases (Prod.mk.inj returned).1
          | none =>
            rw [putFate] at returned
            exact inductionHypothesis returned

theorem runFaulty_applyDeclared {payload : Payload}
    (returned : (writer.applyDeclared payload).runFaulty (storeWorld engine) faults store =
      (.returned (), after)) :
    after = markAll writer.runtime payload.naturalKey payload.supersedes store := by
  unfold applyDeclared at returned
  split at returned
  · rename_i none_declared
    rw [none_declared]
    exact (Prod.mk.inj returned).2.symm
  · exact runFaulty_applySupersessions returned

/-- Writing a record fails before it changes anything, or puts the record and goes on. -/
theorem runFaulty_writeRecord_bind {payload : Payload} {hash : String} {version : Int}
    {episodeMeta : Option EpisodeMeta} (next : Unit → StoreM Unit)
    (faults : List (Option PyError)) :
    let run := (writer.writeRecord payload hash version episodeMeta >>= next).runFaulty
      (storeWorld engine) faults store
    (∃ outcome, outcome ≠ .returned () ∧ run = (outcome, store)) ∨
      ∃ left, run = (next ()).runFaulty (storeWorld engine) left
        (store.insert (writer.recordPlace payload)
          (markFound (storedValue payload hash version episodeMeta)
            (lookedUp payload.naturalKey
              (engine.ranking (listing (recordNamespace payload)) store) faults))) := by
  intro run
  have unfolded : run = (writer.writeRecord payload hash version episodeMeta >>= next).runFaulty
    (storeWorld engine) faults store := rfl
  rw [writeRecord, checkAndApplyForwardSupersession, applyForwardSupersessions,
    Program.bind_bind, Program.bind_bind] at unfolded
  rcases runFaulty_forwardPages_bind payload.naturalKey _ rfl writer.pages 0 faults with
    ⟨hung, _⟩ | ⟨left, rest⟩
  · exact Or.inl ⟨.hung, by simp, unfolded.trans hung⟩
  · rw [rest, List.drop_zero] at unfolded
    change run = (Program.put _ _ >>= next).runFaulty _ left store at unfolded
    rw [Program.runFaulty_put_bind] at unfolded
    cases fate : left.headD none with
    | some fault =>
      rw [fate] at unfolded
      exact Or.inl ⟨.raised fault, by simp, unfolded⟩
    | none =>
      rw [fate] at unfolded
      exact Or.inr ⟨left.tail, unfolded⟩

/-- A call fails before it changes anything, or was accepted and goes on to mark what its payload
lists, once the record is put if its content was not stored. -/
theorem runFaulty_write_cases (writer : DeterministicWriter) (call : WriteCall) (store : Store) :
    let run := (writer.write call.payload call.episodeMeta).runFaulty (storeWorld call.engine)
      call.faults store
    (∃ outcome, outcome ≠ .returned () ∧ run = (outcome, store)) ∨
      Accepts call.payload ∧ ∃ left, run = (writer.applyDeclared call.payload).runFaulty
        (storeWorld call.engine) left (call.upserted writer store) := by
  intro run
  have unfolded : run = (writer.write call.payload call.episodeMeta).runFaulty
    (storeWorld call.engine) call.faults store := rfl
  by_cases accepts : Accepts call.payload
  · rw [write_of_accepts accepts, upsert, Program.runFaulty_get_bind, storeWorld_get] at unfolded
    cases fate : call.faults.headD none with
    | some fault =>
      rw [fate] at unfolded
      exact Or.inl ⟨.raised fault, nofun, unfolded⟩
    | none =>
      rw [fate] at unfolded
      have put : writer.Puts call.payload store →
          run = (writer.writeRecord call.payload (contentHash writer.runtime call.payload)
            (writer.nextVersion call.payload store) call.episodeMeta >>= fun _ =>
              writer.applyDeclared call.payload).runFaulty (storeWorld call.engine)
                call.faults.tail store →
          (∃ outcome, outcome ≠ .returned () ∧ run = (outcome, store)) ∨
            ∃ left, run = (writer.applyDeclared call.payload).runFaulty (storeWorld call.engine)
              left (call.upserted writer store) := by
        intro puts ran
        rw [WriteCall.upserted, if_pos puts, ran]
        exact runFaulty_writeRecord_bind _ call.faults.tail
      cases stored : store.lookup (writer.recordPlace call.payload) with
      | none =>
        rw [nextVersion, stored] at put
        rw [stored] at unfolded
        exact (put (by simp [Puts, stored]) unfolded).imp_right (And.intro accepts)
      | some existing =>
        rw [nextVersion, stored] at put
        rw [stored] at unfolded
        dsimp only at unfolded
        by_cases same : existing.contentHash = some (contentHash writer.runtime call.payload)
        · rw [if_pos same] at unfolded
          rw [WriteCall.upserted, if_neg (by simp [Puts, stored, same])]
          exact Or.inr ⟨accepts, call.faults.tail, unfolded⟩
        · rw [if_neg same] at unfolded
          exact (put (by simp [Puts, stored, same]) unfolded).imp_right (And.intro accepts)
  · obtain ⟨error, raises⟩ := write_of_not_accepts writer call.episodeMeta accepts
    rw [raises] at unfolded
    exact Or.inl ⟨.raised error, nofun, unfolded⟩

/-- A call that returns was accepted and leaves its store. -/
theorem leaves_of_callStep {call : WriteCall} (step : CallStep writer before call after) :
    Accepts call.payload ∧ after = call.leaves writer before := by
  rcases runFaulty_write_cases writer call before with ⟨outcome, fails, ran⟩ | ⟨accepts, left, ran⟩
  · exact absurd (Prod.mk.inj (ran.symm.trans step)).1 fails
  · exact ⟨accepts, runFaulty_applyDeclared (ran.symm.trans step)⟩

/-- A call on a store whose calls never fail. -/
theorem callStep_of_run {payload : Payload} {episodeMeta : Option EpisodeMeta}
    (returned : (writer.write payload episodeMeta).run (storeWorld engine) before =
      (.returned (), after)) : CallStep writer before ⟨payload, episodeMeta, engine, []⟩ after := by
  rw [CallStep, Program.runFaulty_nil]
  exact returned

/-! ### The records a call leaves -/

variable {call : WriteCall} {place : Place} {value : StoredValue}

/-- What a call finds is the natural key of a stored record that declares the payload's key. -/
theorem declarer_of_found {successor : String} (found : call.found store = some successor) :
    ∃ place value, store.lookup place = some value ∧
      value.declares call.payload.naturalKey = true ∧ value.naturalKey = some successor := by
  unfold WriteCall.found lookedUp at found
  split at found
  · obtain ⟨place, value, stored, _, declares, key⟩ := successorOf_eq_some found
    exact ⟨place, value, stored, declares, key⟩
  · cases found

theorem lookup_callUpserted (place : Place) :
    (call.upserted writer store).lookup place =
      if writer.Puts call.payload store ∧ place = writer.recordPlace call.payload then
        some (call.putValue writer store)
      else store.lookup place :=
  lookup_insertIf _ _ _ _ _

/-- The payload declares a key whose record stands at the place. -/
def Lists (writer : DeterministicWriter) (payload : Payload) (place : Place) : Prop :=
  ∃ key ∈ payload.supersedes, keyPlace writer.runtime key = some place

instance (writer : DeterministicWriter) (payload : Payload) (place : Place) :
    Decidable (Lists writer payload place) :=
  inferInstanceAs (Decidable (∃ key ∈ _, _))

/-- A call puts its own record, marks what it lists and leaves the rest. -/
theorem lookup_leaves (place : Place) :
    (call.leaves writer store).lookup place =
      (if writer.Puts call.payload store ∧ place = writer.recordPlace call.payload then
        some (call.putValue writer store)
      else store.lookup place).map fun value =>
        if Lists writer call.payload place then value.markedBy call.payload.naturalKey
        else value := by
  rw [WriteCall.leaves, lookup_markAll, lookup_callUpserted]
  rfl

end

end FleetMemory
