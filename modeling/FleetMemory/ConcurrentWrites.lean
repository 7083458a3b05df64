/-
This file models a write that takes turns with others as a machine: it goes through phases,
from its first read over the pages of its lookup to the marking of its predecessors, and
each of its calls is one step between them.
-/

import FleetMemory.Interleaving
import FleetMemory.Writer

namespace FleetMemory

open StoreProgram DeterministicWriter

/-! ### The phases of a write -/

/-- How far a write has come. -/
inductive WritePhase where
  /-- Before its first call. -/
  | starting
  /-- Between two pages of its lookup, with the record it is about to put. -/
  | looking (pages offset : Nat) (value : StoredValue)
  /-- Before the put of its record. -/
  | putting (value : StoredValue)
  /-- Before the read of the first of the predecessors that remain. -/
  | marking (remaining : List String)
  /-- Between the read of a predecessor and its put. -/
  | remarking (place : Place) (existing : StoredValue) (remaining : List String)

namespace WritePhase

/-- The payload's record is not put or found yet. -/
def BeforePut : WritePhase → Prop
  | starting => True
  | looking _ _ _ => True
  | putting _ => True
  | marking _ => False
  | remarking _ _ _ => False

/-- The write is still to read the record of a key among the payload's predecessors. -/
def WillRead (key : String) : WritePhase → Prop
  | starting => True
  | looking _ _ _ => True
  | putting _ => True
  | marking remaining => key ∈ remaining
  | remarking _ _ remaining => key ∈ remaining

/-- The write has read a record at the place and is about to put it back marked. -/
def WillMark (place : Place) : WritePhase → Prop
  | remarking here _ _ => here = place
  | _ => False

end WritePhase

section

variable (writer : DeterministicWriter) (engine : SearchEngine) (payload : Payload)
  (episodeMeta : Option EpisodeMeta)

/-- A lookup of a successor, and what a write does with what it finds. -/
def lookAndPut (value : StoredValue) (lookup : StoreM (Option String)) : StoreM Unit := do
  ((Program.tryCatch lookup fun _ => pure none) >>= fun supersededBy =>
    pure (markFound value supersededBy)) >>= Program.put (writer.recordPlace payload)
  writer.applyDeclared payload

/-- What is left of a write in a phase. -/
def restOfWrite : WritePhase → StoreM Unit
  | .starting => writer.upsert payload episodeMeta
  | .looking pages offset value =>
    lookAndPut writer payload value
      (forwardPages payload.naturalKey (recordNamespace payload) pages offset)
  | .putting value => do
    Program.put (writer.recordPlace payload) value
    writer.applyDeclared payload
  | .marking remaining => applySupersessions writer.runtime payload.naturalKey remaining
  | .remarking place existing remaining => do
    Program.put place (existing.markedBy payload.naturalKey)
    applySupersessions writer.runtime payload.naturalKey remaining

/-- The rows of a page of a write's lookup. -/
def forwardPageOf (store : Store) (offset : Nat) : List Item :=
  ((engine.ranking (listing (recordNamespace payload)) store).drop offset).take forwardPage

/-- What is left of a lookup once a page of it is read. -/
def afterPage (pages offset : Nat) (rows : List Item) : StoreM (Option String) :=
  match rows.find? (declaring payload.naturalKey) with
  | some item => return item.value.naturalKey
  | none =>
    if rows.length < forwardPage then return none
    else forwardPages payload.naturalKey (recordNamespace payload) pages (offset + forwardPage)

/-- The steps of a write between its phases, each with its call and the store after it. -/
inductive Advance (store : Store) :
    WritePhase → Call Place StoredValue SearchQuery → WritePhase → Store → Prop
  | create (puts : writer.Puts payload store) :
      Advance store .starting (.aget (writer.recordPlace payload))
        (.looking writer.pages 0 (storedValue payload (contentHash writer.runtime payload)
          (writer.nextVersion payload store) episodeMeta)) store
  | keep (kept : ¬writer.Puts payload store) :
      Advance store .starting (.aget (writer.recordPlace payload)) (.marking payload.supersedes) store
  | found {pages offset : Nat} {value : StoredValue} {query : SearchQuery} {item : Item}
      (first : (forwardPageOf engine payload store offset).find? (declaring payload.naturalKey) =
        some item) :
      Advance store (.looking (pages + 1) offset value) (.asearch query)
        (.putting (markFound value item.value.naturalKey)) store
  | lastPage {pages offset : Nat} {value : StoredValue} {query : SearchQuery}
      (absent : (forwardPageOf engine payload store offset).find? (declaring payload.naturalKey) =
        none)
      (short : (forwardPageOf engine payload store offset).length < forwardPage) :
      Advance store (.looking (pages + 1) offset value) (.asearch query) (.putting value) store
  | nextPage {pages offset : Nat} {value : StoredValue} {query : SearchQuery}
      (absent : (forwardPageOf engine payload store offset).find? (declaring payload.naturalKey) =
        none) :
      Advance store (.looking (pages + 1) offset value) (.asearch query)
        (.looking pages (offset + forwardPage) value) store
  | put {value : StoredValue} :
      Advance store (.putting value) (.aput (writer.recordPlace payload) value)
        (.marking payload.supersedes) (store.insert (writer.recordPlace payload) value)
  | missing {key : String} {remaining : List String} {place : Place}
      (named : keyPlace writer.runtime key = some place) (absent : store.lookup place = none) :
      Advance store (.marking (key :: remaining)) (.aget place) (.marking remaining) store
  | stored {key : String} {remaining : List String} {place : Place} {existing : StoredValue}
      (named : keyPlace writer.runtime key = some place)
      (present : store.lookup place = some existing) :
      Advance store (.marking (key :: remaining)) (.aget place)
        (.remarking place existing remaining) store
  | mark {place : Place} {existing : StoredValue} {remaining : List String} :
      Advance store (.remarking place existing remaining)
        (.aput place (existing.markedBy payload.naturalKey)) (.marking remaining)
        (store.insert place (existing.markedBy payload.naturalKey))

end

section

variable {writer : DeterministicWriter} {engine : SearchEngine} {payload : Payload}
  {episodeMeta : Option EpisodeMeta} {store after : Store}
  {call : Call Place StoredValue SearchQuery} {program : StoreM Unit}

variable (episodeMeta) in
theorem applyDeclared_eq :
    writer.applyDeclared payload = restOfWrite writer payload episodeMeta
      (.marking payload.supersedes) := by
  unfold applyDeclared restOfWrite
  split
  · rename_i none_declared
    rw [none_declared]
    rfl
  · rfl

/-- The call of a page, and what is left after it. -/
theorem step?_looking (pages offset : Nat) (value : StoredValue) :
    (restOfWrite writer payload episodeMeta (.looking (pages + 1) offset value)).step?
        (storeWorld engine) store =
      some (.asearch ⟨listing (recordNamespace payload), forwardPage, offset⟩,
        lookAndPut writer payload value
          (afterPage payload pages offset (forwardPageOf engine payload store offset)), store) :=
  rfl

/-- Each call of a write is a step between its phases. -/
theorem advance_of_step {phase : WritePhase}
    (steps : (restOfWrite writer payload episodeMeta phase).step? (storeWorld engine) store =
      some (call, program, after)) :
    ∃ next, program = restOfWrite writer payload episodeMeta next ∧
      Advance writer engine payload episodeMeta store phase call next after := by
  cases phase with
  | starting =>
    cases steps
    cases stored : store.lookup (writer.recordPlace payload) with
    | none =>
      have puts : writer.Puts payload store := by simp [Puts, stored]
      refine ⟨_, ?_, .create puts⟩
      rw [nextVersion, storeWorld_get, stored]
      rfl
    | some existing =>
      by_cases same : existing.contentHash = some (contentHash writer.runtime payload)
      · refine ⟨_, ?_, .keep (by simp [Puts, stored, same])⟩
        rw [← applyDeclared_eq episodeMeta, storeWorld_get, stored]
        exact if_pos same
      · refine ⟨_, ?_, .create (by simp [Puts, stored, same])⟩
        rw [nextVersion, storeWorld_get, stored]
        exact if_neg same
  | looking pages offset value =>
    cases pages with
    | zero => cases steps
    | succ pages =>
      rw [step?_looking, afterPage] at steps
      cases first : (forwardPageOf engine payload store offset).find?
        (declaring payload.naturalKey) with
      | some item =>
        rw [first] at steps
        cases steps
        exact ⟨_, rfl, .found first⟩
      | none =>
        rw [first] at steps
        by_cases short : (forwardPageOf engine payload store offset).length < forwardPage
        · simp only [if_pos short] at steps
          cases steps
          exact ⟨_, rfl, .lastPage first short⟩
        · simp only [if_neg short] at steps
          cases steps
          exact ⟨_, rfl, .nextPage first⟩
  | putting value =>
    cases steps
    exact ⟨_, applyDeclared_eq episodeMeta, .put⟩
  | marking remaining =>
    cases remaining with
    | nil => cases steps
    | cons key remaining =>
      rw [restOfWrite, applySupersessions] at steps
      cases named : keyPlace writer.runtime key with
      | none =>
        rw [named] at steps
        cases steps
      | some place =>
        rw [named] at steps
        cases steps
        cases stored : store.lookup place with
        | none => exact ⟨_, by rw [storeWorld_get, stored]; rfl, .missing named stored⟩
        | some existing => exact ⟨_, by rw [storeWorld_get, stored]; rfl, .stored named stored⟩
  | remarking place existing remaining =>
    cases steps
    exact ⟨_, rfl, .mark⟩

end

end FleetMemory
