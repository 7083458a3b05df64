/-
This file proves what retrying a write comes to when its store calls may fail. However an
attempt ends, it leaves the store as it was, or with the payload's record put, and then
with some of the listed records marked. The attempt that puts the record is the only one
that looks for a successor, and a failed page of that lookup is swallowed: later attempts
find the content and mark only what the payload lists.
-/

import FleetMemory.SupersessionRace
import FleetMemory.WriteFrames

namespace FleetMemory

open StoreProgram Transitions DeterministicWriter

variable {writer : DeterministicWriter} {engine : SearchEngine} {store : Store}
  {faults : List (Option PyError)}

/-! ### The effect of an attempt -/

/-- Marking, however it ends, has marked the first of the predecessors. -/
theorem runFaulty_applySupersessions_state (runtime : Runtime) (successor : String)
    (predecessors : List String) (faults : List (Option PyError)) (store : Store) :
    ∃ part, part <+: predecessors ∧
      ((applySupersessions runtime successor predecessors).runFaulty (storeWorld engine) faults
        store).2 = markAll runtime successor part store := by
  induction predecessors generalizing faults store with
  | nil => exact ⟨[], List.prefix_refl _, rfl⟩
  | cons predecessor rest inductionHypothesis =>
    have unmarked : ∃ part, part <+: predecessor :: rest ∧
        store = markAll runtime successor part store :=
      ⟨[], List.nil_prefix, rfl⟩
    rw [applySupersessions]
    cases named : keyPlace runtime predecessor with
    | none => exact unmarked
    | some place =>
      dsimp only
      rw [Program.runFaulty_get_bind, storeWorld_get]
      cases faults.headD none with
      | some fault => exact unmarked
      | none =>
        cases stored : store.lookup place with
        | none =>
          have marks : mark runtime successor store predecessor = store := by
            simp only [mark, named, stored]
          obtain ⟨part, first, same⟩ := inductionHypothesis faults.tail store
          refine ⟨predecessor :: part, (List.prefix_cons_inj predecessor).mpr first, ?_⟩
          rw [markAll_cons, marks]
          exact same
        | some existing =>
          have marks : mark runtime successor store predecessor =
              store.insert place (existing.markedBy successor) := by
            simp only [mark, named, stored]
          dsimp only
          rw [Program.runFaulty_put_bind]
          cases faults.tail.headD none with
          | some fault => exact unmarked
          | none =>
            obtain ⟨part, first, same⟩ := inductionHypothesis faults.tail.tail
              (store.insert place (existing.markedBy successor))
            refine ⟨predecessor :: part, (List.prefix_cons_inj predecessor).mpr first, ?_⟩
            rw [markAll_cons, marks]
            exact same

theorem runFaulty_applyDeclared_state (payload : Payload) (faults : List (Option PyError))
    (store : Store) :
    ∃ part, part <+: payload.supersedes ∧
      ((writer.applyDeclared payload).runFaulty (storeWorld engine) faults store).2 =
        markAll writer.runtime payload.naturalKey part store := by
  unfold applyDeclared
  split
  · exact ⟨[], List.nil_prefix, rfl⟩
  · exact runFaulty_applySupersessions_state _ _ _ _ _

/-- The store a call leaves, whether it returns or not. -/
def WriteCall.after (writer : DeterministicWriter) (store : Store) (call : WriteCall) : Store :=
  ((writer.write call.payload call.episodeMeta).runFaulty (storeWorld call.engine) call.faults
    store).2

/-- The call puts its payload's record: its content was not stored before, and is after. -/
def Stores (writer : DeterministicWriter) (call : WriteCall) (store : Store) : Prop :=
  writer.Puts call.payload store ∧ ¬writer.Puts call.payload (call.after writer store)

variable {call : WriteCall}

/-- A call whose content is stored only marks. Any other leaves the store alone, or puts its record
and then marks. -/
theorem after_cases (writer : DeterministicWriter) (call : WriteCall) (store : Store) :
    ∃ part, part <+: call.payload.supersedes ∧
      (call.after writer store = markAll writer.runtime call.payload.naturalKey part store ∧
          (writer.Puts call.payload store → part = []) ∨
        writer.Puts call.payload store ∧
          call.after writer store = markAll writer.runtime call.payload.naturalKey part
            (store.insert (writer.recordPlace call.payload) (call.putValue writer store))) := by
  rcases runFaulty_write_cases writer call store with ⟨_, _, ran⟩ | ⟨_, left, ran⟩
  · exact ⟨[], List.nil_prefix, Or.inl ⟨congrArg Prod.snd ran, fun _ => rfl⟩⟩
  · obtain ⟨part, first, same⟩ := @runFaulty_applyDeclared_state writer call.engine call.payload
      left (call.upserted writer store)
    have ends := (congrArg Prod.snd ran).trans same
    by_cases puts : writer.Puts call.payload store
    · rw [WriteCall.upserted, if_pos puts] at ends
      exact ⟨part, first, Or.inr ⟨puts, ends⟩⟩
    · rw [WriteCall.upserted, if_neg puts] at ends
      exact ⟨part, first, Or.inl ⟨ends, fun stored => absurd stored puts⟩⟩

/-! ### What the attempts keep -/

/-- A record of the payload's content stands at its place, marked or not. -/
def Standing (writer : DeterministicWriter) (payload : Payload) (marked : Bool) (store : Store) :
    Prop :=
  ∃ value, store.lookup (writer.recordPlace payload) = some value ∧
    value.contentHash = some (contentHash writer.runtime payload) ∧ value.marked = marked

/-- The lookup of the call finds a successor to mark its record by: no page fails up to the one
with the first listed row that declares the key, and this row has a key. -/
def Finds (call : WriteCall) (store : Store) : Prop :=
  PagesRead call.payload.naturalKey
      (call.engine.ranking (listing (recordNamespace call.payload)) store) call.faults.tail ∧
    ∃ successor, successor ≠ "" ∧
      successorOf call.engine store call.payload.naturalKey (recordNamespace call.payload) =
        some successor

variable {payload : Payload}

theorem not_puts_iff : ¬writer.Puts payload store ↔ ∃ marked, Standing writer payload marked store := by
  rw [Puts, not_not, Option.bind_eq_some_iff]
  constructor
  · rintro ⟨value, stored, hashed⟩
    exact ⟨value.marked, value, stored, hashed, rfl⟩
  · rintro ⟨marked, value, stored, hashed, _⟩
    exact ⟨value, stored, hashed⟩

/-- The record a call puts is marked exactly when its lookup finds a successor. -/
theorem marked_putValue_iff : (call.putValue writer store).marked = true ↔ Finds call store := by
  have unmarked : (storedValue call.payload (contentHash writer.runtime call.payload)
      (writer.nextVersion call.payload store) call.episodeMeta).marked = false := rfl
  unfold WriteCall.putValue Finds WriteCall.found lookedUp
  split
  · rename_i read
    change (markFound _ (successorOf _ _ _ _)).marked = true ↔ _
    unfold markFound
    split
    · rename_i successor found
      split
      · rename_i empty
        simp [unmarked, found, empty]
      · rename_i named
        simp [read, found, named]
    · rename_i none_found
      simp [unmarked, none_found]
  · rename_i failed
    simp [markFound, unmarked, failed]

theorem lookup_recordPlace_markAll {part : List String} (first : part <+: payload.supersedes)
    (notItself : ¬Lists writer payload (writer.recordPlace payload)) (successor : String) :
    (markAll writer.runtime successor part store).lookup (writer.recordPlace payload) =
      store.lookup (writer.recordPlace payload) := by
  have unlisted : ¬∃ predecessor ∈ part,
      keyPlace writer.runtime predecessor = some (writer.recordPlace payload) := by
    rintro ⟨key, member, named⟩
    exact notItself ⟨key, first.subset member, named⟩
  rw [lookup_markAll]
  simp [unlisted]

section

variable (notItself : ¬Lists writer call.payload (writer.recordPlace call.payload))

include notItself

/-- A record of the content stays as it is. -/
theorem standing_after {marked : Bool} (standing : Standing writer call.payload marked store) :
    Standing writer call.payload marked (call.after writer store) := by
  obtain ⟨part, first, ⟨same, _⟩ | ⟨puts, _⟩⟩ := after_cases writer call store
  · rw [same]
    unfold Standing
    rwa [lookup_recordPlace_markAll first notItself]
  · exact absurd puts (not_puts_iff.mpr ⟨marked, standing⟩)

/-- The call that puts the record leaves it marked exactly when its lookup finds a successor. -/
theorem standing_of_stores (stores : Stores writer call store) {marked : Bool}
    (standing : Standing writer call.payload marked (call.after writer store)) :
    marked = true ↔ Finds call store := by
  obtain ⟨part, first, ⟨same, unmoved⟩ | ⟨_, same⟩⟩ := after_cases writer call store
  · rw [unmoved stores.1] at same
    refine absurd stores.1 ?_
    have stored := stores.2
    rwa [same] at stored
  · obtain ⟨value, stored, _, rfl⟩ := standing
    rw [same, lookup_recordPlace_markAll first notItself, lookup_insert_self] at stored
    rw [← Option.some.inj stored, marked_putValue_iff]

end

/-- What is declared beside the payload's record is not changed by its attempts. -/
theorem declaredBeside_after_iff :
    DeclaredBeside writer call.payload (call.after writer store) ↔
      DeclaredBeside writer call.payload store := by
  have declarations (place : Place) (beside : place ≠ writer.recordPlace call.payload) :
      ((call.after writer store).lookup place).map
          (fun value => value.declares call.payload.naturalKey) =
        (store.lookup place).map fun value => value.declares call.payload.naturalKey := by
    have marks (part : List String) (middle : Store) :
        ((markAll writer.runtime call.payload.naturalKey part middle).lookup place).map
            (fun value => value.declares call.payload.naturalKey) =
          (middle.lookup place).map fun value => value.declares call.payload.naturalKey := by
      rw [lookup_markAll, Option.map_map]
      congr 1
      funext value
      dsimp only [Function.comp]
      split <;> rfl
    obtain ⟨part, _, ⟨same, _⟩ | ⟨_, same⟩⟩ := after_cases writer call store
    · rw [same, marks]
    · rw [same, marks, lookup_insert_other beside]
  have transfers {first second : Store} (same : ∀ place, place ≠ writer.recordPlace call.payload →
      (first.lookup place).map (fun value => value.declares call.payload.naturalKey) =
        (second.lookup place).map fun value => value.declares call.payload.naturalKey)
      (declared : DeclaredBeside writer call.payload first) :
      DeclaredBeside writer call.payload second := by
    obtain ⟨place, value, beside, inNamespace, stored, declares⟩ := declared
    have here := same place beside
    rw [stored, Option.map_some, declares] at here
    obtain ⟨other, there, declaresToo⟩ := Option.map_eq_some_iff.mp here.symm
    exact ⟨place, other, beside, inNamespace, there, declaresToo⟩
  exact ⟨transfers declarations, transfers fun place beside => (declarations place beside).symm⟩

/-! ### Retries -/

/-- The store some calls leave one after another, whether they return or not. -/
def afterAttempts (writer : DeterministicWriter) (attempts : List WriteCall) (start : Store) :
    Store :=
  attempts.foldl (fun store call => call.after writer store) start

section

variable {attempts : List WriteCall} {start : Store}

theorem standing_afterAttempts (notItself : ¬Lists writer payload (writer.recordPlace payload))
    (ofPayload : ∀ call ∈ attempts, call.payload = payload) {marked : Bool}
    (standing : Standing writer payload marked start) :
    Standing writer payload marked (afterAttempts writer attempts start) := by
  induction attempts generalizing start with
  | nil => exact standing
  | cons call rest inductionHypothesis =>
    obtain ⟨rfl, restOf⟩ := List.forall_mem_cons.mp ofPayload
    exact inductionHypothesis restOf (standing_after notItself standing)

theorem declaredBeside_afterAttempts_iff (ofPayload : ∀ call ∈ attempts, call.payload = payload) :
    DeclaredBeside writer payload (afterAttempts writer attempts start) ↔
      DeclaredBeside writer payload start := by
  induction attempts generalizing start with
  | nil => exact Iff.rfl
  | cons call rest inductionHypothesis =>
    obtain ⟨rfl, restOf⟩ := List.forall_mem_cons.mp ofPayload
    exact (inductionHypothesis restOf).trans declaredBeside_after_iff

theorem Standing.unique {first second : Bool} (one : Standing writer payload first store)
    (other : Standing writer payload second store) : first = second := by
  obtain ⟨value, stored, _, rfl⟩ := one
  obtain ⟨same, storedToo, _, rfl⟩ := other
  rw [Option.some.inj (stored.symm.trans storedToo)]

theorem after_of_callStep {after : Store} (step : CallStep writer store call after) :
    call.after writer store = after :=
  congrArg Prod.snd step

/-- A call that returns leaves its content at its place. -/
theorem not_puts_of_callStep {after : Store} (step : CallStep writer store call after) :
    ¬writer.Puts call.payload after := by
  obtain ⟨_, rfl⟩ := leaves_of_callStep step
  rw [Puts, not_not, lookup_leaves]
  by_cases puts : writer.Puts call.payload store
  · rw [if_pos ⟨puts, rfl⟩, Option.map_some, Option.bind_some]
    have put : (call.putValue writer store).contentHash =
        some (contentHash writer.runtime call.payload) := by
      rw [WriteCall.putValue, markFound_contentHash]
      rfl
    rw [← put]
    split <;> rfl
  · rw [if_neg fun both => puts both.1]
    obtain ⟨existing, stored, same⟩ := Option.bind_eq_some_iff.mp (not_not.mp puts)
    rw [stored, Option.map_some, Option.bind_some, ← same]
    split <;> rfl

/-- Once an attempt returns, every stored record the payload lists is marked; and its own record is
marked if another record of its namespace declares its key, exactly when one was before the
attempts and, if the content was stored then, it was stored marked, and, if an attempt stored it,
that attempt's lookup found a successor. -/
theorem retries_mark_iff (writer : DeterministicWriter) (payload : Payload)
    (apart : ∀ key ∈ payload.supersedes,
      writer.runtime.uuid5 key ≠ writer.runtime.uuid5 payload.naturalKey)
    (start : Store) (attempts : List WriteCall) (last : WriteCall)
    (ofPayload : ∀ call ∈ attempts ++ [last], call.payload = payload) (after : Store)
    (returned : CallStep writer (afterAttempts writer attempts start) last after) :
    (∀ key ∈ payload.supersedes, ∀ place value, keyPlace writer.runtime key = some place →
        after.lookup place = some value → value.marked = true) ∧
    ((DeclaredBeside writer payload after → Standing writer payload true after) ↔
      (DeclaredBeside writer payload start →
        (∀ marked, Standing writer payload marked start → marked = true) ∧
        ∀ earlier attempt later, attempts ++ [last] = earlier ++ attempt :: later →
          Stores writer attempt (afterAttempts writer earlier start) →
            Finds attempt (afterAttempts writer earlier start))) := by
  have notItself : ¬Lists writer payload (writer.recordPlace payload) := by
    rintro ⟨key, listed, named⟩
    exact apart key listed (key_of_keyPlace named).symm
  have lastOf : last.payload = payload := ofPayload last (by simp)
  have ends : afterAttempts writer (attempts ++ [last]) start = after := by
    rw [afterAttempts, List.foldl_append]
    exact after_of_callStep returned
  have stored : ¬writer.Puts payload after := lastOf ▸ not_puts_of_callStep returned
  have onwards {earlier later : List WriteCall} {attempt : WriteCall}
      (parts : attempts ++ [last] = earlier ++ attempt :: later) {marked : Bool}
      (standing : Standing writer payload marked
        (attempt.after writer (afterAttempts writer earlier start))) :
      Standing writer payload marked after := by
    have laterOf : ∀ call ∈ later, call.payload = payload := by
      intro call member
      exact ofPayload call (by rw [parts]; simp [member])
    rw [← ends, parts, afterAttempts, List.foldl_append]
    exact standing_afterAttempts notItself laterOf standing
  constructor
  · intro key listed place value named here
    obtain ⟨_, rfl⟩ := leaves_of_callStep returned
    rw [lookup_leaves] at here
    obtain ⟨source, _, rfl⟩ := Option.map_eq_some_iff.mp here
    rw [if_pos ⟨key, lastOf ▸ listed, named⟩]
    rfl
  rw [← ends, declaredBeside_afterAttempts_iff ofPayload, ends]
  refine imp_congr_right fun _ => ⟨fun standing => ⟨fun marked atStart => ?_, ?_⟩, ?_⟩
  · have throughout := standing_afterAttempts notItself ofPayload atStart
    rw [ends] at throughout
    exact throughout.unique standing
  · intro earlier attempt later parts stores
    obtain rfl : attempt.payload = payload := ofPayload attempt (by rw [parts]; simp)
    obtain ⟨marked, put⟩ := not_puts_iff.mp stores.2
    exact (standing_of_stores notItself stores put).mp ((onwards parts put).unique standing)
  · rintro ⟨atStart, found⟩
    by_cases puts : writer.Puts payload start
    · -- the content is stored by an attempt: the one before which it is not stored, and after
      -- which it is
      obtain ⟨earlier, attempt, later, parts, notYet, done⟩ :=
        @exists_turn _ _ (fun store call => call.after writer store)
          (fun store => ¬writer.Puts payload store) start (attempts ++ [last]) (not_not.mpr puts)
          (by rwa [← afterAttempts, ends])
      obtain rfl : attempt.payload = payload := ofPayload attempt (by rw [parts]; simp)
      have stores : Stores writer attempt (afterAttempts writer earlier start) :=
        ⟨not_not.mp notYet, done⟩
      obtain ⟨marked, put⟩ := not_puts_iff.mp stores.2
      have isMarked := (standing_of_stores notItself stores put).mpr
        (found earlier attempt later parts stores)
      exact isMarked ▸ onwards parts put
    · obtain ⟨marked, standing⟩ := not_puts_iff.mp puts
      have throughout := standing_afterAttempts notItself ofPayload standing
      rw [ends] at throughout
      exact atStart marked standing ▸ throughout

end

/-! ### Sample attempts -/

section Sample

/-- A store with the record of a successor alone. -/
def successorStore : Store :=
  (∅ : Store).insert (sampleWriter.recordPlace successorInA)
    (storedValue successorInA (contentHash sampleRuntime successorInA) 1 none)

/-- An attempt to write its predecessor. -/
def predecessorAttempt (faults : List (Option PyError)) : WriteCall where
  payload := predecessorOfA
  episodeMeta := none
  engine := sampleEngine
  faults := faults

theorem lookup_predecessor :
    successorStore.lookup (sampleWriter.recordPlace predecessorOfA) = none :=
  lookup_insert_other (by decide)

theorem declaredBeside_successorStore :
    DeclaredBeside sampleWriter predecessorOfA successorStore :=
  ⟨sampleWriter.recordPlace successorInA, _, by decide, rfl, lookup_insert_self, by decide⟩

/-- An attempt whose first call fails leaves the store alone. -/
theorem after_of_first_fails (fault : PyError) :
    (predecessorAttempt [some fault]).after sampleWriter successorStore = successorStore := by
  have accepts : Accepts predecessorOfA := ⟨by decide, by decide⟩
  rw [WriteCall.after, predecessorAttempt, write_of_accepts accepts]
  rfl

/-- An attempt whose pages are read finds the successor. -/
theorem finds_predecessorAttempt {faults : List (Option PyError)} (read : faults.tail = []) :
    Finds (predecessorAttempt faults) successorStore := by
  refine ⟨fun page _ => by simp [predecessorAttempt, read], "adr:a:S", by decide, ?_⟩
  obtain ⟨place, record, stored, _, first⟩ := @exists_successorOf sampleEngine successorStore
    "adr:a:P" ["fleet_memory", "a", "adr"] _ _ lookup_insert_self
    (sampleEngine.selects_own _ _ (by decide)) (by decide)
  rw [successorStore, lookup_insert] at stored
  split at stored
  · rw [← Option.some.inj stored] at first
    exact first
  · cases stored

/-- An attempt whose first call fails, then one whose calls succeed. -/
theorem retries_mark_iff_first_fails :
    ∃ after, CallStep sampleWriter
        (afterAttempts sampleWriter [predecessorAttempt [some (.connectionError "down")]]
          successorStore) (predecessorAttempt []) after ∧
      Standing sampleWriter predecessorOfA true after := by
  have step : CallStep sampleWriter successorStore (predecessorAttempt [])
      ((predecessorAttempt []).leaves sampleWriter successorStore) :=
    callStep_sampleCall ⟨by decide, by decide⟩ (by decide)
  have ran : CallStep sampleWriter
      (afterAttempts sampleWriter [predecessorAttempt [some (.connectionError "down")]]
        successorStore) (predecessorAttempt [])
      ((predecessorAttempt []).leaves sampleWriter successorStore) := by
    rw [afterAttempts, List.foldl_cons, after_of_first_fails]
    exact step
  refine ⟨_, ran, ((retries_mark_iff sampleWriter predecessorOfA (by decide) successorStore
    [predecessorAttempt [some (.connectionError "down")]] (predecessorAttempt [])
    (List.forall_mem_cons.mpr ⟨rfl, List.forall_mem_cons.mpr ⟨rfl, by simp⟩⟩) _
    ran).2.mpr fun _ => ⟨?_, ?_⟩) ?_⟩
  · rintro marked ⟨value, stored, _⟩
    rw [lookup_predecessor] at stored
    cases stored
  · intro earlier attempt later parts _
    cases earlier with
    | nil =>
      rw [← (List.cons.inj parts).1]
      exact finds_predecessorAttempt rfl
    | cons first rest =>
      obtain ⟨rfl, following⟩ := List.cons.inj parts
      cases rest with
      | nil =>
        have here : afterAttempts sampleWriter
            [predecessorAttempt [some (.connectionError "down")]] successorStore =
              successorStore := by
          rw [afterAttempts, List.foldl_cons, after_of_first_fails, List.foldl_nil]
        rw [here, ← (List.cons.inj following).1]
        exact finds_predecessorAttempt rfl
      | cons second rest => exact absurd (List.cons.inj following).2 (by simp)
  · have declared := (@declaredBeside_after_iff sampleWriter successorStore
      (predecessorAttempt [])).mpr declaredBeside_successorStore
    rw [after_of_callStep step] at declared
    exact declared

/-- A page of the lookup fails, and the record is put without a mark. -/
theorem not_retries_mark :
    ∃ after, CallStep sampleWriter successorStore
        (predecessorAttempt [none, some (.connectionError "down")]) after ∧
      DeclaredBeside sampleWriter predecessorOfA after ∧
      ∃ value, after.lookup (sampleWriter.recordPlace predecessorOfA) = some value ∧
        value.marked = false := by
  have ran : CallStep sampleWriter successorStore
      (predecessorAttempt [none, some (.connectionError "down")])
      (successorStore.insert (sampleWriter.recordPlace predecessorOfA)
        (storedValue predecessorOfA (contentHash sampleRuntime predecessorOfA) 1 none)) := by
    rw [CallStep, write_of_accepts ⟨by decide, by decide⟩, upsert, Program.runFaulty_get_bind]
    dsimp only [predecessorAttempt, List.headD_cons]
    rw [storeWorld_get, lookup_predecessor]
    rfl
  refine ⟨_, ran, ?_, _, lookup_insert_self, rfl⟩
  exact ⟨sampleWriter.recordPlace successorInA, _, by decide, rfl,
    (lookup_insert_other (by decide)).trans lookup_insert_self, by decide⟩

end Sample

end FleetMemory
