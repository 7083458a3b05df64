/-
This file proves that a write through the sandbox's narrow door is confined. Whatever dict it is
given and whichever store calls fail, it ends in an error and leaves the store alone, or touches
no record but the one it names, a build outcome outside the factory's shelves.
-/

import FleetMemory.DoorTools
import FleetMemory.FaultyWrites

namespace FleetMemory

open StoreProgram DeterministicWriter

section

variable {writer : DeterministicWriter} {engine : SearchEngine} {store : Store}
  {faults : List (Option PyError)} {payload : Payload} {episodeMeta : Option EpisodeMeta}

/-- How a write of a payload that supersedes nothing can end: it raises before it puts anything,
its lookup of a successor is given up, or it returns and no other record has changed. -/
structure Ends (writer : DeterministicWriter) (engine : SearchEngine) (store : Store)
    (payload : Payload) (run : Outcome PyError Unit × Store) : Prop where
  raises : ∀ fault, run.1 = .raised fault → run.2 = store
  gives_up : run.1 = .hung → run.2 = store ∧ forwardPage * writer.pages ≤
    (engine.ranking (listing (recordNamespace payload)) store).length
  others : ∀ place, place ≠ writer.recordPlace payload → run.2.lookup place = store.lookup place

theorem ends_raised (fault : PyError) : Ends writer engine store payload (.raised fault, store) :=
  ⟨fun _ _ => rfl, nofun, fun _ _ => rfl⟩

theorem ends_returned {after : Store}
    (others : ∀ place, place ≠ writer.recordPlace payload → after.lookup place = store.lookup place) :
    Ends writer engine store payload (.returned (), after) :=
  ⟨nofun, nofun, others⟩

/-- A payload that supersedes nothing marks nothing. -/
theorem applyDeclared_of_nothing (nothing : payload.supersedes = []) :
    writer.applyDeclared payload = pure () :=
  if_pos nothing

/-- Looking for a successor and putting the record. -/
theorem ends_writeRecord (nothing : payload.supersedes = []) (hash : String) (version : Int) :
    Ends writer engine store payload
      ((writer.writeRecord payload hash version episodeMeta >>= fun _ =>
        writer.applyDeclared payload).runFaulty (storeWorld engine) faults store) := by
  rw [applyDeclared_of_nothing nothing, writeRecord, checkAndApplyForwardSupersession,
    applyForwardSupersessions, Program.bind_bind, Program.bind_bind]
  rcases runFaulty_forwardPages_bind payload.naturalKey _ rfl writer.pages 0 faults with
    ⟨given_up, long⟩ | ⟨left, rest⟩
  · rw [given_up]
    exact ⟨fun _ _ => rfl, fun _ => ⟨rfl, long⟩, fun _ _ => rfl⟩
  · rw [rest]
    change Ends writer engine store payload
      ((Program.put _ _ >>= fun _ => pure ()).runFaulty _ left store)
    rw [Program.runFaulty_put_bind]
    cases fate : left.headD none with
    | some fault => exact ends_raised fault
    | none =>
      refine ends_returned fun place other => ?_
      exact (lookup_insert _ _ _ _).trans (if_neg other)

theorem ends_upsert (nothing : payload.supersedes = []) :
    Ends writer engine store payload
      ((writer.upsert payload episodeMeta).runFaulty (storeWorld engine) faults store) := by
  rw [upsert, Program.runFaulty_get_bind]
  cases fate : faults.headD none with
  | some fault => exact ends_raised fault
  | none =>
    dsimp only
    cases (storeWorld engine).get store (writer.recordPlace payload) with
    | none => exact ends_writeRecord nothing _ _
    | some existing =>
      dsimp only
      split
      · rw [applyDeclared_of_nothing nothing]
        exact ends_returned fun _ _ => rfl
      · exact ends_writeRecord nothing _ _

/-- A write of a payload that supersedes nothing, whichever of its store calls fail. -/
theorem ends_write (nothing : payload.supersedes = []) :
    Ends writer engine store payload
      ((writer.write payload episodeMeta).runFaulty (storeWorld engine) faults store) := by
  by_cases accepts : Accepts payload
  · rw [write_of_accepts accepts]
    exact ends_upsert nothing
  · obtain ⟨error, raises⟩ := write_of_not_accepts writer episodeMeta accepts
    rw [raises]
    exact ends_raised error

/-- The tool answers with the natural key when the write returns. -/
theorem runFaulty_memoryWritePayload {payloadDict : PyDict}
    {allowedProjects : Option (List String)}
    (checked : checkedPayload writer.runtime payloadDict true allowedProjects = .ok payload) :
    (memoryWritePayload writer payloadDict true allowedProjects).runFaulty (storeWorld engine)
        faults store =
      (toolAnswer writer.runtime
          (((writer.write payload none).runFaulty (storeWorld engine) faults store).1 >>= fun _ =>
            .returned payload.naturalKey),
        ((writer.write payload none).runFaulty (storeWorld engine) faults store).2) := by
  have named : (writer.write payload none >>= fun _ => (return payload.naturalKey)).runFaulty
      (storeWorld engine) faults store = _ :=
    Program.runFaulty_bind_done (fun _ => .returned payload.naturalKey) _ faults store
  rw [memoryWritePayload, checked, lift_ok_bind, runFaulty_toolSafe, named]

/-- The names of the factory's shelves are in small letters. -/
theorem toLower_mem_reservedProjects {name : String} (reserved : name ∈ reservedProjects) :
    name.toLower ∈ reservedProjects := by
  have small : ∀ shelf ∈ reservedProjects, shelf.toLower = shelf := by decide +kernel
  rw [small name reserved]
  exact reserved

/-- A write through the sandbox's narrow door is confined. It ends in an error and the store is as
it was, or it is given up before it puts anything or returns a natural key, and then no record has
changed but that of the key, a build outcome of a project that is no shelf of the factory and is
one of the allowed projects, where there are any. -/
theorem sandbox_write_confined (writer : DeterministicWriter) (engine : SearchEngine)
    (payloadDict : PyDict) (allowedProjects : Option (List String))
    (faults : List (Option PyError)) (store : Store) :
    let run := (memoryWritePayload writer payloadDict true allowedProjects).runFaulty
      (storeWorld engine) faults store
    (∃ result, run = (.returned result, store) ∧ result.isError = true) ∨
      ∃ project naturalKey, project.toLower ∉ reservedProjects ∧ project ∉ reservedProjects ∧
        (∀ projects, allowedProjects = some projects → project ∈ projects) ∧
        (run.1 = .returned { isError := false, value := some naturalKey } ∨
          run = (.hung, store) ∧ forwardPage * writer.pages ≤ (engine.ranking
            (listing ["fleet_memory", project, "build_outcome"]) store).length) ∧
        ∀ place, place ≠ ⟨["fleet_memory", project, "build_outcome"],
            recordIdentity writer.runtime naturalKey⟩ →
          run.2.lookup place = store.lookup place := by
  intro run
  cases checked : checkedPayload writer.runtime payloadDict true allowedProjects with
  | error error =>
    refine Or.inl ⟨mapExceptionToResult writer.runtime error, ?_,
      mapExceptionToResult_isError writer.runtime error⟩
    change (memoryWritePayload writer payloadDict true allowedProjects).runFaulty _ _ _ = _
    rw [memoryWritePayload, checked, lift_error_bind]
    rfl
  | ok payload =>
    obtain ⟨ofType, nothing, unreserved, allowed⟩ := checkedPayload_eq_ok checked
    have ends : Ends writer engine store payload
        ((writer.write payload none).runFaulty (storeWorld engine) faults store) :=
      ends_write nothing
    have split : run = _ := runFaulty_memoryWritePayload checked
    have place : writer.recordPlace payload = ⟨["fleet_memory", payload.project, "build_outcome"],
        recordIdentity writer.runtime payload.naturalKey⟩ := by
      rw [recordPlace, recordNamespace, ofType]
    rw [split]
    cases ended : ((writer.write payload none).runFaulty (storeWorld engine) faults store).1 with
    | raised fault =>
      left
      refine ⟨mapExceptionToResult writer.runtime fault, ?_,
        mapExceptionToResult_isError writer.runtime fault⟩
      rw [ends.raises fault ended]
      rfl
    | returned done =>
      refine Or.inr ⟨payload.project, payload.naturalKey, unreserved,
        fun reserved => unreserved (toLower_mem_reservedProjects reserved), allowed, Or.inl rfl, ?_⟩
      rw [← place]
      exact ends.others
    | hung =>
      obtain ⟨same, long⟩ := ends.gives_up ended
      rw [recordNamespace, ofType] at long
      refine Or.inr ⟨payload.project, payload.naturalKey, unreserved,
        fun reserved => unreserved (toLower_mem_reservedProjects reserved), allowed,
        Or.inr ⟨by rw [same]; rfl, long⟩, ?_⟩
      rw [← place]
      exact ends.others

end

end FleetMemory
