/-
This file compares the two ways a typed payload is written: the tool that writes it, and
the relay that ingests its envelope. Both call the writer, but the relay passes the
envelope's metadata along, which the writer stores with the record. The two leave the same
records exactly when the writer puts none.
-/

import FleetMemory.DoorTools
import FleetMemory.Envelopes

namespace FleetMemory

open StoreProgram DeterministicWriter RelayService

section

variable {writer : DeterministicWriter} {engine : SearchEngine} {payload : Payload} {store : Store}

/-- A payload the tool writes is an instance of a registered class. -/
theorem instanceOf_payloadToWrite {runtime : Runtime} {payloadDict : PyDict}
    (built : payloadToWrite runtime payloadDict = .ok payload) :
    ∃ cls ∈ payloadRegistry, payload.InstanceOf cls := by
  unfold payloadToWrite at built
  split at built
  · cases built
  · obtain ⟨modelClass, resolved, built⟩ := except_bind_eq_ok.mp built
    exact ⟨modelClass, getModelForType_mem resolved,
      instanceOf_init (except_mapError_eq_ok.mp built)⟩

/-- The tool, when it is not a sandbox's, leaves what the writer leaves. -/
theorem run_memoryWritePayload {payloadDict : PyDict}
    (built : payloadToWrite writer.runtime payloadDict = .ok payload) :
    ((memoryWritePayload writer payloadDict false none).run (storeWorld engine) store).2 =
      ((writer.write payload none).run (storeWorld engine) store).2 := by
  have checked : checkedPayload writer.runtime payloadDict false none = .ok payload := by
    rw [checkedPayload, built]
    rfl
  rw [memoryWritePayload, checked, lift_ok_bind, toolSafe, Program.run_tryCatch, Program.run_bind,
    Program.run_bind]
  cases ran : (writer.write payload none).run (storeWorld engine) store with
  | mk outcome after => cases outcome <;> rfl

@[simp] theorem markFound_episodeType (value : StoredValue) (found : Option String) :
    (markFound value found).episodeType = value.episodeType :=
  markFound_keeps (·.episodeType) (fun _ _ => rfl) value found

/-- A record a write puts carries the episode type it was given. -/
theorem episodeType_written {episodeMeta : Option EpisodeMeta} (puts : writer.Puts payload store) :
    ((writer.written engine payload episodeMeta store).lookup (writer.recordPlace payload)).map
        (·.episodeType) = some (episodeMeta.map (·.episodeType)) := by
  rw [written, lookup_markAll, lookup_upserted, if_pos ⟨puts, rfl⟩, Option.map_some,
    Option.map_some]
  have put : (writer.putValue engine payload episodeMeta store).episodeType =
      episodeMeta.map (·.episodeType) := by
    rw [putValue, markFound_episodeType]
    rfl
  rw [← put]
  split <;> rfl

theorem written_of_not_puts {episodeMeta : Option EpisodeMeta} (kept : ¬writer.Puts payload store) :
    writer.written engine payload episodeMeta store =
      markAll writer.runtime payload.naturalKey payload.supersedes store := by
  rw [written, upserted, if_neg kept]

end

/-- The tool and the relay leave the same record of a payload, and the same other records, exactly
when the payload's namespace is refused or its content is stored already. -/
theorem one_write_path_iff (service : RelayService) (engine : SearchEngine) (payloadDict : PyDict)
    (payload : Payload) (store : Store)
    (built : payloadToWrite service.runtime payloadDict = .ok payload)
    (takes : TakesIntegers service.runtime) (reads : ReadsBack service.runtime payload.modelDump)
    (room : store.keys.card < forwardPage * service.writer.pages) :
    let direct := ((memoryWritePayload service.writer payloadDict false none).run
      (storeWorld engine) store).2
    let relayed := ((service.ingest (buildEnvelope service.runtime payload)).run
      (storeWorld engine) store).2
    (direct.lookup (service.writer.recordPlace payload) =
        relayed.lookup (service.writer.recordPlace payload) ∧
      ∀ place ≠ service.writer.recordPlace payload, direct.lookup place = relayed.lookup place) ↔
        (∃ part ∈ recordNamespace payload, validPart part = false) ∨
          (store.lookup (service.writer.recordPlace payload)).bind (·.contentHash) =
            some (contentHash service.runtime payload) := by
  obtain ⟨cls, registered, instanceOf⟩ := instanceOf_payloadToWrite built
  have parsed := payloadOf_buildEnvelope registered instanceOf takes reads
  have known : FleetMemory.registered payload.payloadType = true := by
    rw [instanceOf.payloadType]
    exact List.any_eq_true.mpr ⟨cls, registered, beq_self_eq_true _⟩
  dsimp only
  rw [run_memoryWritePayload built]
  by_cases accepts : Accepts payload
  · have valid : ¬∃ part ∈ recordNamespace payload, validPart part = false := by
      rintro ⟨part, member, invalid⟩
      rw [accepts.2 part member] at invalid
      cases invalid
    rw [run_write_of_accepts accepts ((length_ranking_le engine _ store).trans_lt room),
      run_ingest_of_accepts rfl parsed accepts room, or_iff_right valid]
    by_cases puts : service.writer.Puts payload store
    · refine ⟨fun same => ?_, fun stored => absurd stored puts⟩
      have direct := @episodeType_written service.writer engine payload store none puts
      rw [same.1, episodeType_written puts] at direct
      cases direct
    · refine ⟨fun _ => not_not.mp puts, fun _ => ?_⟩
      rw [written_of_not_puts puts, written_of_not_puts puts]
      exact ⟨rfl, fun _ _ => rfl⟩
  · have invalid : ∃ part ∈ recordNamespace payload, validPart part = false := by
      by_contra valid
      refine accepts ⟨known, fun part member => ?_⟩
      by_contra refused
      exact valid ⟨part, member, by simpa using refused⟩
    obtain ⟨error, raises⟩ := write_of_not_accepts service.writer none accepts
    rw [raises, run_lift_error, run_ingest_of_not_accepts rfl parsed accepts]
    exact ⟨fun _ => Or.inl invalid, fun _ => ⟨rfl, fun _ _ => rfl⟩⟩

section Sample

/-- A dict of the build outcome with lessons. -/
def lessonsDict : PyDict :=
  [("payload_type", .str "build_outcome"), ("project", .str "a"), ("identifier", .str "T"),
    ("domain_tags", .list [.str "task"]), ("source_ref", .str "s"), ("version", .int 1),
    ("status", .str "ok"), ("duration_seconds", .int 1), ("lessons", .str "café")]

theorem payloadToWrite_lessonsDict :
    payloadToWrite lessonsRuntime lessonsDict = .ok lessonsOutcome := by
  rfl

/-- Over an empty store nothing is stored already, so the two leave different records. -/
theorem one_write_path_iff_lessonsOutcome :
    let direct := ((memoryWritePayload lessonsService.writer lessonsDict false none).run
      (storeWorld (prefixEngine fun _ _ _ => none)) ∅).2
    let relayed := ((lessonsService.ingest (buildEnvelope lessonsRuntime lessonsOutcome)).run
      (storeWorld (prefixEngine fun _ _ _ => none)) ∅).2
    (direct.lookup (lessonsService.writer.recordPlace lessonsOutcome) =
        relayed.lookup (lessonsService.writer.recordPlace lessonsOutcome) ∧
      ∀ place ≠ lessonsService.writer.recordPlace lessonsOutcome,
        direct.lookup place = relayed.lookup place) ↔
        (∃ part ∈ recordNamespace lessonsOutcome, validPart part = false) ∨
          ((∅ : Store).lookup (lessonsService.writer.recordPlace lessonsOutcome)).bind
            (·.contentHash) = some (contentHash lessonsRuntime lessonsOutcome) :=
  one_write_path_iff lessonsService (prefixEngine fun _ _ _ => none) lessonsDict lessonsOutcome ∅
    payloadToWrite_lessonsDict (fun _ => rfl) readsBack_lessonsOutcome (by decide)

/-- The two leave different records of the build outcome: the relay's has an episode type. -/
theorem lookup_ne_of_two_paths :
    let direct := ((memoryWritePayload lessonsService.writer lessonsDict false none).run
      (storeWorld (prefixEngine fun _ _ _ => none)) ∅).2
    let relayed := ((lessonsService.ingest (buildEnvelope lessonsRuntime lessonsOutcome)).run
      (storeWorld (prefixEngine fun _ _ _ => none)) ∅).2
    direct.lookup (lessonsService.writer.recordPlace lessonsOutcome) ≠
      relayed.lookup (lessonsService.writer.recordPlace lessonsOutcome) := by
  have accepts : Accepts lessonsOutcome := ⟨by decide, by decide⟩
  have puts : lessonsService.writer.Puts lessonsOutcome ∅ := fun stored => by cases stored
  have parsed := @payloadOf_buildEnvelope lessonsService lessonsOutcome BuildOutcomePayload
    (by simp [payloadRegistry]) instanceOf_lessonsOutcome (fun _ => rfl) readsBack_lessonsOutcome
  have room : (∅ : Store).keys.card < forwardPage * lessonsService.writer.pages := by decide
  have relays : (lessonsService.ingest (buildEnvelope lessonsRuntime lessonsOutcome)).run
      (storeWorld (prefixEngine fun _ _ _ => none)) ∅ = _ :=
    run_ingest_of_accepts rfl parsed accepts room
  dsimp only
  rw [run_memoryWritePayload payloadToWrite_lessonsDict, relays,
    run_write_of_accepts accepts ((length_ranking_le _ _ _).trans_lt room)]
  intro same
  have direct := @episodeType_written lessonsService.writer (prefixEngine fun _ _ _ => none) _ _
    none puts
  rw [same, episodeType_written puts] at direct
  cases direct

end Sample

end FleetMemory
