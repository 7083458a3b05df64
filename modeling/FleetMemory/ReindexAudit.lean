/-
This file models the audit of a reindex run and the dead-letter client it asks, and proves
what its report says of each key: the key has a record, or a dead letter under its episode
id, or is unaccounted for. It also proves that a run reports every key once, and that a
delivery that fails leaves the records of other keys with their content.
-/

import FleetMemory.RelayHandler
import FleetMemory.StreamUpdates
import FleetMemory.SustainedWrites

namespace FleetMemory

open StoreProgram DeterministicWriter

/-! ### The dead-letter queue -/

/-- A message on a dead-letter subject: the subject, and what `json.loads` makes of its data. -/
structure DlqMessage where
  subject : String
  loaded : Except JsonFailure PyValue

/-- The record `_publish_dlq` publishes for an episode. -/
def dlqRecord (settings : HandlerSettings) (episode : MemoryEpisodeV1) (reason : String)
    (detail : Option String) (exhaustion : Option Exhaustion) : DlqRecord where
  subject := settings.dlqSubject ++ "." ++ episode.projectId
  episodeId := episode.episodeId
  projectId := episode.projectId
  reason
  detail
  contentFormat := episode.contentFormat
  payloadType := episode.payloadType
  exhaustion

/-- The dict of a dead-letter record. -/
def DlqRecord.body (entry : DlqRecord) : PyDict :=
  [("episode_id", .str entry.episodeId), ("project_id", .str entry.projectId),
    ("reason", .str entry.reason), ("detail", optional entry.detail),
    ("content_format", .str entry.contentFormat), ("payload_type", optional entry.payloadType)] ++
  match entry.exhaustion with
  | some exhaustion => [("failure_mode", .str exhaustion.failureMode),
      ("delivery_count", .int exhaustion.deliveryCount), ("max_deliver", .int exhaustion.maxDeliver)]
  | none => []
where
  optional : Option String → PyValue
    | some text => .str text
    | none => .none

/-- The message a dead-letter record is published in. -/
def DlqRecord.message (entry : DlqRecord) : DlqMessage where
  subject := entry.subject
  loaded := .ok (.dict entry.body)

section

variable (runtime : Runtime)

/-- `str(value)`. -/
def pyStr : PyValue → String
  | .str text => text
  | value => runtime.format value

/-- `parse_episode_id`. -/
def parseEpisodeId (message : DlqMessage) : Option String :=
  match message.loaded with
  | .ok (.dict body) =>
    match PyDict.get body "episode_id" with
    | some episodeId => if episodeId.truthy then some (pyStr runtime episodeId) else none
    | none => none
  | .ok _ => none
  | .error _ => none

/-- `JetStreamDLQClient`: the ids on the dead-letter subject of a project. -/
def dlqEpisodeIds (dlqSubject : String) (dlq : List DlqMessage) (project : String) :
    List String :=
  (dlq.filter fun message => message.subject == dlqSubject ++ "." ++ project).filterMap
    (parseEpisodeId runtime)

/-- The projects of a report's keys. -/
def auditProjects (publishedNaturalKeys : List String) : List String :=
  publishedNaturalKeys.filterMap fun naturalKey =>
    match Text.split ':' naturalKey with
    | [_, project, _] => some project
    | _ => none

/-- `_MultiProjectDLQ.check_episode_on_dlq`. -/
def checkEpisodeOnDlq (dlqSubject : String) (dlq : List DlqMessage)
    (publishedNaturalKeys : List String) (episodeId : String) : Bool :=
  (auditProjects publishedNaturalKeys).any fun project =>
    (dlqEpisodeIds runtime dlqSubject dlq project).contains episodeId

end

/-! ### The audit -/

structure AuditResult where
  totalPublished : Nat
  storedCount : Nat
  dlqCount : Nat
  unaccountedCount : Nat
  unaccountedEpisodes : List String

/-- `is_100_percent_accounted`. -/
def AuditResult.is100PercentAccounted (result : AuditResult) : Bool :=
  result.unaccountedCount == 0

/-- `_namespace_for_key`. -/
def namespaceForKey (naturalKey : String) : Option (List String) :=
  match Text.split ':' naturalKey with
  | [payloadType, project, _] => some ["fleet_memory", project, payloadType]
  | _ => none

/-- What the audit has counted. -/
structure Audited where
  storedCount : Nat
  dlqCount : Nat
  unaccountedEpisodes : List String

section

variable (runtime : Runtime) (onDlq : String → Bool)

/-- One pass of the audit's loop. -/
def auditKey (done : Audited) (naturalKey : String) : StoreM Audited :=
  match namespaceForKey naturalKey with
  | none => return { done with unaccountedEpisodes := done.unaccountedEpisodes ++ [naturalKey] }
  | some namespaceParts => do
    match ← Program.get ⟨namespaceParts, recordIdentity runtime naturalKey⟩ with
    | some _ => return { done with storedCount := done.storedCount + 1 }
    | none =>
      if onDlq (deriveEpisodeId runtime naturalKey) then
        return { done with dlqCount := done.dlqCount + 1 }
      else return { done with unaccountedEpisodes := done.unaccountedEpisodes ++ [naturalKey] }

/-- The audit's loop. -/
def auditKeys (done : Audited) : List String → StoreM Audited
  | [] => return done
  | naturalKey :: rest => do
    let next ← auditKey runtime onDlq done naturalKey
    auditKeys next rest

/-- `audit_published_episodes`. -/
def auditPublishedEpisodes (publishedNaturalKeys : List String) : StoreM AuditResult := do
  let done ← auditKeys runtime onDlq ⟨0, 0, []⟩ publishedNaturalKeys
  return {
    totalPublished := publishedNaturalKeys.length
    storedCount := done.storedCount
    dlqCount := done.dlqCount
    unaccountedCount := done.unaccountedEpisodes.length
    unaccountedEpisodes := done.unaccountedEpisodes }

/-! ### What the audit says of a key -/

/-- A record stands under the key. -/
def Stored (store : Store) (naturalKey : String) : Prop :=
  ((keyPlace runtime naturalKey).bind store.lookup).isSome = true

instance (store : Store) (naturalKey : String) : Decidable (Stored runtime store naturalKey) :=
  inferInstanceAs (Decidable (_ = true))

/-- The key has no record, and no dead letter under its episode id. -/
def Unaccounted (store : Store) (naturalKey : String) : Prop :=
  ¬Stored runtime store naturalKey ∧ onDlq (deriveEpisodeId runtime naturalKey) = false

instance (store : Store) (naturalKey : String) :
    Decidable (Unaccounted runtime onDlq store naturalKey) :=
  inferInstanceAs (Decidable (_ ∧ _))

end

section

variable {runtime : Runtime} {onDlq : String → Bool} {engine : SearchEngine} {store : Store}

theorem keyPlace_eq_namespaceForKey (naturalKey : String) :
    keyPlace runtime naturalKey = (namespaceForKey naturalKey).map fun namespaceParts =>
      ⟨namespaceParts, recordIdentity runtime naturalKey⟩ := by
  unfold keyPlace namespaceForKey
  generalize Text.split ':' naturalKey = parts
  rcases parts with _ | ⟨payloadType, _ | ⟨project, _ | ⟨identifier, _ | ⟨more, others⟩⟩⟩⟩ <;> rfl

/-- The audit reports the keys that are unaccounted for; the store stays as it is. -/
theorem run_auditKeys (keys : List String) (named : ∀ key ∈ keys, (namespaceForKey key).isSome)
    (done : Audited) :
    (auditKeys runtime onDlq done keys).run (storeWorld engine) store = (.returned {
      storedCount := done.storedCount + keys.countP fun key => Stored runtime store key
      dlqCount := done.dlqCount + keys.countP fun key =>
        ¬Stored runtime store key ∧ onDlq (deriveEpisodeId runtime key) = true
      unaccountedEpisodes := done.unaccountedEpisodes ++
        keys.filter fun key => Unaccounted runtime onDlq store key }, store) := by
  induction keys generalizing done with
  | nil => simp [auditKeys]
  | cons key rest inductionHypothesis =>
    obtain ⟨namespaceParts, found⟩ := Option.isSome_iff_exists.mp (named key List.mem_cons_self)
    have place : keyPlace runtime key = some ⟨namespaceParts, recordIdentity runtime key⟩ := by
      rw [keyPlace_eq_namespaceForKey, found]
      rfl
    have following := inductionHypothesis fun other member =>
      named other (List.mem_cons_of_mem key member)
    rw [auditKeys, auditKey, found]
    dsimp only
    rw [Program.run_bind, Program.run_bind, Program.run_get, storeWorld_get]
    dsimp only
    cases stored : store.lookup ⟨namespaceParts, recordIdentity runtime key⟩ with
    | some existing =>
      have here : Stored runtime store key := by simp [Stored, place, stored]
      rw [Program.run_pure]
      dsimp only
      rw [following]
      simp [here, Unaccounted, Nat.add_assoc, Nat.add_comm 1]
    | none =>
      have missing : ¬Stored runtime store key := by simp [Stored, place, stored]
      cases dead : onDlq (deriveEpisodeId runtime key) with
      | true =>
        rw [if_pos rfl, Program.run_pure]
        dsimp only
        rw [following]
        simp [missing, dead, Unaccounted, Nat.add_assoc, Nat.add_comm 1]
      | false =>
        rw [if_neg (by simp), Program.run_pure]
        dsimp only
        rw [following]
        simp [missing, dead, Unaccounted]

end

/-! ### Deliveries that fail -/

section

variable {service : RelayService} {writer : DeterministicWriter} {engine : SearchEngine}
  {payload : Payload} {store : Store}

/-- The content hash of the record at a place, if there is a record. -/
def contentAt (store : Store) (place : Place) : Option (Option String) :=
  (store.lookup place).map (·.contentHash)

/-- The records elsewhere than at a place have the content they have in another store. -/
def SameElsewhere (here : Place) (before store : Store) : Prop :=
  ∀ place, place ≠ here → contentAt store place = contentAt before place

theorem sameElsewhere_insert {here : Place} {before : Store} {value : StoredValue}
    (same : SameElsewhere here before store) :
    SameElsewhere here before (store.insert here value) := by
  intro place elsewhere
  rw [contentAt, lookup_insert_other elsewhere]
  exact same place elsewhere

/-- Marking a record keeps its content. -/
theorem sameElsewhere_mark {here place : Place} {before : Store} {value : StoredValue}
    {successor : String} (same : SameElsewhere here before store)
    (stored : store.lookup place = some value) :
    SameElsewhere here before (store.insert place (value.markedBy successor)) := by
  intro other elsewhere
  rw [← same other elsewhere]
  by_cases marked : other = place
  · subst marked
    simp [contentAt, stored]
  · rw [contentAt, lookup_insert_other marked]
    rfl

theorem keptByWrite_sameElsewhere {before : Store} :
    KeptByWrite writer payload (SameElsewhere (writer.recordPlace payload) before) where
  put _ _ _ _ same := sameElsewhere_insert same
  mark _ _ _ same stored := sameElsewhere_mark same stored

/-- Whichever calls fail, the ingest of a payload's envelope leaves the other records with their
content. -/
theorem sameElsewhere_ingest {episode : MemoryEpisodeV1}
    (json : episode.contentFormat = "json") (built : service.payloadOf episode = .ok payload)
    (faults : List (Option PyError)) :
    SameElsewhere (service.writer.recordPlace payload) store
      ((service.ingest episode).runFaulty (storeWorld engine) faults store).2 := by
  have start : SameElsewhere (service.writer.recordPlace payload) store store := fun _ _ => rfl
  rw [RelayService.runFaulty_ingest, RelayService.route_of_json json, RelayService.ingestJson,
    built, lift_ok_bind]
  exact Program.runFaulty_of_sustains (sustains_write keptByWrite_sameElsewhere _ start) start faults

end

end FleetMemory
