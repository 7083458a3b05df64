/-
This file models the publisher with the stream it publishes to and the relay behind it. The
stream drops a message whose id it took less than a window ago, and the id is made of the
natural key alone, so a payload with new content is dropped like a repeat. The file proves
that every key ends with the content of the last payload published for it exactly when
the last message the stream took for the key had that content.
-/

import FleetMemory.KeyedUpdates
import FleetMemory.ReindexRuns
import FleetMemory.Transitions

namespace FleetMemory

open StoreProgram DeterministicWriter

/-! ### Publishing to the stream -/

/-- A message to the stream: its subject, its body and its `Nats-Msg-Id`. -/
structure StreamMessage where
  subject : String
  envelope : MemoryEpisodeV1
  messageId : String

/-- `episode_subject`. -/
def episodeSubject (project payloadType : String) : String :=
  "memory.episode." ++ project ++ "." ++ payloadType

/-- `ReindexPublisher.publish` of a connected publisher: the message it sends before it returns
`None`, or the reason it returns. -/
def publishedMessage (runtime : Runtime) (payload : Payload) : Except String StreamMessage :=
  let envelope := buildEnvelope runtime payload
  if bodyBytes payload ≥ maxEpisodeBodyBytes then
    .error ("payload body " ++ toString (bodyBytes payload) ++
      " bytes exceeds MAX_EPISODE_BODY_BYTES (" ++ toString maxEpisodeBodyBytes ++ ")")
  else .ok {
    subject := episodeSubject payload.project payload.payloadType
    envelope
    messageId := envelope.episodeId }

/-- A publication: a payload, and the time its message reaches the stream. -/
structure Publication where
  payload : Payload
  time : Nat

/-- The ids the stream took, with their times, and the store the relay writes to. -/
structure Pipeline where
  taken : List (String × Nat)
  store : Store

/-- A `publish` that returns `None`: the stream drops the message as a duplicate, or takes it and
the relay ingests it. -/
inductive Publishes (service : RelayService) (engine : SearchEngine) (window : Nat) :
    Pipeline → Publication → Pipeline → Prop
  | dropped {pipeline : Pipeline} {publication : Publication} {message : StreamMessage}
      (sent : publishedMessage service.runtime publication.payload = .ok message)
      (duplicate : KeyedUpdates.Duplicate window pipeline.taken
        (message.messageId, publication.time)) :
      Publishes service engine window pipeline publication pipeline
  | ingested {pipeline : Pipeline} {publication : Publication} {message : StreamMessage}
      {store : Store}
      (sent : publishedMessage service.runtime publication.payload = .ok message)
      (fresh : ¬KeyedUpdates.Duplicate window pipeline.taken
        (message.messageId, publication.time))
      (returned : (service.ingest message.envelope).run (storeWorld engine) pipeline.store =
        (.returned (), store)) :
      Publishes service engine window pipeline publication
        ⟨pipeline.taken ++ [(message.messageId, publication.time)], store⟩

/-- The publisher of a reindex run sends the message straight to the relay. -/
theorem relayPublisher_eq (service : RelayService) (payload : Payload) :
    relayPublisher service payload =
      match publishedMessage service.runtime payload with
      | .error skipReason => return some skipReason
      | .ok message => do
        service.ingest message.envelope
        return none := by
  unfold relayPublisher publishedMessage
  split <;> rfl

/-! ### What stands at a key -/

section

variable (runtime : Runtime)

/-- The content hash of the record of a natural key. -/
def hashAt (store : Store) (naturalKey : String) : Option String :=
  ((keyPlace runtime naturalKey).bind store.lookup).bind (·.contentHash)

/-- What the stream tells messages apart by: the id, and the time. -/
def stamp (publication : Publication) : String × Nat :=
  (deriveEpisodeId runtime publication.payload.naturalKey, publication.time)

/-- The publications the stream takes, after what it took before. -/
def taken (window : Nat) (before : List (String × Nat)) (publications : List Publication) :
    List Publication :=
  KeyedUpdates.accepted window (stamp runtime) before publications

/-- The natural key of what is published. -/
def Publication.naturalKey (publication : Publication) : String :=
  publication.payload.naturalKey

/-- The content hash of what is published. -/
def Publication.hash (publication : Publication) : String :=
  contentHash runtime publication.payload

/-- The content the stream lets through to a key: that of the last publication it took, or else
what stood there at the start. -/
def contentLetThrough (window : Nat) (start : Pipeline) (publications : List Publication) :
    String → Option String :=
  KeyedUpdates.current Publication.naturalKey (Publication.hash runtime)
    (hashAt runtime start.store) (taken runtime window start.taken publications)

end

section

variable {service : RelayService} {engine : SearchEngine} {window : Nat}

theorem hashAt_naturalKey (payload : Payload) (store : Store) :
    hashAt service.runtime store payload.naturalKey =
      (store.lookup (service.writer.recordPlace payload)).bind (·.contentHash) := by
  rw [hashAt, show keyPlace service.runtime payload.naturalKey = _ from
    @keyPlace_naturalKey service.writer payload]
  rfl

@[simp] theorem contentHash_markedBy (value : StoredValue) (successor : String) :
    (value.markedBy successor).contentHash = value.contentHash := rfl

/-- A write changes the content at its own place only. -/
theorem contentHash_written {writer : DeterministicWriter} {payload : Payload}
    {episodeMeta : Option EpisodeMeta} {store : Store} (place : Place) :
    ((writer.written engine payload episodeMeta store).lookup place).bind (·.contentHash) =
      if place = writer.recordPlace payload then some (contentHash writer.runtime payload)
      else (store.lookup place).bind (·.contentHash) := by
  by_cases here : place = writer.recordPlace payload
  · obtain ⟨value, stored, hash⟩ := @lookup_written_self writer engine payload episodeMeta store
    rw [if_pos here, here, stored, Option.bind_some, hash]
  · rw [if_neg here, written, lookup_markAll, lookup_upserted, if_neg fun both => here both.2,
      Option.bind_map]
    congr 1
    funext value
    dsimp only [Function.comp]
    split <;> rfl

/-- An ingest that returns leaves the written store. -/
theorem run_ingest_returned {episode : MemoryEpisodeV1} {payload : Payload} {store after : Store}
    (json : episode.contentFormat = "json") (built : service.payloadOf episode = .ok payload)
    (returned : (service.ingest episode).run (storeWorld engine) store = (.returned (), after)) :
    after = service.writer.written engine payload (some (episodeMetaOf episode)) store := by
  rw [RelayService.run_ingest, RelayService.route_of_json json, RelayService.ingestJson, built,
    lift_ok_bind] at returned
  obtain ⟨outcome, same⟩ := Prod.mk.inj returned
  refine (@run_write_returned service.writer engine payload (some (episodeMetaOf episode)) store
    after ?_).2
  rw [← same]
  cases ended : ((service.writer.write payload (some (episodeMetaOf episode))).run
      (storeWorld engine) store).1 with
  | returned done => rw [← ended]
  | raised error =>
    rw [ended] at outcome
    cases outcome
  | hung =>
    rw [ended] at outcome
    cases outcome

/-! ### One publication -/

/-- What a publication that returns `None` does: nothing when its id was taken within the window,
and else its content is written. -/
theorem Publishes.cases_written {pipeline next : Pipeline} {publication : Publication}
    (built : service.payloadOf (buildEnvelope service.runtime publication.payload) =
      .ok publication.payload)
    (publishes : Publishes service engine window pipeline publication next) :
    (KeyedUpdates.Duplicate window pipeline.taken (stamp service.runtime publication) ∧
        next = pipeline) ∨
      ¬KeyedUpdates.Duplicate window pipeline.taken (stamp service.runtime publication) ∧
        next = ⟨pipeline.taken ++ [stamp service.runtime publication],
          service.writer.written engine publication.payload
            (some (episodeMetaOf (buildEnvelope service.runtime publication.payload)))
            pipeline.store⟩ := by
  have message_eq {message : StreamMessage}
      (sent : publishedMessage service.runtime publication.payload = .ok message) :
      message.envelope = buildEnvelope service.runtime publication.payload ∧
        (message.messageId, publication.time) = stamp service.runtime publication := by
    unfold publishedMessage at sent
    dsimp only at sent
    split at sent
    · cases sent
    · obtain rfl := Except.ok.inj sent
      exact ⟨rfl, rfl⟩
  cases publishes with
  | dropped sent duplicate =>
    rw [(message_eq sent).2] at duplicate
    exact Or.inl ⟨duplicate, rfl⟩
  | ingested sent fresh returned =>
    rw [(message_eq sent).2] at fresh ⊢
    rw [(message_eq sent).1] at returned
    refine Or.inr ⟨fresh, ?_⟩
    rw [run_ingest_returned rfl built returned]

/-- What is published are payloads of registered classes that are read back, and whose keys have
store keys of their own. -/
structure Publishable (runtime : Runtime) (payloads : List Payload) : Prop where
  takes : TakesIntegers runtime
  instances : ∀ payload ∈ payloads, ∃ cls ∈ payloadRegistry, payload.InstanceOf cls
  reads : ∀ payload ∈ payloads, ReadsBack runtime payload.modelDump
  apart : ∀ one ∈ payloads, ∀ other ∈ payloads,
    runtime.uuid5 one.naturalKey = runtime.uuid5 other.naturalKey →
      one.naturalKey = other.naturalKey

/-- The relay reads what is published. -/
theorem Publishable.payloadOf {payloads : List Payload} {payload : Payload}
    (publishable : Publishable service.runtime payloads) (member : payload ∈ payloads) :
    service.payloadOf (buildEnvelope service.runtime payload) = .ok payload := by
  obtain ⟨cls, registered, instanceOf⟩ := publishable.instances payload member
  exact payloadOf_buildEnvelope registered instanceOf publishable.takes
    (publishable.reads payload member)

theorem recordPlace_eq_iff (writer : DeterministicWriter) {one other : Payload}
    (apart : writer.runtime.uuid5 one.naturalKey = writer.runtime.uuid5 other.naturalKey →
      one.naturalKey = other.naturalKey) :
    writer.recordPlace one = writer.recordPlace other ↔ one.naturalKey = other.naturalKey := by
  constructor
  · intro same
    exact apart (Place.mk.inj same).2
  · intro same
    have named := @keyPlace_naturalKey writer one
    rw [same, keyPlace_naturalKey] at named
    exact (Option.some.inj named).symm

/-! ### A run of publications -/

/-- After a run the stream took what its window lets through, and each published key has the content
let through to it. -/
theorem run_publishes {start final : Pipeline} {publications : List Publication}
    (publishable : Publishable service.runtime (publications.map Publication.payload))
    (run : Transitions.Run (Publishes service engine window) start publications final) :
    final.taken = start.taken ++
        (taken service.runtime window start.taken publications).map (stamp service.runtime) ∧
      ∀ publication ∈ publications,
        hashAt service.runtime final.store publication.naturalKey =
          contentLetThrough service.runtime window start publications publication.naturalKey := by
  have reached := run.invariant_of_labels
    (fun past pipeline => past ⊆ publications → pipeline.taken = start.taken ++
        (taken service.runtime window start.taken past).map (stamp service.runtime) ∧
      ∀ publication ∈ publications,
        hashAt service.runtime pipeline.store publication.naturalKey =
          contentLetThrough service.runtime window start past publication.naturalKey) ?_ ?_
  · exact reached (List.Subset.refl publications)
  · intro _
    exact ⟨(List.append_nil start.taken).symm, fun _ _ => rfl⟩
  · intro past pipeline publication next before publishes inside
    obtain ⟨remembered, contents⟩ := before fun _ member => inside (List.mem_append_left _ member)
    have member : publication ∈ publications :=
      inside (List.mem_append_right past (List.mem_singleton_self publication))
    have published {other : Publication} (known : other ∈ publications) :
        other.payload ∈ publications.map Publication.payload :=
      List.mem_map_of_mem known
    have concat := KeyedUpdates.accepted_concat window (stamp service.runtime) start.taken past
      publication
    rw [contentLetThrough, taken, concat, show KeyedUpdates.accepted window
      (stamp service.runtime) start.taken past = taken service.runtime window start.taken past
      from rfl, ← remembered]
    rcases publishes.cases_written (publishable.payloadOf (published member)) with
      ⟨duplicate, rfl⟩ | ⟨fresh, rfl⟩
    · rw [if_pos duplicate]
      exact ⟨remembered, contents⟩
    · rw [if_neg fresh]
      refine ⟨?_, fun other known => ?_⟩
      · rw [List.map_append, ← List.append_assoc, ← remembered]
        rfl
      · have places : service.writer.recordPlace other.payload =
            service.writer.recordPlace publication.payload ↔
              other.naturalKey = publication.naturalKey :=
          recordPlace_eq_iff service.writer
            (publishable.apart _ (published known) _ (published member))
        rw [KeyedUpdates.current_concat]
        by_cases same : other.naturalKey = publication.naturalKey
        · rw [if_pos same.symm, Publication.naturalKey, hashAt_naturalKey, contentHash_written,
            if_pos (places.mpr same)]
          rfl
        · rw [if_neg (Ne.symm same), Publication.naturalKey, hashAt_naturalKey,
            contentHash_written, if_neg fun here => same (places.mp here), ← hashAt_naturalKey]
          exact contents other known

/-- The last payload published for each key is the content of the key's record. -/
def LastStored (service : RelayService) (publications : List Publication) (store : Store) : Prop :=
  ∀ key publication, KeyedUpdates.lastOf Publication.naturalKey publications key =
      some publication →
    ∃ value, store.lookup (service.writer.recordPlace publication.payload) = some value ∧
      value.contentHash = some (contentHash service.runtime publication.payload)

/-- The last payload published for each key has the content the stream let through to the key. -/
def LastLetThrough (runtime : Runtime) (window : Nat) (start : Pipeline)
    (publications : List Publication) : Prop :=
  ∀ key publication, KeyedUpdates.lastOf Publication.naturalKey publications key =
      some publication →
    contentLetThrough runtime window start publications key = some (publication.hash runtime)

/-- A published payload's key holds its content exactly when that content was let through. -/
theorem holds_iff_letThrough {start final : Pipeline} {publications : List Publication}
    (publishable : Publishable service.runtime (publications.map Publication.payload))
    (run : Transitions.Run (Publishes service engine window) start publications final)
    {publication : Publication} (member : publication ∈ publications) :
    (∃ value, final.store.lookup (service.writer.recordPlace publication.payload) = some value ∧
        value.contentHash = some (contentHash service.runtime publication.payload)) ↔
      contentLetThrough service.runtime window start publications publication.naturalKey =
        some (publication.hash service.runtime) := by
  rw [← (run_publishes publishable run).2 publication member, Publication.naturalKey,
    hashAt_naturalKey, Option.bind_eq_some_iff]
  rfl

/-- After publications that all returned `None` every key holds the content of its last payload
exactly when the last message the stream took for the key, or else the record at the start, has
that content. -/
theorem lastStored_iff (service : RelayService) (engine : SearchEngine) (window : Nat)
    (start final : Pipeline) (publications : List Publication)
    (publishable : Publishable service.runtime (publications.map Publication.payload))
    (run : Transitions.Run (Publishes service engine window) start publications final) :
    LastStored service publications final.store ↔
      LastLetThrough service.runtime window start publications := by
  refine forall_congr' fun key => forall_congr' fun publication => forall_congr' fun last => ?_
  obtain ⟨member, rfl⟩ := KeyedUpdates.lastOf_eq_some _ last
  exact holds_iff_letThrough publishable run member

/-- Nothing is lost when publications of one id keep the window's distance. -/
theorem lastStored_of_distant {start : Store} {final : Pipeline} {publications : List Publication}
    (publishable : Publishable service.runtime (publications.map Publication.payload))
    (run : Transitions.Run (Publishes service engine window) ⟨[], start⟩ publications final)
    (distant : publications.Pairwise fun earlier later =>
      (stamp service.runtime earlier).1 = (stamp service.runtime later).1 →
        earlier.time + window ≤ later.time) :
    LastStored service publications final.store := by
  intro key publication last
  obtain ⟨member, rfl⟩ := KeyedUpdates.lastOf_eq_some _ last
  refine (holds_iff_letThrough publishable run member).mpr ?_
  rw [contentLetThrough, taken, KeyedUpdates.accepted_eq_self window (stamp service.runtime) distant,
    KeyedUpdates.current, last]

end

/-! ### A revision within the window -/

section Sample

/-- The build outcome with other lessons. -/
def revisedOutcome : Payload :=
  lessonsOutcome.withLessons (.str "tea")

/-- The functions on the build outcome and its revision. -/
def revisedRuntime : Runtime :=
  { lessonsRuntime with sha256 := fun text =>
      if text = revisedDump then "5d98b4e283c33cd9951cff26f87f8ad2fc2bc83af280dad5bd7738fb455eda54"
      else lessonsRuntime.sha256 text }
where
  revisedDump : String :=
    "\x7b\"approach\":null,\"domain_tags\":[\"task\"],\"duration_seconds\":1," ++
      "\"identifier\":\"T\",\"lessons\":\"tea\"," ++
      "\"natural_key\":\"build_outcome:a:T\",\"project\":\"a\",\"source_ref\":\"s\"," ++
      "\"status\":\"ok\",\"supersedes\":[],\"task_id\":null\x7d"

def revisedService : RelayService where
  writer := ⟨revisedRuntime, 1⟩
  settings := ⟨1000, ⟨"0.15"⟩⟩

/-- The build outcome is published, and its revision a second later. -/
def revisedPublications : List Publication :=
  [⟨lessonsOutcome, 0⟩, ⟨revisedOutcome, 1⟩]

/-- The stream and the store after the first of them. -/
def revisedPipeline : Pipeline where
  taken := [stamp revisedRuntime ⟨lessonsOutcome, 0⟩]
  store := revisedService.writer.written (prefixEngine fun _ _ _ => none) lessonsOutcome
    (some (episodeMetaOf (buildEnvelope revisedRuntime lessonsOutcome))) ∅

theorem readsBack_revisedRuntime : ReadsBack revisedRuntime lessonsOutcome.modelDump := by
  rw [ReadsBack, show revisedRuntime.loads = lessonsRuntime.loads from rfl]
  exact readsBack_lessonsOutcome

theorem publishes_lessonsOutcome :
    Publishes revisedService (prefixEngine fun _ _ _ => none) 120 ⟨[], ∅⟩ ⟨lessonsOutcome, 0⟩
      revisedPipeline := by
  have sent : publishedMessage revisedRuntime lessonsOutcome =
      .ok ⟨"memory.episode.a.build_outcome", buildEnvelope revisedRuntime lessonsOutcome,
        deriveEpisodeId revisedRuntime lessonsOutcome.naturalKey⟩ := by
    have size : ¬bodyBytes lessonsOutcome ≥ maxEpisodeBodyBytes := by decide +kernel
    rw [publishedMessage, if_neg size]
    rfl
  have built : revisedService.payloadOf (buildEnvelope revisedRuntime lessonsOutcome) =
      .ok lessonsOutcome :=
    @payloadOf_buildEnvelope revisedService lessonsOutcome BuildOutcomePayload
      (by simp [payloadRegistry]) instanceOf_lessonsOutcome (fun _ => rfl) readsBack_revisedRuntime
  have accepts : Accepts lessonsOutcome := ⟨by decide, by decide⟩
  have returned := @RelayService.run_ingest_of_accepts revisedService
    (prefixEngine fun _ _ _ => none) _ _ ∅ rfl built accepts (by decide)
  have fresh : ¬KeyedUpdates.Duplicate 120 ([] : List (String × Nat))
      (stamp revisedRuntime ⟨lessonsOutcome, 0⟩) := by
    simp [KeyedUpdates.Duplicate]
  exact @Publishes.ingested revisedService _ 120 ⟨[], ∅⟩ ⟨lessonsOutcome, 0⟩ _ _ sent fresh returned

/-- The revision has the id of the first message, and is dropped. -/
theorem run_revisedPublications :
    Transitions.Run (Publishes revisedService (prefixEngine fun _ _ _ => none) 120) ⟨[], ∅⟩
      revisedPublications revisedPipeline := by
  have sent : publishedMessage revisedRuntime revisedOutcome =
      .ok ⟨"memory.episode.a.build_outcome", buildEnvelope revisedRuntime revisedOutcome,
        deriveEpisodeId revisedRuntime revisedOutcome.naturalKey⟩ := by
    have size : ¬bodyBytes revisedOutcome ≥ maxEpisodeBodyBytes := by decide +kernel
    rw [publishedMessage, if_neg size]
    rfl
  have first := Transitions.Run.single publishes_lessonsOutcome
  refine .snoc first (.dropped sent ?_)
  exact ⟨_, List.mem_singleton_self _, rfl, by decide⟩

/-- The record keeps the lessons it has: the revision is lost. -/
theorem not_lastStored_revisedPublications :
    Transitions.Run (Publishes revisedService (prefixEngine fun _ _ _ => none) 120) ⟨[], ∅⟩
        revisedPublications revisedPipeline ∧
      ¬LastStored revisedService revisedPublications revisedPipeline.store := by
  refine ⟨run_revisedPublications, fun stored => ?_⟩
  obtain ⟨value, found, hash⟩ := stored "build_outcome:a:T" ⟨revisedOutcome, 1⟩ rfl
  have kept := @contentHash_written (prefixEngine fun _ _ _ => none) revisedService.writer
    lessonsOutcome (some (episodeMetaOf (buildEnvelope revisedRuntime lessonsOutcome))) ∅
    (revisedService.writer.recordPlace revisedOutcome)
  rw [show (revisedService.writer.written _ lessonsOutcome _ ∅).lookup _ = some value from found,
    Option.bind_some, hash, if_pos (show revisedService.writer.recordPlace revisedOutcome =
      revisedService.writer.recordPlace lessonsOutcome from rfl)] at kept
  have different : contentHash revisedRuntime revisedOutcome ≠
      contentHash revisedRuntime lessonsOutcome := by decide +kernel
  exact different (Option.some.inj kept)

/-- The build outcome alone is stored. -/
theorem lastStored_iff_lessonsOutcome :
    LastStored revisedService [⟨lessonsOutcome, 0⟩] revisedPipeline.store ↔
      LastLetThrough revisedRuntime 120 ⟨[], ∅⟩ [⟨lessonsOutcome, 0⟩] := by
  refine lastStored_iff revisedService (prefixEngine fun _ _ _ => none) 120 ⟨[], ∅⟩ revisedPipeline
    [⟨lessonsOutcome, 0⟩] ⟨fun _ => rfl, ?_, ?_, ?_⟩ (.single publishes_lessonsOutcome)
  · intro payload member
    rw [List.mem_singleton.mp member]
    exact ⟨BuildOutcomePayload, by simp [payloadRegistry], instanceOf_lessonsOutcome⟩
  · intro payload member
    rw [List.mem_singleton.mp member]
    exact readsBack_revisedRuntime
  · intro one member other inside _
    rw [List.mem_singleton.mp member, List.mem_singleton.mp inside]

end Sample

end FleetMemory
