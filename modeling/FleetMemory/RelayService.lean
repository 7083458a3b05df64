/-
This file models the relay service: an episode's body is turned into a typed payload or
into prose chunks, which the writers store, and whatever is raised on the way is sorted
into poison and transient failures. One ingest leaves the store the writers' results say,
and nothing but the two kinds of failure leaves it.
-/

import FleetMemory.Chunker
import FleetMemory.Writer

namespace FleetMemory

open StoreProgram

/-! ### Envelopes -/

/-- `MemoryEpisodeV1`. Times are their `isoformat()`. -/
structure MemoryEpisodeV1 where
  episodeId : String
  projectId : String
  episodeType : String
  contentFormat : String
  body : String
  payloadType : Option String := none
  sourceRef : Option String := none
  name : Option String := none
  source : Option String := none
  occurredAt : Option String := none
  publishedAt : Option String := none
  ingestHints : Option PyDict := none

/-- `_episode_meta`. -/
def episodeMetaOf (episode : MemoryEpisodeV1) : EpisodeMeta where
  episodeType := episode.episodeType
  name := episode.name
  source := episode.source
  occurredAt := episode.occurredAt
  publishedAt := episode.publishedAt
  ingestHints := episode.ingestHints
  payloadType := episode.payloadType
  sourceRef := episode.sourceRef

/-! ### The chunk writer -/

section

variable (runtime : Runtime) (episodeId : String) (episodeMeta : Option EpisodeMeta)

/-- The place of an episode's chunk. -/
def chunkPlace (project : String) (index : Nat) : Place :=
  ⟨["fleet_memory", project, "chunk"], runtime.uuid5 (episodeId ++ ":" ++ toString index)⟩

/-- The value stored for a chunk. -/
def chunkValue (chunk : Chunk) : StoredValue where
  content := chunk.text
  episodeId := some episodeId
  chunkIndex := some chunk.index
  sourceRef := chunk.sourceRef
  project := some chunk.project
  episodeType := episodeMeta.map (·.episodeType)
  episodeMeta := episodeMeta

/-- `ChunkWriter.write_chunks`. -/
def writeChunks : List Chunk → StoreM Unit
  | [] => return ()
  | chunk :: rest => do
    lift (validateNamespace ["fleet_memory", chunk.project, "chunk"])
    Program.put (chunkPlace runtime episodeId chunk.project chunk.index)
      (chunkValue episodeId episodeMeta chunk)
    writeChunks rest

end

/-! ### What the chunk writer leaves -/

section

variable (runtime : Runtime) (episodeId : String) (episodeMeta : Option EpisodeMeta)

/-- The store with a chunk stored. -/
def storeChunk (store : Store) (chunk : Chunk) : Store :=
  store.insert (chunkPlace runtime episodeId chunk.project chunk.index)
    (chunkValue episodeId episodeMeta chunk)

/-- The store with the chunks stored, one after the other. -/
def storeChunks (chunks : List Chunk) (store : Store) : Store :=
  chunks.foldl (storeChunk runtime episodeId episodeMeta) store

variable {engine : SearchEngine} {project : String} {chunks : List Chunk}

theorem validateNamespace_chunk (valid : validPart project = true) :
    validateNamespace ["fleet_memory", project, "chunk"] = .ok () := by
  refine DeterministicWriter.validateNamespace_eq_ok.mpr fun part member => ?_
  simp only [List.mem_cons, List.not_mem_nil, or_false] at member
  rcases member with rfl | rfl | rfl
  · decide
  · exact valid
  · decide

/-- A chunk writer whose puts may fail stores a prefix of the chunks, and all of them when it
returns. -/
theorem runFaulty_writeChunks (valid : validPart project = true)
    (projects : ∀ chunk ∈ chunks, chunk.project = project) (faults : List (Option PyError))
    (store : Store) :
    ∃ stored, stored <+: chunks ∧
      ((writeChunks runtime episodeId episodeMeta chunks).runFaulty (storeWorld engine) faults
        store).2 = storeChunks runtime episodeId episodeMeta stored store ∧
      (((writeChunks runtime episodeId episodeMeta chunks).runFaulty (storeWorld engine) faults
        store).1 = .returned () → stored = chunks) := by
  induction chunks generalizing faults store with
  | nil => exact ⟨[], List.nil_prefix, rfl, fun _ => rfl⟩
  | cons chunk rest inductionHypothesis =>
    rw [writeChunks, projects chunk List.mem_cons_self, validateNamespace_chunk valid,
      lift_ok_bind, Program.runFaulty_put_bind]
    cases faults.headD none with
    | some fault =>
      refine ⟨[], List.nil_prefix, rfl, ?_⟩
      rintro ⟨⟩
    | none =>
      obtain ⟨stored, shorter, left, complete⟩ := inductionHypothesis
        (fun other member => projects other (List.mem_cons_of_mem _ member)) faults.tail
        (storeChunk runtime episodeId episodeMeta store chunk)
      rw [storeChunk, projects chunk List.mem_cons_self] at left complete
      refine ⟨chunk :: stored, List.cons_prefix_cons.mpr ⟨rfl, shorter⟩, ?_, ?_⟩
      · rw [storeChunks, List.foldl_cons, storeChunk, projects chunk List.mem_cons_self]
        exact left
      · intro returned
        rw [complete returned]

/-- A chunk writer whose puts succeed stores the chunks. -/
theorem run_writeChunks (valid : validPart project = true)
    (projects : ∀ chunk ∈ chunks, chunk.project = project) (store : Store) :
    (writeChunks runtime episodeId episodeMeta chunks).run (storeWorld engine) store =
      (.returned (), storeChunks runtime episodeId episodeMeta chunks store) := by
  induction chunks generalizing store with
  | nil => rfl
  | cons chunk rest inductionHypothesis =>
    rw [writeChunks, projects chunk List.mem_cons_self, validateNamespace_chunk valid,
      lift_ok_bind, Program.run_bind, Program.run_put]
    dsimp only
    rw [inductionHypothesis fun other member => projects other (List.mem_cons_of_mem _ member),
      storeChunks, storeChunks, List.foldl_cons, storeChunk, projects chunk List.mem_cons_self,
      storeWorld_put]

/-- A project that is no namespace segment is refused before any put. -/
theorem run_writeChunks_of_invalid (invalid : validPart project = false)
    (projects : ∀ chunk ∈ chunks, chunk.project = project) (some_chunk : chunks ≠ [])
    (store : Store) :
    ∃ namespaceParts invalidParts,
      (writeChunks runtime episodeId episodeMeta chunks).run (storeWorld engine) store =
        (.raised (.namespaceValidation namespaceParts invalidParts), store) := by
  cases chunks with
  | nil => exact absurd rfl some_chunk
  | cons chunk rest =>
    obtain ⟨invalidParts, refused⟩ := DeterministicWriter.validateNamespace_eq_error
      (show project ∈ ["fleet_memory", project, "chunk"] by simp) invalid
    rw [writeChunks, projects chunk List.mem_cons_self, refused, lift_error_bind, run_lift_error]
    exact ⟨_, _, rfl⟩

end

/-! ### The service -/

/-- `RelayService`: the writers and the chunk settings. -/
structure RelayService where
  writer : DeterministicWriter
  settings : ChunkSettings

namespace RelayService

variable (service : RelayService)

def runtime : Runtime :=
  service.writer.runtime

/-- `json.loads(episode.body)`, where a body that is not JSON is poison. -/
def parseBody (body : String) : Except PyError PyValue :=
  match service.runtime.loads body with
  | .ok value => .ok value
  | .error (.decode text) => .error (.poisonEpisode "unparseable json body" (some text))
  | .error (.value text) => .error (.valueError text)

/-- `payload_model(**payload_dict)`. -/
def buildPayload (cls : PayloadClass) (payloadDict : PyValue) : Except PyError Payload :=
  match payloadDict.entries? with
  | some entries => cls.init service.runtime entries
  | none => .error (.typeError ("fleet_memory.payloads.models." ++ cls.className ++
      "() argument after ** must be a mapping, not " ++ payloadDict.typeName))

/-- The typed payload of a json episode. -/
def payloadOf (episode : MemoryEpisodeV1) : Except PyError Payload := do
  match episode.payloadType with
  | none => .error (.poisonEpisode "missing payload_type for json episode"
      (some "json episodes must specify payload_type"))
  | some payloadType => do
    let payloadDict ← service.parseBody episode.body
    let payloadModel ← getModelForType (.str payloadType)
    service.buildPayload payloadModel payloadDict

/-- `_ingest_json`. -/
def ingestJson (episode : MemoryEpisodeV1) : StoreM Unit := do
  let payload ← lift (service.payloadOf episode)
  service.writer.write payload (some (episodeMetaOf episode))

/-- The chunks of a prose episode. -/
def chunksOf (episode : MemoryEpisodeV1) : Outcome PyError (List Chunk) :=
  chunkProse service.runtime service.settings episode.body episode.sourceRef episode.projectId

/-- `_ingest_prose`. -/
def ingestProse (episode : MemoryEpisodeV1) : StoreM Unit := do
  let chunks ← Program.ofOutcome (service.chunksOf episode)
  writeChunks service.runtime episode.episodeId (some (episodeMetaOf episode)) chunks

/-- What `ingest` raises for an exception: poison for a deterministic failure, transient for any
other. -/
def ingestError : PyError → PyError
  | .poisonEpisode reason detail => .poisonEpisode reason detail
  | .unknownPayloadType payloadType =>
    .poisonEpisode ("unknown payload_type: " ++ service.runtime.format payloadType)
      (some "Not found in dispatch registry")
  | .namespaceValidation namespaceParts invalidParts =>
    .poisonEpisode ("invalid namespace: " ++ service.runtime.reprList invalidParts)
      (some ("Namespace " ++ service.runtime.reprTuple namespaceParts ++
        " contains invalid identifiers"))
  | .identifierValidation fieldName value =>
    .poisonEpisode ("invalid " ++ fieldName ++ " identifier: " ++ service.runtime.format value)
      (some "Identifiers must use underscores only")
  | .validation title errors =>
    .poisonEpisode "payload validation failed" (some (service.runtime.validationText title errors))
  | .embedDimension actual expected =>
    .poisonEpisode ("embedding dimension mismatch: " ++ toString actual ++ " != " ++
      toString expected) (some "Check embed_dims configuration")
  | .embedRequest text statusCode errorType =>
    let reason := "embed request rejected (HTTP " ++
      (match statusCode with
        | some code => toString code
        | none => "None") ++ ")"
    match errorType with
    | some kind => .poisonEpisode (if kind = "" then reason else reason ++ ": " ++ kind) (some text)
    | none => .poisonEpisode reason (some text)
  | error =>
    let text := error.text service.runtime
    match error with
    | .embedService _ | .embedTimeout _ =>
      .transientIngest ("Embedding service unavailable: " ++ text)
    | .connectionError _ | .timeoutError _ => .transientIngest ("Connection error: " ++ text)
    | _ => .transientIngest ("Unexpected error during ingest: " ++ text)

/-- The handler of a format `ingest` does not route. -/
def unrecognizedFormat (contentFormat : String) : PyError :=
  .poisonEpisode ("unrecognized content_format: " ++ contentFormat)
    (some "Only json, markdown, and text are supported")

/-- The routing of `ingest`. -/
def route (episode : MemoryEpisodeV1) : StoreM Unit :=
  if episode.contentFormat = "json" then service.ingestJson episode
  else if episode.contentFormat = "markdown" ∨ episode.contentFormat = "text" then
    service.ingestProse episode
  else lift (.error (unrecognizedFormat episode.contentFormat))

/-- `ingest`. -/
def ingest (episode : MemoryEpisodeV1) : StoreM Unit :=
  Program.tryCatch (service.route episode) fun error => lift (.error (service.ingestError error))

end RelayService

/-! ### How an ingest ends -/

/-- A failure that parks the episode. -/
def PyError.isPoison : PyError → Bool
  | .poisonEpisode _ _ => true
  | _ => false

/-- A failure that is redelivered. -/
def PyError.isTransient : PyError → Bool
  | .transientIngest _ => true
  | _ => false

namespace RelayService

variable {service : RelayService} {engine : SearchEngine} {episode : MemoryEpisodeV1}

theorem ingestError_sorts (error : PyError) :
    (service.ingestError error).isPoison = true ∨ (service.ingestError error).isTransient = true := by
  cases error with
  | embedRequest text statusCode errorType =>
    left
    cases errorType <;> rfl
  | _ => first | exact Or.inl rfl | exact Or.inr rfl

variable (service engine episode) in
/-- A run of an ingest is the run of its route, with what that raises sorted. -/
theorem runFaulty_ingest (faults : List (Option PyError)) (store : Store) :
    (service.ingest episode).runFaulty (storeWorld engine) faults store =
      (((service.route episode).runFaulty (storeWorld engine) faults store).1.mapFault
          service.ingestError,
        ((service.route episode).runFaulty (storeWorld engine) faults store).2) :=
  Program.runFaulty_tryCatch_translate _ _ _ _

variable (service engine episode) in
theorem run_ingest (store : Store) :
    (service.ingest episode).run (storeWorld engine) store =
      (((service.route episode).run (storeWorld engine) store).1.mapFault service.ingestError,
        ((service.route episode).run (storeWorld engine) store).2) :=
  Program.run_tryCatch_translate _ _ _

variable (service engine episode) in
/-- Whatever calls fail, an ingest raises nothing but poison and transient failures. -/
theorem runFaulty_ingest_raised (faults : List (Option PyError)) (store after : Store)
    (error : PyError)
    (raised : (service.ingest episode).runFaulty (storeWorld engine) faults store =
      (.raised error, after)) : error.isPoison = true ∨ error.isTransient = true := by
  rw [runFaulty_ingest] at raised
  cases outcome : ((service.route episode).runFaulty (storeWorld engine) faults store).1 with
  | returned result => simp [outcome, Outcome.mapFault] at raised
  | raised fault =>
    simp only [outcome, Outcome.mapFault, Prod.mk.injEq, Outcome.raised.injEq] at raised
    rw [← raised.1]
    exact ingestError_sorts fault
  | hung => simp [outcome, Outcome.mapFault] at raised

/-- The episode's body is chunked. -/
def IsProse (episode : MemoryEpisodeV1) : Prop :=
  episode.contentFormat = "markdown" ∨ episode.contentFormat = "text"

theorem route_of_json (json : episode.contentFormat = "json") :
    service.route episode = service.ingestJson episode := by
  rw [route, if_pos json]

theorem route_of_prose (prose : IsProse episode) :
    service.route episode = service.ingestProse episode := by
  have notJson : episode.contentFormat ≠ "json" := by
    rcases prose with format | format <;> rw [format] <;> decide
  rw [route, if_neg notJson]
  exact if_pos prose

theorem route_of_other (notJson : episode.contentFormat ≠ "json") (notProse : ¬IsProse episode) :
    service.route episode = lift (.error (unrecognizedFormat episode.contentFormat)) := by
  rw [route, if_neg notJson]
  exact if_neg notProse

/-- A structured episode whose payload the writer accepts is written. -/
theorem run_ingest_of_accepts {payload : Payload} {store : Store}
    (json : episode.contentFormat = "json") (built : service.payloadOf episode = .ok payload)
    (accepts : DeterministicWriter.Accepts payload)
    (room : store.keys.card < forwardPage * service.writer.pages) :
    (service.ingest episode).run (storeWorld engine) store =
      (.returned (), service.writer.written engine payload (some (episodeMetaOf episode)) store) := by
  rw [run_ingest, route_of_json json, ingestJson, built, lift_ok_bind,
    DeterministicWriter.run_write_of_accepts accepts
      ((length_ranking_le engine _ store).trans_lt room)]
  rfl

/-- A structured episode whose content is stored only marks what its payload supersedes. -/
theorem run_ingest_of_stored {payload : Payload} {store : Store}
    (json : episode.contentFormat = "json") (built : service.payloadOf episode = .ok payload)
    (accepts : DeterministicWriter.Accepts payload)
    (stored : ¬service.writer.Puts payload store) :
    (service.ingest episode).run (storeWorld engine) store =
      (.returned (), markAll service.runtime payload.naturalKey payload.supersedes store) := by
  have returned := (DeterministicWriter.run_upsert service.writer engine payload
    (some (episodeMetaOf episode)) store).resolve_right fun hung => stored hung.2.1
  rw [run_ingest, route_of_json json, ingestJson, built, lift_ok_bind,
    DeterministicWriter.write_of_accepts accepts, returned, DeterministicWriter.written,
    DeterministicWriter.upserted, if_neg stored]
  rfl

/-- A structured episode whose payload the writer does not accept leaves the store alone. -/
theorem run_ingest_of_not_accepts {payload : Payload} (json : episode.contentFormat = "json")
    (built : service.payloadOf episode = .ok payload)
    (refused : ¬DeterministicWriter.Accepts payload) (store : Store) :
    ((service.ingest episode).run (storeWorld engine) store).2 = store := by
  obtain ⟨error, raises⟩ := DeterministicWriter.write_of_not_accepts service.writer
    (some (episodeMetaOf episode)) refused
  rw [run_ingest, route_of_json json, ingestJson, built, lift_ok_bind, raises, run_lift_error]

theorem projects_of_chunksOf {chunks : List Chunk}
    (returned : service.chunksOf episode = .returned chunks) :
    ∀ chunk ∈ chunks, chunk.project = episode.projectId := by
  intro chunk member
  obtain ⟨index, found⟩ := List.getElem?_of_mem member
  exact (numbered_chunkProse returned index chunk found).2.2

end RelayService

end FleetMemory
