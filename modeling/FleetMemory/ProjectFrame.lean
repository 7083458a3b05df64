/-
This file proves when an episode keeps to its own project. Prose is chunked into the
project of the envelope. A structured episode is written into the project its body names,
which nothing compares with the envelope's, so it keeps to its own project exactly when
the two agree or its write changes nothing, and a body that fails in a way the service
does not take for poison is not parked.
-/

import FleetMemory.ProseIngest

namespace FleetMemory

open StoreProgram DeterministicWriter RelayService

/-! ### The claim on one ingest -/

/-- The record without its supersession mark. -/
def StoredValue.unmarked (value : StoredValue) : StoredValue :=
  { value with supersededBy := none }

/-- The place holds a record that was created or whose content was changed. -/
def Changed (before after : Store) (place : Place) : Prop :=
  ∃ value, after.lookup place = some value ∧
    ∀ old, before.lookup place = some old → value.unmarked ≠ old.unmarked

/-- The place lies in a namespace of the project. -/
def InProject (project : String) (place : Place) : Prop :=
  ∃ kind, place.namespaceParts = ["fleet_memory", project, kind]

/-- An ingest that returns changes records of the envelope's project only; an envelope whose
project is no namespace segment and whose body is not blank is parked as poison, with the store
left alone. -/
def KeepsToProject (service : RelayService) (engine : SearchEngine) (episode : MemoryEpisodeV1)
    (store : Store) : Prop :=
  let run := (service.ingest episode).run (storeWorld engine) store
  (run.1 = .returned () → ∀ place, Changed store run.2 place → InProject episode.projectId place) ∧
    (validPart episode.projectId = false → Text.blank episode.body = false →
      (∃ reason detail, run.1 = .raised (.poisonEpisode reason detail)) ∧ run.2 = store)

/-- The failures `ingest` parks as poison. -/
def PyError.parked : PyError → Bool
  | .poisonEpisode _ _ => true
  | .unknownPayloadType _ => true
  | .namespaceValidation _ _ => true
  | .identifierValidation _ _ => true
  | .validation _ _ => true
  | .embedDimension _ _ => true
  | .embedRequest _ _ _ => true
  | _ => false

/-- The project of the envelope needs no parking: it is a namespace segment, or the body is
blank. -/
def NeedsNoParking (episode : MemoryEpisodeV1) : Prop :=
  validPart episode.projectId = true ∨ Text.blank episode.body = true

/-- A structured body keeps to the envelope's project: the payload it yields is refused, is of that
project, or changes nothing; a body that yields none fails as poison where it must. -/
def JsonConfined (service : RelayService) (episode : MemoryEpisodeV1) (store : Store) : Prop :=
  match service.payloadOf episode with
  | .ok payload => validPart payload.project = false ∨ payload.project = episode.projectId ∨
      (¬service.writer.Puts payload store ∧ NeedsNoParking episode)
  | .error error => NeedsNoParking episode ∨ error.parked = true

/-- A prose body that must be parked yields a chunk, or fails as poison. -/
def ProseConfined (service : RelayService) (episode : MemoryEpisodeV1) : Prop :=
  NeedsNoParking episode ∨
    match service.chunksOf episode with
    | .returned chunks => chunks ≠ []
    | .raised error => error.parked = true
    | .hung => False

/-- The condition under which an episode keeps to its project. -/
def Confined (service : RelayService) (episode : MemoryEpisodeV1) (store : Store) : Prop :=
  (episode.contentFormat = "json" → JsonConfined service episode store) ∧
    (IsProse episode → ProseConfined service episode)

section

variable {service : RelayService} {engine : SearchEngine} {episode : MemoryEpisodeV1}
  {store : Store}

theorem ingestError_eq_poison_iff (error : PyError) :
    (∃ reason detail, service.ingestError error = .poisonEpisode reason detail) ↔
      error.parked = true := by
  cases error with
  | embedRequest text statusCode errorType =>
    cases errorType <;> simp [ingestError, PyError.parked]
  | _ => simp [ingestError, PyError.parked]

/-! ### Structured episodes -/

theorem payloadOf_eq_ok {payload : Payload} (built : service.payloadOf episode = .ok payload) :
    registered payload.payloadType = true ∧ validPart payload.payloadType = true := by
  unfold payloadOf at built
  split at built
  · cases built
  · obtain ⟨payloadDict, _, built⟩ := except_bind_eq_ok.mp built
    obtain ⟨cls, found, built⟩ := except_bind_eq_ok.mp built
    unfold buildPayload at built
    split at built
    · rw [init_payloadType built]
      have all : ∀ cls ∈ payloadRegistry, registered cls.payloadType = true ∧
          validPart cls.payloadType = true := by decide
      exact all cls (getModelForType_mem found)
    · cases built

/-- A payload of an episode is accepted exactly when its project is a namespace segment. -/
theorem accepts_iff {payload : Payload} (built : service.payloadOf episode = .ok payload) :
    Accepts payload ↔ validPart payload.project = true := by
  obtain ⟨known, kind⟩ := payloadOf_eq_ok built
  constructor
  · intro accepts
    exact accepts.2 payload.project (by simp [recordNamespace])
  · intro valid
    refine ⟨known, fun part member => ?_⟩
    simp only [recordNamespace, List.mem_cons, List.not_mem_nil, or_false] at member
    rcases member with rfl | rfl | rfl
    · decide
    · exact valid
    · exact kind

/-- What a write changes, marks aside, is the record it puts. -/
theorem changed_written_iff {writer : DeterministicWriter} {payload : Payload}
    {episodeMeta : Option EpisodeMeta} {place : Place} :
    Changed store (writer.written engine payload episodeMeta store) place ↔
      writer.Puts payload store ∧ place = writer.recordPlace payload := by
  constructor
  · rintro ⟨value, stored, changed⟩
    rw [written, lookup_markAll] at stored
    obtain ⟨source, found, rfl⟩ := Option.map_eq_some_iff.mp stored
    rw [lookup_upserted] at found
    split at found
    · assumption
    · refine absurd ?_ (changed source found)
      split <;> rfl
  · rintro ⟨puts, rfl⟩
    obtain ⟨value, stored, hash⟩ := lookup_written_self
    refine ⟨value, stored, fun old before same => puts ?_⟩
    rw [before, Option.bind_some, ← hash]
    exact (congrArg StoredValue.contentHash same).symm

/-! ### The two halves of the claim -/

/-- A run that does not return and leaves the store alone keeps to the project exactly when it is
parked where it must be. -/
theorem keepsToProject_of_not_returned {outcome : Outcome PyError Unit}
    (ran : (service.route episode).run (storeWorld engine) store = (outcome, store))
    (stops : outcome ≠ .returned ()) :
    KeepsToProject service engine episode store ↔
      NeedsNoParking episode ∨ ∃ error, outcome = .raised error ∧ error.parked = true := by
  have poison : (∃ reason detail, outcome.mapFault service.ingestError =
      .raised (.poisonEpisode reason detail)) ↔
        ∃ error, outcome = .raised error ∧ error.parked = true := by
    cases outcome with
    | raised error => simp [Outcome.mapFault, ingestError_eq_poison_iff]
    | returned result => simp [Outcome.mapFault]
    | hung => simp [Outcome.mapFault]
  unfold KeepsToProject NeedsNoParking
  simp only [run_ingest, ran, Outcome.mapFault_eq_returned, poison]
  constructor
  · rintro ⟨_, parks⟩
    by_contra escapes
    simp only [not_or, Bool.not_eq_true] at escapes
    exact escapes.2 (parks escapes.1.1 escapes.1.2).1
  · intro holds
    refine ⟨fun returned => absurd returned stops, fun invalid content => ⟨?_, trivial⟩⟩
    rcases holds with (valid | blank) | parked
    · rw [valid] at invalid
      cases invalid
    · rw [blank] at content
      cases content
    · exact parked

/-- A run that returns keeps to the project exactly when what it changed does and nothing had to be
parked. -/
theorem keepsToProject_of_returned {after : Store}
    (returned : (service.route episode).run (storeWorld engine) store = (.returned (), after)) :
    KeepsToProject service engine episode store ↔
      (∀ place, Changed store after place → InProject episode.projectId place) ∧
        NeedsNoParking episode := by
  unfold KeepsToProject NeedsNoParking
  simp only [run_ingest, returned, Outcome.mapFault]
  refine and_congr (by simp) ?_
  constructor
  · intro parks
    by_contra escapes
    simp only [not_or, Bool.not_eq_true] at escapes
    obtain ⟨⟨_, _, impossible⟩, _⟩ := parks escapes.1 escapes.2
    cases impossible
  · rintro (valid | blank) invalid content
    · rw [valid] at invalid
      cases invalid
    · rw [blank] at content
      cases content

theorem inProject_recordPlace {writer : DeterministicWriter} {payload : Payload}
    {project : String} :
    InProject project (writer.recordPlace payload) ↔ payload.project = project := by
  simp [InProject, recordPlace, recordNamespace]

/-- A structured episode keeps to its project exactly when its body does. -/
theorem keepsToProject_iff_of_json (json : episode.contentFormat = "json")
    (room : store.keys.card < forwardPage * service.writer.pages) :
    KeepsToProject service engine episode store ↔ JsonConfined service episode store := by
  unfold JsonConfined
  cases built : service.payloadOf episode with
  | error error =>
    have ran : (service.route episode).run (storeWorld engine) store =
        (.raised error, store) := by
      rw [route_of_json json, ingestJson, built, lift_error_bind, run_lift_error]
    rw [keepsToProject_of_not_returned ran (by simp)]
    simp
  | ok payload =>
    have route : service.route episode =
        service.writer.write payload (some (episodeMetaOf episode)) := by
      rw [route_of_json json, ingestJson, built, lift_ok_bind]
    by_cases valid : validPart payload.project = true
    · have ran : (service.route episode).run (storeWorld engine) store =
          (.returned (), service.writer.written engine payload (some (episodeMetaOf episode))
            store) := by
        rw [route]
        exact run_write_of_accepts ((accepts_iff built).mpr valid)
          ((length_ranking_le engine _ store).trans_lt room)
      rw [keepsToProject_of_returned ran]
      simp only [changed_written_iff, valid, Bool.true_eq_false, false_or]
      constructor
      · rintro ⟨own, parking⟩
        by_cases puts : service.writer.Puts payload store
        · exact Or.inl (inProject_recordPlace.mp (own _ ⟨puts, rfl⟩))
        · exact Or.inr ⟨puts, parking⟩
      · rintro (same | ⟨kept, parking⟩)
        · refine ⟨?_, Or.inl (by rwa [← same])⟩
          rintro place ⟨_, rfl⟩
          exact inProject_recordPlace.mpr same
        · exact ⟨fun place changed => absurd changed.1 kept, parking⟩
    · have invalid : validPart payload.project = false := by simpa using valid
      obtain ⟨invalidParts, refused⟩ := @write_of_invalid_namespace service.writer payload
        (some (episodeMetaOf episode)) (payloadOf_eq_ok built).1 payload.project
        (by simp [recordNamespace]) invalid
      have ran : (service.route episode).run (storeWorld engine) store =
          (.raised (.namespaceValidation (recordNamespace payload) invalidParts), store) := by
        rw [route, refused, run_lift_error]
      rw [keepsToProject_of_not_returned ran (by simp)]
      simp [invalid, PyError.parked]

/-! ### Prose episodes -/

theorem not_changed_self (store : Store) (place : Place) : ¬Changed store store place := by
  rintro ⟨value, stored, changed⟩
  exact changed value stored rfl

/-- A prose episode keeps to its project exactly when its chunks do. -/
theorem keepsToProject_iff_of_prose (prose : IsProse episode) :
    KeepsToProject service engine episode store ↔ ProseConfined service episode := by
  unfold ProseConfined
  have route : service.route episode = service.ingestProse episode := route_of_prose prose
  cases cut : service.chunksOf episode with
  | hung =>
    have ran : (service.route episode).run (storeWorld engine) store = (.hung, store) := by
      rw [route, ingestProse, cut]
      rfl
    rw [keepsToProject_of_not_returned ran (by simp)]
    simp
  | raised error =>
    have ran : (service.route episode).run (storeWorld engine) store = (.raised error, store) := by
      rw [route, ingestProse, cut]
      rfl
    rw [keepsToProject_of_not_returned ran (by simp)]
    simp
  | returned chunks =>
    have chunked : service.route episode = writeChunks service.runtime episode.episodeId
        (some (episodeMetaOf episode)) chunks := by
      rw [route, ingestProse, cut]
      rfl
    by_cases valid : validPart episode.projectId = true
    · have ran : (service.route episode).run (storeWorld engine) store =
          (.returned (), storeChunks service.runtime episode.episodeId
            (some (episodeMetaOf episode)) chunks store) := by
        rw [chunked]
        exact run_writeChunks _ _ _ valid (projects_of_chunksOf cut) store
      rw [keepsToProject_of_returned ran]
      refine iff_of_true ⟨?_, Or.inl valid⟩ (Or.inl (Or.inl valid))
      rintro place ⟨value, stored, changed⟩
      rcases lookup_storeChunks_cases stored with ⟨chunk, member, rfl, _⟩ | ⟨kept, _⟩
      · exact ⟨"chunk", by rw [chunkPlace, projects_of_chunksOf cut chunk member]⟩
      · exact absurd rfl (changed value kept)
    · have invalid : validPart episode.projectId = false := by simpa using valid
      cases chunks with
      | nil =>
        have ran : (service.route episode).run (storeWorld engine) store =
            (.returned (), store) := by
          rw [chunked]
          rfl
        rw [keepsToProject_of_returned ran]
        simp [not_changed_self]
      | cons chunk rest =>
        obtain ⟨namespaceParts, invalidParts, refused⟩ := @run_writeChunks_of_invalid
          service.runtime episode.episodeId (some (episodeMetaOf episode)) engine
          episode.projectId (chunk :: rest) invalid (projects_of_chunksOf cut) (by simp) store
        rw [← chunked] at refused
        rw [keepsToProject_of_not_returned refused (by simp)]
        simp [PyError.parked]

end

/-- An ingest keeps to the envelope's project exactly when the episode is confined to it, whatever
its content format. -/
theorem keepsToProject_iff_confined (service : RelayService) (engine : SearchEngine)
    (episode : MemoryEpisodeV1) (store : Store)
    (room : store.keys.card < forwardPage * service.writer.pages) :
    KeepsToProject service engine episode store ↔ Confined service episode store := by
  unfold Confined
  by_cases json : episode.contentFormat = "json"
  · have notProse : ¬IsProse episode := by simp [IsProse, json]
    rw [keepsToProject_iff_of_json json room]
    simp [json, notProse]
  · by_cases prose : IsProse episode
    · rw [keepsToProject_iff_of_prose prose]
      simp [json, prose]
    · have ran : (service.route episode).run (storeWorld engine) store =
          (.raised (unrecognizedFormat episode.contentFormat), store) := by
        rw [route_of_other json prose, run_lift_error]
      rw [keepsToProject_of_not_returned ran (by simp)]
      simp [json, prose, unrecognizedFormat, PyError.parked]

/-! ### Bodies of two projects -/

section Sample

/-- The parse of the bodies below, and the keys of their records. -/
def bodyRuntime : Runtime :=
  .ofTables
    [("adr:a:D", "0481893c-9fee-56d5-81ba-e98f22f80986"),
      ("adr:b:D", "3608c957-3ff7-5c22-8417-d71a18469a1e")] []
    [(bodyOf "a", parsedBody "a"), (bodyOf "b", parsedBody "b")]
where
  bodyOf (project : String) : String :=
    "\x7b\"project\": \"" ++ project ++ "\", \"identifier\": \"D\", \"source_ref\": \"s\", " ++
      "\"decision\": \"d\", \"status\": \"accepted\"\x7d"
  parsedBody (project : String) : PyValue :=
    .dict [("project", .str project), ("identifier", .str "D"), ("source_ref", .str "s"),
      ("decision", .str "d"), ("status", .str "accepted")]

def bodyService : RelayService where
  writer := ⟨bodyRuntime, 1⟩
  settings := ⟨1000, ⟨"0.15"⟩⟩

/-- An envelope of project `a` around a body of the given project. -/
def envelopeOfA (project : String) : MemoryEpisodeV1 where
  episodeId := "e"
  projectId := "a"
  episodeType := "adr"
  contentFormat := "json"
  body := bodyRuntime.bodyOf project
  payloadType := some "adr"

theorem payloadOf_of_project {episode : MemoryEpisodeV1} {project : String}
    (built : ((bodyService.payloadOf episode).toOption.map fun payload => payload.project) =
      some project) :
    ∃ payload, bodyService.payloadOf episode = .ok payload ∧ payload.project = project := by
  cases parsed : bodyService.payloadOf episode with
  | error error => simp [parsed, Except.toOption] at built
  | ok payload => exact ⟨payload, rfl, by simpa [parsed, Except.toOption] using built⟩

/-- A body of the envelope's project. -/
theorem keepsToProject_own_body :
    (∅ : Store).keys.card < forwardPage * bodyService.writer.pages ∧
      KeepsToProject bodyService plainEngine (envelopeOfA "a") ∅ := by
  refine ⟨by decide, (keepsToProject_iff_confined bodyService plainEngine (envelopeOfA "a") ∅
    (by decide)).mpr ⟨fun _ => ?_, fun prose => ?_⟩⟩
  · obtain ⟨payload, built, own⟩ := @payloadOf_of_project (envelopeOfA "a") "a" (by decide)
    rw [JsonConfined, built]
    exact Or.inr (Or.inl own)
  · exact absurd prose (by simp [IsProse, envelopeOfA])

/-- A body of another project is written there. -/
theorem not_keepsToProject_foreign_body :
    ¬KeepsToProject bodyService plainEngine (envelopeOfA "b") ∅ := by
  rw [keepsToProject_iff_of_json rfl (by decide)]
  obtain ⟨payload, built, foreign⟩ := @payloadOf_of_project (envelopeOfA "b") "b" (by decide)
  rw [JsonConfined, built]
  dsimp only
  rw [foreign]
  rintro (invalid | same | ⟨kept, _⟩)
  · exact absurd invalid (by decide)
  · exact absurd same (by decide)
  · exact kept (by simp [Puts])

end Sample

end FleetMemory
