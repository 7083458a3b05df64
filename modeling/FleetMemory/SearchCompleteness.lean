/-
This file says when a search hides one record behind another. Typed records and chunks take their
keys from different texts in one namespace of UUIDs, and the search drops a row whose key it has
seen. Rows that fit into one answer are all returned exactly when no chunk among them has a typed
record's natural key for its episode and index.
-/

import FleetMemory.RelayService
import FleetMemory.SearchTies
import FleetMemory.SearchTools
import FleetMemory.SupersessionInvariant
import FleetMemory.SustainedWrites
import FleetMemory.Transitions

namespace FleetMemory

open StoreProgram DeterministicWriter Gather Transitions

/-! ### Runs of both writers -/

/-- A call of one of the writers. -/
inductive MemoryCall where
  | write (payload : Payload) (episodeMeta : Option EpisodeMeta)
  | writeChunks (episodeId : String) (chunks : List Chunk) (episodeMeta : Option EpisodeMeta)

/-- The store calls it makes. -/
def MemoryCall.program (writer : DeterministicWriter) : MemoryCall → StoreM Unit
  | .write payload episodeMeta => writer.write payload episodeMeta
  | .writeChunks episodeId chunks episodeMeta =>
    FleetMemory.writeChunks writer.runtime episodeId episodeMeta chunks

/-- A call leaves a store, whichever of its store calls fail. -/
def MemoryStep (writer : DeterministicWriter) (before : Store) (call : MemoryCall)
    (after : Store) : Prop :=
  ∃ engine faults,
    after = ((call.program writer).runFaulty (storeWorld engine) faults before).2

/-! ### Where records stand -/

/-- A record stands where one of the writers puts it. -/
inductive Filed (runtime : Runtime) (place : Place) (value : StoredValue) : Prop where
  | typed (naturalKey : String) (named : value.naturalKey = some naturalKey)
      (episode : value.episodeId = none) (here : keyPlace runtime naturalKey = some place)
  | chunk (episodeId project : String) (index : Nat) (named : value.naturalKey = none)
      (episode : value.episodeId = some episodeId) (indexed : value.chunkIndex = some index)
      (here : place = chunkPlace runtime episodeId project index)

/-- Every record stands where one of the writers puts it. -/
def AllFiled (runtime : Runtime) (store : Store) : Prop :=
  ∀ place value, store.lookup place = some value → Filed runtime place value

/-- The text a record's key is made of. -/
def keySeed (value : StoredValue) : String :=
  match value.naturalKey with
  | some naturalKey => naturalKey
  | none => value.episodeId.getD "" ++ ":" ++ toString (value.chunkIndex.getD 0)

section

variable {runtime : Runtime} {writer : DeterministicWriter} {engine : SearchEngine} {store : Store}
  {place : Place} {value : StoredValue}

theorem Filed.markedBy (filed : Filed runtime place value) (successor : String) :
    Filed runtime place (value.markedBy successor) := by
  cases filed with
  | typed naturalKey named episode here => exact .typed naturalKey named episode here
  | chunk episodeId project index named episode indexed here =>
    exact .chunk episodeId project index named episode indexed here

theorem Filed.markFound (filed : Filed runtime place value) (found : Option String) :
    Filed runtime place (markFound value found) := by
  unfold FleetMemory.markFound
  split
  · split
    · exact filed
    · exact filed.markedBy _
  · exact filed

theorem allFiled_empty : AllFiled runtime ∅ := by
  intro place value stored
  cases stored

theorem AllFiled.insert (filed : AllFiled runtime store) (here : Filed runtime place value) :
    AllFiled runtime (store.insert place value) := by
  intro other found stored
  rw [lookup_insert] at stored
  split at stored
  · rename_i same
    rw [same, ← Option.some.inj stored]
    exact here
  · exact filed other found stored

theorem keptByWrite_allFiled (payload : Payload) :
    KeptByWrite writer payload (AllFiled writer.runtime) where
  put store version episodeMeta found filed := by
    refine filed.insert (Filed.markFound ?_ found)
    exact .typed payload.naturalKey rfl rfl (keyPlace_naturalKey payload)
  mark store place value filed stored :=
    filed.insert ((filed place value stored).markedBy payload.naturalKey)

/-- Whichever puts fail, a chunk writer files what it stores. -/
theorem sustains_writeChunks (episodeId : String) (chunks : List Chunk)
    (episodeMeta : Option EpisodeMeta) (filed : AllFiled runtime store) :
    (writeChunks runtime episodeId episodeMeta chunks).Sustains (storeWorld engine)
      (AllFiled runtime) store := by
  induction chunks generalizing store with
  | nil => trivial
  | cons chunk rest inductionHypothesis =>
    rw [writeChunks]
    cases validateNamespace ["fleet_memory", chunk.project, "chunk"] with
    | error error => trivial
    | ok done =>
      rw [lift_ok_bind]
      have here : Filed runtime (chunkPlace runtime episodeId chunk.project chunk.index)
          (chunkValue episodeId episodeMeta chunk) :=
        .chunk episodeId chunk.project chunk.index rfl rfl rfl rfl
      exact Program.sustains_put_bind (filed.insert here) (inductionHypothesis (filed.insert here))

/-- Every call of the writers keeps the records filed. -/
theorem allFiled_step {before after : Store} {call : MemoryCall}
    (filed : AllFiled writer.runtime before) (step : MemoryStep writer before call after) :
    AllFiled writer.runtime after := by
  obtain ⟨engine, faults, rfl⟩ := step
  cases call with
  | write payload episodeMeta =>
    exact Program.runFaulty_of_sustains
      (sustains_write (keptByWrite_allFiled payload) episodeMeta filed) filed faults
  | writeChunks episodeId chunks episodeMeta =>
    exact Program.runFaulty_of_sustains
      (sustains_writeChunks episodeId chunks episodeMeta filed) filed faults

/-- Every store the writers build has its records filed. -/
theorem allFiled_of_run {calls : List MemoryCall} (run : Run (MemoryStep writer) ∅ calls store) :
    AllFiled writer.runtime store :=
  run.invariant (AllFiled writer.runtime) allFiled_empty fun _ _ _ => allFiled_step

/-- A record's key is made of its seed. -/
theorem Filed.key_eq (filed : Filed runtime place value) :
    place.key = runtime.uuid5 (keySeed value) := by
  cases filed with
  | typed naturalKey named _ here =>
    rw [key_of_keyPlace here, keySeed, named]
    rfl
  | chunk episodeId project index named episode indexed here =>
    rw [here, keySeed, named, episode, indexed]
    rfl

/-- Two records of one project and one kind with the same seed stand at one place. -/
theorem Filed.place_eq {other : Place} {otherValue : StoredValue}
    (filed : Filed runtime place value) (otherFiled : Filed runtime other otherValue)
    (sameProject : place.namespaceParts[1]? = other.namespaceParts[1]?)
    (kind : value.naturalKey.isSome = otherValue.naturalKey.isSome)
    (same : keySeed value = keySeed otherValue) : place = other := by
  cases filed with
  | typed naturalKey named _ here =>
    cases otherFiled with
    | typed otherKey otherNamed _ otherHere =>
      rw [keySeed, keySeed, named, otherNamed] at same
      have keys : naturalKey = otherKey := same
      rw [keys, otherHere] at here
      exact (Option.some.inj here).symm
    | chunk _ _ _ otherNamed =>
      rw [named, otherNamed] at kind
      cases kind
  | chunk episodeId project index named episode indexed here =>
    cases otherFiled with
    | typed _ otherNamed =>
      rw [named, otherNamed] at kind
      cases kind
    | chunk otherId otherProject otherIndex otherNamed otherEpisode otherIndexed otherHere =>
      rw [keySeed, keySeed, named, otherNamed, episode, otherEpisode, indexed, otherIndexed] at same
      obtain ⟨rfl, rfl⟩ := @Text.append_numeral_injective ':' (by decide) episodeId otherId index
        otherIndex same
      subst here otherHere
      obtain rfl : project = otherProject := by simpa [chunkPlace] using sameProject
      rfl

end

/-! ### What a search returns -/

section

variable {writer : DeterministicWriter} {engine : SearchEngine} {store : Store}
  {request : SearchRequest}

/-- The rows that pass the filters of a search, in its partitions. -/
def passingRows (runtime : Runtime) (engine : SearchEngine) (store : Store)
    (request : SearchRequest) : List Item :=
  Rules.acceptedRows (passes runtime request) (partitions request)
    (partitionRows engine store request)

/-- The search returns every row that passes, and none of them is taken for another that stands
elsewhere. -/
def HidesNothing (runtime : Runtime) (engine : SearchEngine) (store : Store)
    (request : SearchRequest) : Prop :=
  (∃ items, (search runtime request).run (storeWorld engine) store = (.returned items, store) ∧
      ∀ item ∈ passingRows runtime engine store request, item ∈ items) ∧
    ∀ first ∈ passingRows runtime engine store request,
      ∀ second ∈ passingRows runtime engine store request,
        first.place ≠ second.place → first.key ≠ second.key

/-- No row of a chunk has a typed row's natural key for its episode and index. -/
def SeedsApart (rows : List Item) : Prop :=
  ∀ typed ∈ rows, ∀ chunk ∈ rows, ∀ naturalKey episodeId index,
    typed.value.naturalKey = some naturalKey → chunk.value.episodeId = some episodeId →
      chunk.value.chunkIndex = some index → naturalKey ≠ episodeId ++ ":" ++ toString index

theorem mem_passingRows {runtime : Runtime} {item : Item} :
    item ∈ passingRows runtime engine store request ↔ ∃ payloadType ∈ partitions request,
      item ∈ partitionRows engine store request payloadType ∧
        passes runtime request payloadType item = true := by
  rw [passingRows, Rules.acceptedRows, List.mem_flatMap]
  simp only [List.mem_filter]

/-- A row that passes is stored, in the project of the request. -/
theorem stored_of_mem_passingRows {runtime : Runtime} {item : Item}
    (passing : item ∈ passingRows runtime engine store request) :
    store.lookup item.place = some item.value ∧
      item.place.namespaceParts[1]? = some request.project := by
  obtain ⟨payloadType, -, listed, passed⟩ := mem_passingRows.mp passing
  refine ⟨(stored_of_mem_partitionRows listed).1, ?_⟩
  simp only [passes, Bool.and_eq_true, matchesProject, beq_iff_eq] at passed
  exact passed.1.1.1.1

theorem eq_of_passing_place {runtime : Runtime} {first second : Item}
    (firstPassing : first ∈ passingRows runtime engine store request)
    (secondPassing : second ∈ passingRows runtime engine store request)
    (same : first.place = second.place) : first = second := by
  obtain ⟨firstType, firstIn, firstListed, firstPassed⟩ := mem_passingRows.mp firstPassing
  obtain ⟨secondType, secondIn, secondListed, secondPassed⟩ := mem_passingRows.mp secondPassing
  exact eq_of_place_eq firstIn secondIn firstListed secondListed firstPassed secondPassed same

/-- Rows that fit into one answer are all returned exactly when no two of them share a key. -/
theorem hidesNothing_iff_keys (runtime : Runtime)
    (scanned : ∀ payloadType ∈ partitions request,
      (partitionRows engine store request payloadType).length ≤ maxScannedPerPartition)
    (few : (passingRows runtime engine store request).length ≤ rankedResultLimit) :
    HidesNothing runtime engine store request ↔
      ∀ first ∈ passingRows runtime engine store request,
        ∀ second ∈ passingRows runtime engine store request,
          first.key = second.key → first = second := by
  have complete : ∀ payloadType ∈ partitions request,
      ¬Incomplete runtime request payloadType (partitionRows engine store request payloadType) :=
    fun payloadType inside incomplete => absurd incomplete.2.1 (scanned payloadType inside).not_gt
  have returned := run_search_of_complete complete
  have merged := @Rules.best_merge_complete_iff Item String ℚ _ searchRules _
    (passes runtime request) (partitions request) (partitionRows engine store request) sortsBefore
    rankedResultLimit scanned few few
  constructor
  · rintro ⟨⟨items, same, all⟩, -⟩
    rw [returned] at same
    obtain rfl := Outcome.returned.inj (Prod.mk.inj same).1
    exact merged.mp all
  · intro apart
    refine ⟨⟨_, returned, merged.mpr apart⟩, fun first firstIn second secondIn elsewhere same => ?_⟩
    exact elsewhere (congrArg Item.place (apart first firstIn second secondIn same))

/-- A search of any store the writers build, whose partitions it can scan whole and whose rows fit
into one answer, hides nothing exactly when no chunk among the rows has a typed record's natural key
for its episode and index. -/
theorem search_hidesNothing_iff (writer : DeterministicWriter) (engine : SearchEngine)
    (calls : List MemoryCall) (store : Store) (request : SearchRequest)
    (injective : Function.Injective writer.runtime.uuid5)
    (run : Run (MemoryStep writer) ∅ calls store)
    (scanned : ∀ payloadType ∈ partitions request,
      (partitionRows engine store request payloadType).length ≤ maxScannedPerPartition)
    (few : (passingRows writer.runtime engine store request).length ≤ rankedResultLimit) :
    HidesNothing writer.runtime engine store request ↔
      SeedsApart (passingRows writer.runtime engine store request) := by
  have filed := allFiled_of_run run
  have filedAt {item : Item} (passing : item ∈ passingRows writer.runtime engine store request) :
      Filed writer.runtime item.place item.value :=
    filed _ _ (stored_of_mem_passingRows passing).1
  rw [hidesNothing_iff_keys writer.runtime scanned few]
  constructor
  · intro apart typed typedIn chunk chunkIn naturalKey episodeId index named episode indexed same
    cases filedAt chunkIn with
    | typed _ _ none_episode =>
      rw [none_episode] at episode
      cases episode
    | chunk _ _ _ unnamed =>
      have seeds : keySeed typed.value = keySeed chunk.value := by
        rw [keySeed, keySeed, named, unnamed, episode, indexed]
        exact same
      have keys : typed.key = chunk.key :=
        (filedAt typedIn).key_eq.trans (seeds ▸ (filedAt chunkIn).key_eq.symm)
      obtain rfl := apart typed typedIn chunk chunkIn keys
      rw [named] at unnamed
      cases unnamed
  · intro seeds first firstIn second secondIn same
    have sameSeed : keySeed first.value = keySeed second.value :=
      injective ((filedAt firstIn).key_eq.symm.trans (same.trans (filedAt secondIn).key_eq))
    have sameProject : first.place.namespaceParts[1]? = second.place.namespaceParts[1]? :=
      (stored_of_mem_passingRows firstIn).2.trans (stored_of_mem_passingRows secondIn).2.symm
    have placed (kind : first.value.naturalKey.isSome = second.value.naturalKey.isSome) :
        first = second :=
      eq_of_passing_place firstIn secondIn
        ((filedAt firstIn).place_eq (filedAt secondIn) sameProject kind sameSeed)
    cases filedAt firstIn with
    | typed naturalKey named =>
      cases filedAt secondIn with
      | typed _ otherNamed => exact placed (by rw [named, otherNamed]; rfl)
      | chunk episodeId _ index otherNamed episode indexed =>
        refine absurd ?_ (seeds first firstIn second secondIn naturalKey episodeId index named episode
          indexed)
        rw [keySeed, keySeed, named, otherNamed, episode, indexed] at sameSeed
        exact sameSeed
    | chunk episodeId _ index named episode indexed =>
      cases filedAt secondIn with
      | typed naturalKey otherNamed =>
        refine absurd ?_ (seeds second secondIn first firstIn naturalKey episodeId index otherNamed
          episode indexed)
        rw [keySeed, keySeed, named, otherNamed, episode, indexed] at sameSeed
        exact sameSeed.symm
      | chunk _ _ _ otherNamed => exact placed (by rw [named, otherNamed])

end

/-! ### A chunk with a typed record's natural key -/

section Sample

def seedWriter : DeterministicWriter :=
  ⟨shelfRuntime, 1⟩

/-- A decision whose natural key is `adr:a:0`. -/
def numberedDecision : Payload where
  toPayloadFields := adrFields "a" "0" "d" []
  valid := ⟨by decide, by decide, by decide, by decide, by decide, by decide⟩

/-- The first chunk of an episode that is named `adr:a`. -/
def firstChunk : Chunk where
  index := 0
  text := "t"
  sourceRef := none
  project := "a"

def decisionPlace : Place :=
  seedWriter.recordPlace numberedDecision

def decisionRecord : StoredValue :=
  storedValue numberedDecision (contentHash shelfRuntime numberedDecision) 1 none

def firstChunkPlace : Place :=
  chunkPlace shelfRuntime "adr:a" "a" 0

def seedCalls : List MemoryCall :=
  [.write numberedDecision none, .writeChunks "adr:a" [firstChunk] none]

/-- The store that holds both. -/
def seedStore : Store :=
  ((∅ : Store).insert decisionPlace decisionRecord).insert firstChunkPlace
    (chunkValue "adr:a" none firstChunk)

/-- A search of the whole project. -/
def projectRequest : SearchRequest :=
  { project := "a", query := some "q", tokenBudget := 1000 }

theorem run_seedCalls : Run (MemoryStep seedWriter) ∅ seedCalls seedStore := by
  have writes : MemoryStep seedWriter ∅ (.write numberedDecision none)
      ((∅ : Store).insert decisionPlace decisionRecord) := by
    refine ⟨shelfEngine, [], ?_⟩
    rw [MemoryCall.program, Program.runFaulty_nil, run_write_of_accepts ⟨by decide, by decide⟩
      ((length_ranking_le _ _ _).trans_lt (by decide)), written, upserted,
      if_pos (puts_empty _ _), putValue, successorOf_eq_none fun place value stored _ => by cases stored]
    rfl
  refine (Run.single writes).append (Run.single ⟨shelfEngine, [], ?_⟩)
  rw [MemoryCall.program, Program.runFaulty_nil,
    @run_writeChunks seedWriter.runtime "adr:a" none shelfEngine "a" [firstChunk] (by decide)
      (by simp [firstChunk])]
  rfl

theorem card_keys_seedStore : seedStore.keys.card ≤ 2 :=
  (card_keys_insert_le _ _ _).trans (Nat.succ_le_succ (card_keys_insert_le _ _ _))

theorem length_partitionRows_seedStore (payloadType : Option String) :
    (partitionRows shelfEngine seedStore projectRequest payloadType).length ≤ 2 :=
  (length_ranking_le _ _ _).trans card_keys_seedStore

theorem length_passingRows_seedStore :
    (passingRows shelfRuntime shelfEngine seedStore projectRequest).length ≤ 2 := by
  rw [passingRows, Rules.acceptedRows, show partitions projectRequest = [none] from rfl,
    List.flatMap_singleton]
  exact (List.length_filter_le _ _).trans (length_partitionRows_seedStore none)

/-- Both records pass the filters of the search. -/
theorem mem_passingRows_seedStore :
    ⟨decisionPlace, decisionRecord, none⟩ ∈
        passingRows shelfRuntime shelfEngine seedStore projectRequest ∧
      ⟨firstChunkPlace, chunkValue "adr:a" none firstChunk, none⟩ ∈
        passingRows shelfRuntime shelfEngine seedStore projectRequest := by
  have apart : decisionPlace ≠ firstChunkPlace := by decide
  refine ⟨mem_passingRows.mpr ⟨none, List.mem_singleton_self _, (shelfEngine.mem_ranking _ _ _).mpr
      ⟨?_, by decide +kernel, rfl⟩, by decide +kernel⟩,
    mem_passingRows.mpr ⟨none, List.mem_singleton_self _, (shelfEngine.mem_ranking _ _ _).mpr
      ⟨?_, by decide +kernel, rfl⟩, by decide +kernel⟩⟩
  · rw [seedStore, lookup_insert, if_neg apart, lookup_insert_self]
  · rw [seedStore, lookup_insert_self]

/-- Whether a search of the project hides one of the two records. -/
theorem search_hidesNothing_iff_seeds :
    HidesNothing shelfRuntime shelfEngine seedStore projectRequest ↔
      SeedsApart (passingRows shelfRuntime shelfEngine seedStore projectRequest) :=
  search_hidesNothing_iff seedWriter shelfEngine seedCalls seedStore projectRequest
    (fun _ _ same => same) run_seedCalls
    (fun payloadType _ => (length_partitionRows_seedStore payloadType).trans (by decide))
    (length_passingRows_seedStore.trans (by decide))

/-- The two records share a key, and a search of the project returns one of them. -/
theorem search_hides_one_of_two :
    projectRequest.validate = .ok projectRequest ∧
      Function.Injective seedWriter.runtime.uuid5 ∧
      Run (MemoryStep seedWriter) ∅ seedCalls seedStore ∧
      (∀ payloadType ∈ partitions projectRequest,
        (partitionRows shelfEngine seedStore projectRequest payloadType).length ≤
          maxScannedPerPartition) ∧
      (passingRows seedWriter.runtime shelfEngine seedStore projectRequest).length ≤
        rankedResultLimit ∧
      ¬HidesNothing seedWriter.runtime shelfEngine seedStore projectRequest := by
  refine ⟨rfl, fun _ _ same => same, run_seedCalls,
    fun payloadType _ => (length_partitionRows_seedStore payloadType).trans (by decide),
    length_passingRows_seedStore.trans (by decide), fun hides => ?_⟩
  obtain ⟨decision, chunk⟩ := mem_passingRows_seedStore
  have different : decisionPlace ≠ firstChunkPlace := by decide
  exact hides.2 _ decision _ chunk different (by decide)

end Sample

end FleetMemory
