/-
This file proves what a sequence of prose ingests of one episode leaves. After a call that
returns, the indices below its number of chunks hold exactly its chunks. Nothing is
deleted: an index from that number on still holds the chunk an earlier call stored there,
so the last chunk set stands alone exactly when no earlier call stored more.
-/

import FleetMemory.PrefixEngine
import FleetMemory.RelayService

namespace FleetMemory

open StoreProgram RelayService

/-! ### The chunks a writer leaves -/

section

variable {runtime : Runtime} {episodeId : String} {episodeMeta : Option EpisodeMeta}
  {chunks : List Chunk} {store : Store} {place : Place} {value : StoredValue}

/-- A record after chunks were stored is one of them, or stood there and was not overwritten. -/
theorem lookup_storeChunks_cases
    (stored : (storeChunks runtime episodeId episodeMeta chunks store).lookup place = some value) :
    (∃ chunk ∈ chunks, place = chunkPlace runtime episodeId chunk.project chunk.index ∧
        value = chunkValue episodeId episodeMeta chunk) ∨
      (store.lookup place = some value ∧
        ∀ chunk ∈ chunks, place ≠ chunkPlace runtime episodeId chunk.project chunk.index) := by
  induction chunks generalizing store with
  | nil => exact Or.inr ⟨stored, by simp⟩
  | cons chunk rest inductionHypothesis =>
    rcases inductionHypothesis stored with ⟨later, member, here⟩ | ⟨kept, elsewhere⟩
    · exact Or.inl ⟨later, List.mem_cons_of_mem _ member, here⟩
    · rw [storeChunk, lookup_insert] at kept
      split at kept
      · rename_i here
        exact Or.inl ⟨chunk, List.mem_cons_self, here, (Option.some.inj kept).symm⟩
      · rename_i apart
        exact Or.inr ⟨kept, List.forall_mem_cons.mpr ⟨apart, elsewhere⟩⟩

/-- Storing chunks keeps every place filled. -/
theorem lookup_storeChunks_isSome (filled : (store.lookup place).isSome) :
    ((storeChunks runtime episodeId episodeMeta chunks store).lookup place).isSome := by
  induction chunks generalizing store with
  | nil => exact filled
  | cons chunk rest inductionHypothesis =>
    refine inductionHypothesis ?_
    rw [storeChunk, lookup_insert]
    split
    · rfl
    · exact filled

variable (runtime episodeId episodeMeta store) in
/-- Every stored chunk's place is filled. -/
theorem lookup_storeChunks_mem {chunk : Chunk} (member : chunk ∈ chunks) :
    ((storeChunks runtime episodeId episodeMeta chunks store).lookup
      (chunkPlace runtime episodeId chunk.project chunk.index)).isSome := by
  obtain ⟨before, after, rfl⟩ := List.append_of_mem member
  rw [storeChunks, List.foldl_append, List.foldl_cons]
  refine lookup_storeChunks_isSome ?_
  rw [storeChunk, lookup_insert_self]
  rfl

/-- The chunks of an episode have distinct keys. -/
def DistinctKeys (runtime : Runtime) (episodeId : String) : Prop :=
  ∀ first second : Nat, runtime.uuid5 (episodeId ++ ":" ++ toString first) =
    runtime.uuid5 (episodeId ++ ":" ++ toString second) → first = second

/-- Each index of the stored chunks holds its chunk. -/
theorem lookup_storeChunks_index {sourceRef : Option String} {project : String} {index : Nat}
    {chunk : Chunk} (keys : DistinctKeys runtime episodeId)
    (numbered : Numbered sourceRef project chunks) (found : chunks[index]? = some chunk) :
    (storeChunks runtime episodeId episodeMeta chunks store).lookup
      (chunkPlace runtime episodeId project index) =
        some (chunkValue episodeId episodeMeta chunk) := by
  obtain ⟨here, _, inProject⟩ := numbered index chunk found
  have filled := lookup_storeChunks_mem runtime episodeId episodeMeta store
    (List.mem_of_getElem? found)
  rw [here, inProject] at filled
  obtain ⟨value, stored⟩ := Option.isSome_iff_exists.mp filled
  rcases lookup_storeChunks_cases stored with ⟨other, member, same, rfl⟩ | ⟨_, elsewhere⟩
  · obtain ⟨position, foundOther⟩ := List.getElem?_of_mem member
    have places := (numbered position other foundOther).1
    have equal : index = other.index := keys _ _ (congrArg Place.key same)
    rw [equal, places, foundOther] at found
    rw [stored, Option.some.inj found]
  · have apart := elsewhere chunk (List.mem_of_getElem? found)
    rw [here, inProject] at apart
    exact absurd rfl apart

end

/-! ### Calls of one episode -/

/-- A call of `ingest` for a prose episode: the chunk settings in force, the envelope, and the
calls to the store that fail. -/
structure ProseCall where
  settings : ChunkSettings
  episode : MemoryEpisodeV1
  faults : List (Option PyError)

namespace ProseCall

/-- How the call ends, and the store it leaves. -/
def ingest (writer : DeterministicWriter) (engine : SearchEngine) (call : ProseCall)
    (store : Store) : Outcome PyError Unit × Store :=
  (RelayService.ingest ⟨writer, call.settings⟩ call.episode).runFaulty (storeWorld engine)
    call.faults store

/-- The chunks of the call's body. -/
def chunks (writer : DeterministicWriter) (call : ProseCall) : Outcome PyError (List Chunk) :=
  chunksOf ⟨writer, call.settings⟩ call.episode

/-- The record the call stores for a chunk. -/
def record (call : ProseCall) (chunk : Chunk) : StoredValue :=
  chunkValue call.episode.episodeId (some (episodeMetaOf call.episode)) chunk

/-- The call is for a prose episode of the given id and project. -/
def IsOf (episodeId project : String) (call : ProseCall) : Prop :=
  IsProse call.episode ∧ call.episode.episodeId = episodeId ∧ call.episode.projectId = project

end ProseCall

/-- The store a sequence of calls leaves. -/
def afterCalls (writer : DeterministicWriter) (engine : SearchEngine) (calls : List ProseCall)
    (store : Store) : Store :=
  calls.foldl (fun state call => (call.ingest writer engine state).2) store

section

variable {writer : DeterministicWriter} {engine : SearchEngine} {episodeId project : String}
  {call : ProseCall} {store : Store}

variable (writer engine store) in
/-- A call stores a prefix of its chunks, and all of them when it returns. -/
theorem ingest_of_prose (valid : validPart project = true) (isOf : call.IsOf episodeId project) :
    ∃ stored, (call.ingest writer engine store).2 =
        storeChunks writer.runtime episodeId (some (episodeMetaOf call.episode)) stored store ∧
      (stored = [] ∨ ∃ chunks, call.chunks writer = .returned chunks ∧ stored <+: chunks) ∧
      ((call.ingest writer engine store).1 = .returned () →
        call.chunks writer = .returned stored) := by
  obtain ⟨prose, rfl, rfl⟩ := isOf
  rw [ProseCall.ingest, runFaulty_ingest, route_of_prose prose, ingestProse]
  cases cut : call.chunks writer with
  | returned chunks =>
    rw [show chunksOf _ _ = _ from cut]
    obtain ⟨stored, shorter, left, complete⟩ := runFaulty_writeChunks writer.runtime
      call.episode.episodeId (some (episodeMetaOf call.episode)) valid (projects_of_chunksOf cut)
      call.faults store
    refine ⟨stored, left, Or.inr ⟨chunks, rfl, shorter⟩, fun returned => ?_⟩
    rw [complete (Outcome.mapFault_eq_returned.mp returned)]
  | raised fault =>
    rw [show chunksOf _ _ = _ from cut]
    refine ⟨[], rfl, Or.inl rfl, ?_⟩
    rintro ⟨⟩
  | hung =>
    rw [show chunksOf _ _ = _ from cut]
    refine ⟨[], rfl, Or.inl rfl, ?_⟩
    rintro ⟨⟩

theorem numbered_chunks {chunks : List Chunk} (cut : call.chunks writer = .returned chunks) :
    Numbered call.episode.sourceRef call.episode.projectId chunks :=
  numbered_chunkProse cut

/-- A call whose store calls succeed returns when its body can be chunked. -/
theorem ingest_returned {chunks : List Chunk} (valid : validPart project = true)
    (isOf : call.IsOf episodeId project) (cut : call.chunks writer = .returned chunks)
    (faultless : call.faults = []) : (call.ingest writer engine store).1 = .returned () := by
  obtain ⟨prose, rfl, rfl⟩ := isOf
  rw [ProseCall.ingest, faultless, Program.runFaulty_nil, run_ingest, route_of_prose prose,
    ingestProse, show chunksOf _ _ = _ from cut]
  exact Outcome.mapFault_eq_returned.mpr (congrArg Prod.fst
    (run_writeChunks _ _ _ valid (projects_of_chunksOf cut) store))

/-- The record is a chunk of the call's body. -/
def ProseCall.Cuts (writer : DeterministicWriter) (episodeId project : String) (place : Place)
    (value : StoredValue) (index : Nat) (call : ProseCall) : Prop :=
  ∃ chunks chunk, call.chunks writer = .returned chunks ∧ chunks[index]? = some chunk ∧
    place = chunkPlace writer.runtime episodeId project index ∧ value = call.record chunk

/-- A record after a call stood there before it, or is a chunk of the call's body. -/
theorem lookup_ingest_cases {place : Place} {value : StoredValue}
    (valid : validPart project = true) (isOf : call.IsOf episodeId project)
    (stored : (call.ingest writer engine store).2.lookup place = some value) :
    store.lookup place = some value ∨
      ∃ index, call.Cuts writer episodeId project place value index := by
  obtain ⟨written, left, cut, _⟩ := ingest_of_prose writer engine store valid isOf
  rw [left] at stored
  rcases lookup_storeChunks_cases stored with ⟨chunk, member, here, record⟩ | ⟨kept, _⟩
  · rcases cut with rfl | ⟨chunks, returned, shorter⟩
    · cases member
    · obtain ⟨index, found⟩ := List.getElem?_of_mem (shorter.subset member)
      obtain ⟨position, _, inProject⟩ := numbered_chunks returned index chunk found
      rw [position, inProject, isOf.2.2] at here
      refine Or.inr ⟨index, chunks, chunk, returned, found, here, ?_⟩
      rw [record, ProseCall.record, isOf.2.1]
  · exact Or.inl kept

/-- A record after a sequence of calls stood there before it, or is a chunk of one of the calls'
bodies. -/
theorem lookup_afterCalls {calls : List ProseCall} {place : Place} {value : StoredValue}
    (valid : validPart project = true) (isOf : ∀ call ∈ calls, call.IsOf episodeId project)
    (stored : (afterCalls writer engine calls store).lookup place = some value) :
    store.lookup place = some value ∨
      ∃ call ∈ calls, ∃ index, call.Cuts writer episodeId project place value index := by
  induction calls generalizing store with
  | nil => exact Or.inl stored
  | cons call rest inductionHypothesis =>
    rcases inductionHypothesis (fun other member => isOf other (List.mem_cons_of_mem _ member))
      stored with after | ⟨later, member, cuts⟩
    · rcases lookup_ingest_cases valid (isOf call List.mem_cons_self) after with before | cuts
      · exact Or.inl before
      · exact Or.inr ⟨call, List.mem_cons_self, cuts⟩
    · exact Or.inr ⟨later, List.mem_cons_of_mem _ member, cuts⟩

end

/-- After a sequence of prose ingests of one episode whose last call returns, each index below the
number of the last body's chunks holds exactly its chunk. Any other chunk record of the episode is
at an index from that number on, as the earlier calls left it. -/
theorem lookup_after_last_prose_ingest (writer : DeterministicWriter) (engine : SearchEngine)
    (episodeId project : String) (calls : List ProseCall) (last : ProseCall) (initial : Store)
    (valid : validPart project = true) (keys : DistinctKeys writer.runtime episodeId)
    (isOf : ∀ call ∈ calls, call.IsOf episodeId project) (lastIsOf : last.IsOf episodeId project)
    (returned : (last.ingest writer engine (afterCalls writer engine calls initial)).1 =
      .returned ()) :
    ∃ chunks, last.chunks writer = .returned chunks ∧
      (∀ index chunk, chunks[index]? = some chunk →
        (last.ingest writer engine (afterCalls writer engine calls initial)).2.lookup
          (chunkPlace writer.runtime episodeId project index) = some (last.record chunk)) ∧
      ∀ place value, (last.ingest writer engine (afterCalls writer engine calls initial)).2.lookup
          place = some value → value.episodeId = some episodeId →
        (∃ index, last.Cuts writer episodeId project place value index) ∨
          (afterCalls writer engine calls initial).lookup place = some value ∧
            (∀ index < chunks.length, place ≠ chunkPlace writer.runtime episodeId project index) ∧
            (initial.lookup place = some value ∨ ∃ call ∈ calls, ∃ index,
              chunks.length ≤ index ∧ call.Cuts writer episodeId project place value index) := by
  obtain ⟨chunks, left, _, complete⟩ := ingest_of_prose writer engine
    (afterCalls writer engine calls initial) valid lastIsOf
  have cut := complete returned
  have numbered := numbered_chunks cut
  have inProject := projects_of_chunksOf cut
  rw [lastIsOf.2.2] at numbered inProject
  refine ⟨chunks, cut, ?_, ?_⟩
  · intro index chunk found
    rw [left, lookup_storeChunks_index keys numbered found, ProseCall.record, lastIsOf.2.1]
  · intro place value stored _
    rw [left] at stored
    rcases lookup_storeChunks_cases stored with ⟨chunk, member, here, record⟩ | ⟨kept, elsewhere⟩
    · left
      obtain ⟨index, found⟩ := List.getElem?_of_mem member
      rw [(numbered index chunk found).1, inProject chunk member] at here
      refine ⟨index, chunks, chunk, cut, found, here, ?_⟩
      rw [record, ProseCall.record, lastIsOf.2.1]
    · right
      have apart : ∀ index < chunks.length,
          place ≠ chunkPlace writer.runtime episodeId project index := by
        intro index inside
        have found := List.getElem?_eq_getElem inside
        have here := elsewhere _ (List.mem_of_getElem? found)
        rwa [(numbered index _ found).1, inProject _ (List.mem_of_getElem? found)] at here
      refine ⟨kept, apart, ?_⟩
      rcases lookup_afterCalls valid isOf kept with before | ⟨call, member, index, cuts⟩
      · exact Or.inl before
      · refine Or.inr ⟨call, member, index, ?_, cuts⟩
        obtain ⟨_, _, _, _, here, _⟩ := cuts
        by_contra inside
        exact apart index (not_le.mp inside) here

/-! ### Two bodies of one episode -/

section Sample

/-- The keys of the first two chunks of episode `e`. -/
def chunkRuntime : Runtime :=
  .ofTables
    [("e:0", "06548032-7d47-563a-9e5f-31e91800a91b"),
      ("e:1", "77c30bfa-d817-5696-9a40-8a124feb00df")] [] []

def chunkingWriter : DeterministicWriter where
  runtime := chunkRuntime
  pages := 1

def plainEngine : SearchEngine :=
  prefixEngine fun _ _ _ => none

/-- A call for a text of episode `e` of project `a`, cut every two tokens. -/
def textCall (body : String) (faults : List (Option PyError)) : ProseCall where
  settings := ⟨2, ⟨"0.0"⟩⟩
  episode := { episodeId := "e", projectId := "a", episodeType := "document",
               contentFormat := "text", body }
  faults := faults

theorem isOf_textCall (body : String) (faults : List (Option PyError)) :
    (textCall body faults).IsOf "e" "a" :=
  ⟨Or.inr rfl, rfl, rfl⟩

theorem chunks_longer (faults : List (Option PyError)) :
    (textCall "a1b2" faults).chunks chunkingWriter =
      .returned [⟨0, "a1", none, "a"⟩, ⟨1, "b2", none, "a"⟩] :=
  Outcome.returned?_eq_some.mp (show ((textCall "a1b2" []).chunks chunkingWriter).returned? =
    some [⟨0, "a1", none, "a"⟩, ⟨1, "b2", none, "a"⟩] by decide)

theorem chunks_shorter :
    (textCall "c3" []).chunks chunkingWriter = .returned [⟨0, "c3", none, "a"⟩] :=
  Outcome.returned?_eq_some.mp (by decide)

/-- The seeds of an episode's chunk keys are distinct. -/
theorem seed_injective {episodeId : String} {first second : Nat}
    (same : episodeId ++ ":" ++ toString first = episodeId ++ ":" ++ toString second) :
    first = second :=
  Text.numeral_injective ((String.append_right_inj _).mp same)

/-- The keys are the uuids of the table, and the seeds themselves past it. -/
theorem uuid5_chunkRuntime (index : Nat) :
    chunkRuntime.uuid5 ("e" ++ ":" ++ toString index) =
      if index = 0 then "06548032-7d47-563a-9e5f-31e91800a91b"
      else if index = 1 then "77c30bfa-d817-5696-9a40-8a124feb00df"
      else "e" ++ ":" ++ toString index := by
  split
  · rename_i zero
    rw [zero]
    decide
  · rename_i notZero
    split
    · rename_i one
      rw [one]
      decide
    · rename_i notOne
      have apart : ∀ other : Nat, index ≠ other →
          ("e" ++ ":" ++ toString index == "e" ++ ":" ++ toString other) = false := by
        intro other different
        rw [beq_eq_false_iff_ne]
        exact fun same => different (seed_injective same)
      show (List.lookup _ [("e" ++ ":" ++ toString 0, _), ("e" ++ ":" ++ toString 1, _)]).getD _ = _
      rw [List.lookup_cons, apart 0 notZero, List.lookup_cons, apart 1 notOne]
      rfl

theorem distinctKeys_chunkRuntime : DistinctKeys chunkRuntime "e" := by
  let seedOf (key : String) : String :=
    if key = "06548032-7d47-563a-9e5f-31e91800a91b" then "e" ++ ":" ++ toString 0
    else if key = "77c30bfa-d817-5696-9a40-8a124feb00df" then "e" ++ ":" ++ toString 1
    else key
  have recovered : ∀ index : Nat, seedOf (chunkRuntime.uuid5 ("e" ++ ":" ++ toString index)) =
      "e" ++ ":" ++ toString index := by
    intro index
    have apart : ∀ key : String, ':' ∉ key.toList → "e" ++ ":" ++ toString index ≠ key := by
      rintro key colonFree rfl
      simp at colonFree
    rw [uuid5_chunkRuntime]
    split
    · rename_i zero
      rw [zero]
      exact if_pos rfl
    · split
      · rename_i one
        rw [one]
        exact (if_neg (by decide)).trans (if_pos rfl)
      · exact (if_neg (apart _ (by decide))).trans (if_neg (apart _ (by decide)))
  intro first second same
  exact seed_injective ((recovered first).symm.trans ((congrArg seedOf same).trans
    (recovered second)))

/-- A text whose first ingest was cut off after one chunk is ingested again. -/
theorem lookup_after_interrupted_prose_ingest :
    ∃ chunks, (textCall "a1b2" []).chunks chunkingWriter = .returned chunks ∧
      ∀ index chunk, chunks[index]? = some chunk →
        ((textCall "a1b2" []).ingest chunkingWriter plainEngine
          (afterCalls chunkingWriter plainEngine
            [textCall "a1b2" [none, some (.connectionError "reset by peer")]] ∅)).2.lookup
          (chunkPlace chunkRuntime "e" "a" index) =
            some ((textCall "a1b2" []).record chunk) := by
  obtain ⟨chunks, cut, holds, _⟩ := lookup_after_last_prose_ingest chunkingWriter plainEngine
    "e" "a" [textCall "a1b2" [none, some (.connectionError "reset by peer")]] (textCall "a1b2" []) ∅
    (by decide) distinctKeys_chunkRuntime (by simp [isOf_textCall]) (isOf_textCall _ _)
    (ingest_returned (by decide) (isOf_textCall _ _) (chunks_longer []) rfl)
  exact ⟨chunks, cut, holds⟩

/-- A text of two chunks is followed by one of a single chunk: the second chunk of the first stays. -/
theorem chunk_left_over_after_shorter_body :
    ((textCall "a1b2" []).ingest chunkingWriter plainEngine ∅).1 = .returned () ∧
      ((textCall "c3" []).ingest chunkingWriter plainEngine
        (afterCalls chunkingWriter plainEngine [textCall "a1b2" []] ∅)).1 = .returned () ∧
      (textCall "c3" []).chunks chunkingWriter = .returned [⟨0, "c3", none, "a"⟩] ∧
      ((textCall "c3" []).ingest chunkingWriter plainEngine
        (afterCalls chunkingWriter plainEngine [textCall "a1b2" []] ∅)).2.lookup
          (chunkPlace chunkRuntime "e" "a" 1) =
        some ((textCall "a1b2" []).record ⟨1, "b2", none, "a"⟩) := by
  have first := @ingest_returned chunkingWriter plainEngine "e" "a" (textCall "a1b2" []) ∅ _
    (by decide) (isOf_textCall _ _) (chunks_longer []) rfl
  have second := @ingest_returned chunkingWriter plainEngine "e" "a" (textCall "c3" [])
    (afterCalls chunkingWriter plainEngine [textCall "a1b2" []] ∅) _ (by decide)
    (isOf_textCall _ _) chunks_shorter rfl
  refine ⟨first, second, chunks_shorter, ?_⟩
  obtain ⟨longer, leftFirst, _, completeFirst⟩ := ingest_of_prose chunkingWriter plainEngine ∅
    (by decide) (isOf_textCall "a1b2" [])
  obtain ⟨shorter, leftSecond, _, completeSecond⟩ := ingest_of_prose chunkingWriter plainEngine
    (afterCalls chunkingWriter plainEngine [textCall "a1b2" []] ∅) (by decide)
    (isOf_textCall "c3" [])
  obtain rfl := Outcome.returned.inj ((chunks_longer []).symm.trans (completeFirst first))
  obtain rfl := Outcome.returned.inj (chunks_shorter.symm.trans (completeSecond second))
  rw [leftSecond, storeChunks, List.foldl_cons, List.foldl_nil, storeChunk,
    lookup_insert_other (by decide), afterCalls, List.foldl_cons, List.foldl_nil, leftFirst]
  exact lookup_storeChunks_index distinctKeys_chunkRuntime
    (numbered_chunks (completeFirst first)) rfl

end Sample

end FleetMemory
