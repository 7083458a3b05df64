/-
This file proves what the chunk writer leaves for chunks of several projects. Each place holds
the last chunk listed for it. The check of a project stands inside the loop that puts the
chunks, so a project that is refused stops the loop behind the puts of the chunks before it:
nothing has changed only where the store already held those chunks.
-/

import FleetMemory.KeyedUpdates
import FleetMemory.ProseIngest

namespace FleetMemory

open StoreProgram RelayService

/-! ### The records the chunks leave -/

/-- The place a chunk is stored at. -/
def placeOf (runtime : Runtime) (episodeId : String) (chunk : Chunk) : Place :=
  chunkPlace runtime episodeId chunk.project chunk.index

section

variable (runtime : Runtime) (episodeId : String) (episodeMeta : Option EpisodeMeta)
  (chunks : List Chunk) (store : Store)

/-- Each place holds the last chunk stored there. -/
theorem lookup_storeChunks (place : Place) :
    (storeChunks runtime episodeId episodeMeta chunks store).lookup place =
      KeyedUpdates.current (placeOf runtime episodeId) (chunkValue episodeId episodeMeta)
        store.lookup chunks place := by
  induction chunks using List.reverseRecOn with
  | nil => rfl
  | append_singleton rest last inductionHypothesis =>
    rw [KeyedUpdates.current_concat, ← inductionHypothesis, storeChunks, List.foldl_append,
      List.foldl_cons, List.foldl_nil, storeChunk, lookup_insert]
    exact if_congr eq_comm rfl rfl

/-- The store holds, at the place of each chunk, what the last chunk for the place puts. -/
def Holds : Prop :=
  ∀ chunk ∈ chunks, store.lookup (placeOf runtime episodeId chunk) =
    (KeyedUpdates.lastOf (placeOf runtime episodeId) chunks (placeOf runtime episodeId chunk)).map
      (chunkValue episodeId episodeMeta)

variable {runtime episodeId episodeMeta chunks store}

/-- A store is left as it was exactly when it held the chunks. -/
theorem storeChunks_eq_self_iff :
    storeChunks runtime episodeId episodeMeta chunks store = store ↔
      Holds runtime episodeId episodeMeta chunks store := by
  have left := lookup_storeChunks runtime episodeId episodeMeta chunks store
  constructor
  · intro same chunk member
    have here := left (placeOf runtime episodeId chunk)
    rw [same, KeyedUpdates.current] at here
    cases last : KeyedUpdates.lastOf (placeOf runtime episodeId) chunks
        (placeOf runtime episodeId chunk) with
    | some final =>
      rw [last] at here
      exact here
    | none => exact absurd rfl (KeyedUpdates.ne_of_lastOf_eq_none _ last chunk member)
  · intro holds
    refine Finmap.ext_lookup fun place => ?_
    rw [left, KeyedUpdates.current]
    cases last : KeyedUpdates.lastOf (placeOf runtime episodeId) chunks place with
    | some final =>
      obtain ⟨member, rfl⟩ := KeyedUpdates.lastOf_eq_some _ last
      have here := holds final member
      rw [last] at here
      exact here.symm
    | none => rfl

end

/-! ### How the loop ends -/

/-- A `NamespaceValidationError`. -/
def IsRefusal (error : PyError) : Prop :=
  ∃ namespaceParts invalidParts, error = .namespaceValidation namespaceParts invalidParts

section

variable {runtime : Runtime} {episodeId : String} {episodeMeta : Option EpisodeMeta}
  {engine : SearchEngine} {stored rest : List Chunk} {faults : List (Option PyError)}

/-- The loop goes on behind chunks that are put. -/
theorem runFaulty_writeChunks_append (valid : ∀ chunk ∈ stored, validPart chunk.project = true)
    (put : ∀ fate ∈ faults.take stored.length, fate = none) (store : Store) :
    (writeChunks runtime episodeId episodeMeta (stored ++ rest)).runFaulty (storeWorld engine)
        faults store =
      (writeChunks runtime episodeId episodeMeta rest).runFaulty (storeWorld engine)
        (faults.drop stored.length) (storeChunks runtime episodeId episodeMeta stored store) := by
  induction stored generalizing faults store with
  | nil => rfl
  | cons chunk others inductionHypothesis =>
    obtain ⟨first, later⟩ := List.forall_mem_cons.mp valid
    have fate : faults.headD none = none := by
      cases faults with
      | nil => rfl
      | cons fate fates => exact put fate (by simp)
    rw [List.cons_append, writeChunks, validateNamespace_chunk first, lift_ok_bind,
      Program.runFaulty_put_bind, fate]
    dsimp only
    rw [storeWorld_put, inductionHypothesis later ?_ _, ← List.drop_one, List.drop_drop,
      Nat.add_comm, List.length_cons]
    · rfl
    · intro other member
      refine put other ?_
      cases faults with
      | nil => simp at member
      | cons fate fates => exact List.mem_cons_of_mem _ member

/-- The chunks are put up to the first that is refused or whose put fails. -/
theorem exists_put (chunks : List Chunk) (faults : List (Option PyError)) :
    ∃ stored rest, chunks = stored ++ rest ∧ (∀ chunk ∈ stored, validPart chunk.project = true) ∧
      (∀ fate ∈ faults.take stored.length, fate = none) ∧
      ∀ chunk ∈ rest.head?, validPart chunk.project = true →
        (faults.drop stored.length).headD none ≠ none := by
  induction chunks generalizing faults with
  | nil => exact ⟨[], [], rfl, by simp, by simp, by simp⟩
  | cons chunk rest inductionHypothesis =>
    by_cases goesOn : validPart chunk.project = true ∧ faults.headD none = none
    · obtain ⟨stored, left, rfl, valid, put, stopped⟩ := inductionHypothesis faults.tail
      refine ⟨chunk :: stored, left, rfl, List.forall_mem_cons.mpr ⟨goesOn.1, valid⟩, ?_, ?_⟩
      · cases faults with
        | nil => simp
        | cons fate fates => exact List.forall_mem_cons.mpr ⟨goesOn.2, put⟩
      · rwa [List.length_cons, Nat.add_comm, ← List.drop_drop, List.drop_one]
    · refine ⟨[], chunk :: rest, rfl, by simp, by simp, ?_⟩
      rintro _ ⟨⟩ valid failed
      exact goesOn ⟨valid, failed⟩

/-- A chunk whose project is no namespace segment is refused. -/
theorem runFaulty_writeChunks_of_invalid {chunk : Chunk}
    (invalid : validPart chunk.project = false) (store : Store) :
    ∃ error, IsRefusal error ∧ (writeChunks runtime episodeId episodeMeta (chunk :: rest)).runFaulty
      (storeWorld engine) faults store = (.raised error, store) := by
  obtain ⟨invalidParts, refused⟩ := DeterministicWriter.validateNamespace_eq_error
    (show chunk.project ∈ ["fleet_memory", chunk.project, "chunk"] by simp) invalid
  refine ⟨_, ⟨["fleet_memory", chunk.project, "chunk"], invalidParts, rfl⟩, ?_⟩
  rw [writeChunks, refused]
  rfl

/-- What a put raises ends the loop. -/
theorem runFaulty_writeChunks_of_fault {chunk : Chunk} {fault : PyError}
    (valid : validPart chunk.project = true) (failed : faults.headD none = some fault)
    (store : Store) :
    (writeChunks runtime episodeId episodeMeta (chunk :: rest)).runFaulty (storeWorld engine)
      faults store = (.raised fault, store) := by
  rw [writeChunks, validateNamespace_chunk valid, lift_ok_bind, Program.runFaulty_put_bind, failed]

end

/-! ### Checking before writing -/

section

variable (runtime : Runtime) (engine : SearchEngine) (episodeId : String)
  (episodeMeta : Option EpisodeMeta) (chunks : List Chunk) (faults : List (Option PyError))
  (store : Store)

/-- How the writer ends, and the store it leaves. -/
def writing : Outcome PyError Unit × Store :=
  (writeChunks runtime episodeId episodeMeta chunks).runFaulty (storeWorld engine) faults store

/-- A project that is no namespace segment is refused before anything is written. Otherwise each
pair of a project and an index holds the last chunk listed for it, and nothing else changes. -/
structure ValidatesFirst : Prop where
  refused : (∃ chunk ∈ chunks, validPart chunk.project = false) →
    (∃ error, IsRefusal error ∧
      (writing runtime engine episodeId episodeMeta chunks faults store).1 = .raised error) ∧
    (writing runtime engine episodeId episodeMeta chunks faults store).2 = store
  written : (∀ chunk ∈ chunks, validPart chunk.project = true) →
    (∀ fate ∈ faults.take chunks.length, fate = none) →
    (writing runtime engine episodeId episodeMeta chunks faults store).1 = .returned () ∧
    (∀ project index chunk,
      KeyedUpdates.lastOf (fun chunk : Chunk => (chunk.project, chunk.index)) chunks
          (project, index) = some chunk →
        (writing runtime engine episodeId episodeMeta chunks faults store).2.lookup
          (chunkPlace runtime episodeId project index) =
            some (chunkValue episodeId episodeMeta chunk)) ∧
    ∀ place, (∀ chunk ∈ chunks, place ≠ placeOf runtime episodeId chunk) →
      (writing runtime engine episodeId episodeMeta chunks faults store).2.lookup place =
        store.lookup place

/-- The loop is stopped by a refusal, behind chunks the store already held. -/
def RefusedUnchanged : Prop :=
  ∃ stored chunk rest, chunks = stored ++ chunk :: rest ∧
    (∀ earlier ∈ stored, validPart earlier.project = true) ∧
    (∀ fate ∈ faults.take stored.length, fate = none) ∧
    (validPart chunk.project = false ∨
      ∃ error, IsRefusal error ∧ (faults.drop stored.length).headD none = some error) ∧
    Holds runtime episodeId episodeMeta stored store

end

section

variable {runtime : Runtime} {engine : SearchEngine} {episodeId : String}
  {episodeMeta : Option EpisodeMeta} {chunks : List Chunk} {faults : List (Option PyError)}
  {store : Store}

/-- Chunks that are all put leave the store with them. -/
theorem writing_of_put (valid : ∀ chunk ∈ chunks, validPart chunk.project = true)
    (put : ∀ fate ∈ faults.take chunks.length, fate = none) :
    writing runtime engine episodeId episodeMeta chunks faults store =
      (.returned (), storeChunks runtime episodeId episodeMeta chunks store) := by
  have run := @runFaulty_writeChunks_append runtime episodeId episodeMeta engine chunks [] faults
    valid put store
  rw [List.append_nil] at run
  exact run

variable (runtime episodeId) in
/-- The last chunk of a project and an index is the last one stored at their place. -/
theorem lastOf_placeOf
    (keys : ∀ first ∈ chunks, ∀ second ∈ chunks,
      (placeOf runtime episodeId first).key = (placeOf runtime episodeId second).key →
        first.index = second.index) {chunk : Chunk} (member : chunk ∈ chunks) :
    KeyedUpdates.lastOf (placeOf runtime episodeId) chunks (placeOf runtime episodeId chunk) =
      KeyedUpdates.lastOf (fun other : Chunk => (other.project, other.index)) chunks
        (chunk.project, chunk.index) := by
  refine KeyedUpdates.lastOf_congr _ _ fun other among => ⟨fun same => ?_, fun same => ?_⟩
  · have project : other.project = chunk.project := by
      simpa [placeOf, chunkPlace] using congrArg Place.namespaceParts same
    rw [project, keys other among chunk member (congrArg Place.key same)]
  · obtain ⟨project, index⟩ := Prod.mk.inj same
    rw [placeOf, placeOf, project, index]

/-- A refusal stops the loop, behind the chunks that were put. -/
theorem writing_of_refused {stored : List Chunk} {chunk : Chunk} {rest : List Chunk}
    (validStored : ∀ earlier ∈ stored, validPart earlier.project = true)
    (put : ∀ fate ∈ faults.take stored.length, fate = none)
    (refused : validPart chunk.project = false ∨
      ∃ error, IsRefusal error ∧ (faults.drop stored.length).headD none = some error) :
    ∃ error, IsRefusal error ∧
      writing runtime engine episodeId episodeMeta (stored ++ chunk :: rest) faults store =
        (.raised error, storeChunks runtime episodeId episodeMeta stored store) := by
  rw [writing, runFaulty_writeChunks_append validStored put]
  rcases Bool.eq_false_or_eq_true (validPart chunk.project) with here | here
  · rcases refused with invalid | ⟨error, refusal, failed⟩
    · rw [here] at invalid
      cases invalid
    · exact ⟨error, refusal, runFaulty_writeChunks_of_fault here failed _⟩
  · exact runFaulty_writeChunks_of_invalid here _

/-- A refusal is of a chunk's project, or was raised by the put of a chunk. -/
theorem exists_refused {error : PyError} (refusal : IsRefusal error)
    (raised : (writing runtime engine episodeId episodeMeta chunks faults store).1 =
      .raised error) :
    ∃ stored chunk rest, chunks = stored ++ chunk :: rest ∧
      (∀ earlier ∈ stored, validPart earlier.project = true) ∧
      (∀ fate ∈ faults.take stored.length, fate = none) ∧
      (validPart chunk.project = false ∨
        ∃ error, IsRefusal error ∧ (faults.drop stored.length).headD none = some error) := by
  obtain ⟨stored, rest, rfl, validStored, put, stopped⟩ := exists_put chunks faults
  rw [writing, runFaulty_writeChunks_append validStored put] at raised
  cases rest with
  | nil => cases raised
  | cons chunk others =>
    refine ⟨stored, chunk, others, rfl, validStored, put, ?_⟩
    cases here : validPart chunk.project with
    | false => exact Or.inl rfl
    | true =>
      obtain ⟨fault, failed⟩ := Option.ne_none_iff_exists'.mp (stopped chunk rfl here)
      rw [runFaulty_writeChunks_of_fault here failed] at raised
      obtain rfl := Outcome.raised.inj raised
      exact Or.inr ⟨fault, refusal, failed⟩

/-- A fault in reach of the chunks is one of theirs. -/
theorem fault_mem_take {position length : Nat} {fault : PyError}
    (failed : (faults.drop position).headD none = some fault) (before : position < length) :
    some fault ∈ faults.take length := by
  rw [List.headD_eq_head?_getD, List.head?_drop] at failed
  cases found : faults[position]? with
  | none =>
    rw [found] at failed
    cases failed
  | some fate =>
    rw [found] at failed
    obtain rfl : fate = some fault := failed
    refine List.mem_of_getElem? (i := position) ?_
    rw [List.getElem?_take_of_lt before, found]

/-- Where a chunk is listed, the last one of its project and index is stored. -/
theorem lookup_storeChunks_last
    (keys : ∀ first ∈ chunks, ∀ second ∈ chunks,
      (placeOf runtime episodeId first).key = (placeOf runtime episodeId second).key →
        first.index = second.index) {project : String} {index : Nat} {chunk : Chunk}
    (last : KeyedUpdates.lastOf (fun chunk : Chunk => (chunk.project, chunk.index)) chunks
      (project, index) = some chunk) :
    (storeChunks runtime episodeId episodeMeta chunks store).lookup
        (chunkPlace runtime episodeId project index) =
      some (chunkValue episodeId episodeMeta chunk) := by
  obtain ⟨member, same⟩ := KeyedUpdates.lastOf_eq_some _ last
  obtain ⟨rfl, rfl⟩ := Prod.mk.inj same
  rw [← lastOf_placeOf runtime episodeId keys member] at last
  rw [lookup_storeChunks, KeyedUpdates.current, ← placeOf, last]

/-- Where no chunk is listed, the store is as it was. -/
theorem lookup_storeChunks_of_ne {place : Place}
    (apart : ∀ chunk ∈ chunks, place ≠ placeOf runtime episodeId chunk) :
    (storeChunks runtime episodeId episodeMeta chunks store).lookup place = store.lookup place := by
  rw [lookup_storeChunks, KeyedUpdates.current,
    KeyedUpdates.lastOf_eq_none _ fun chunk member same => apart chunk member same.symm]

end

/-- The chunk writer validates before it writes exactly when every project is a namespace segment,
or a refusal stops the loop behind chunks the store already held. -/
theorem validatesFirst_iff (runtime : Runtime) (engine : SearchEngine) (episodeId : String)
    (episodeMeta : Option EpisodeMeta) (chunks : List Chunk) (faults : List (Option PyError))
    (store : Store)
    (keys : ∀ first ∈ chunks, ∀ second ∈ chunks,
      runtime.uuid5 (episodeId ++ ":" ++ toString first.index) =
        runtime.uuid5 (episodeId ++ ":" ++ toString second.index) → first.index = second.index) :
    ValidatesFirst runtime engine episodeId episodeMeta chunks faults store ↔
      (∀ chunk ∈ chunks, validPart chunk.project = true) ∨
        RefusedUnchanged runtime episodeId episodeMeta chunks faults store := by
  constructor
  · intro validates
    by_cases valid : ∀ chunk ∈ chunks, validPart chunk.project = true
    · exact Or.inl valid
    · obtain ⟨⟨error, refusal, raised⟩, unchanged⟩ := validates.refused (by simpa using valid)
      obtain ⟨stored, chunk, rest, rfl, validStored, put, refused⟩ := exists_refused refusal raised
      obtain ⟨_, _, stopped⟩ := @writing_of_refused runtime engine episodeId episodeMeta faults store
        stored chunk rest validStored put refused
      rw [stopped] at unchanged
      exact Or.inr ⟨stored, chunk, rest, rfl, validStored, put, refused,
        storeChunks_eq_self_iff.mp unchanged⟩
  · rintro (valid | ⟨stored, chunk, rest, rfl, validStored, put, refused, holds⟩)
    · refine ⟨fun ⟨chunk, member, invalid⟩ => ?_, fun _ put => ?_⟩
      · rw [valid chunk member] at invalid
        cases invalid
      · rw [writing_of_put valid put]
        exact ⟨rfl, fun project index chunk last => lookup_storeChunks_last keys last,
          fun place apart => lookup_storeChunks_of_ne apart⟩
    · obtain ⟨error, refusal, raised⟩ := @writing_of_refused runtime engine episodeId episodeMeta
        faults store stored chunk rest validStored put refused
      rw [storeChunks_eq_self_iff.mpr holds] at raised
      refine ⟨fun _ => ?_, fun valid puts => ?_⟩
      · rw [raised]
        exact ⟨⟨error, refusal, rfl⟩, rfl⟩
      · rcases refused with invalid | ⟨fault, _, failed⟩
        · rw [valid chunk (by simp)] at invalid
          cases invalid
        · cases puts _ (fault_mem_take failed (by simp))

/-- Two chunks listed for one index of episode `e`. -/
theorem validatesFirst_of_valid_projects :
    ValidatesFirst chunkRuntime plainEngine "e" none [⟨0, "x", none, "a"⟩, ⟨0, "y", none, "a"⟩] []
      ∅ :=
  (validatesFirst_iff chunkRuntime plainEngine "e" none _ [] ∅ (by decide)).mpr
    (Or.inl (by decide))

/-- A chunk is stored before the project of the one behind it is refused. -/
theorem chunk_put_before_refused_project :
    ¬ValidatesFirst chunkRuntime plainEngine "e" none
      [⟨0, "x", none, "a"⟩, ⟨1, "y", none, "a-b"⟩] [] ∅ := by
  intro validates
  have unchanged := (validates.refused ⟨⟨1, "y", none, "a-b"⟩, by simp, by decide⟩).2
  have here := congrArg (Finmap.lookup (chunkPlace chunkRuntime "e" "a" 0)) unchanged
  have put : (writing chunkRuntime plainEngine "e" none
      [⟨0, "x", none, "a"⟩, ⟨1, "y", none, "a-b"⟩] [] ∅).2 =
        storeChunks chunkRuntime "e" none [⟨0, "x", none, "a"⟩] ∅ := by
    have run := @runFaulty_writeChunks_append chunkRuntime "e" none plainEngine
      [⟨0, "x", none, "a"⟩] [⟨1, "y", none, "a-b"⟩] [] (by decide) (by simp) ∅
    obtain ⟨_, _, ended⟩ := @runFaulty_writeChunks_of_invalid chunkRuntime "e" none plainEngine []
      [] ⟨1, "y", none, "a-b"⟩ (by decide)
      (storeChunks chunkRuntime "e" none [⟨0, "x", none, "a"⟩] ∅)
    exact congrArg Prod.snd (run.trans ended)
  rw [put, storeChunks, List.foldl_cons, List.foldl_nil, storeChunk, lookup_insert_self,
    Finmap.lookup_empty] at here
  cases here

end FleetMemory
