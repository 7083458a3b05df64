/-
This file proves what declared supersessions come to over whole runs. A record whose
replacement finds, in the listing of its namespace, a record that declares it superseded
keeps its mark through every write; a declaration whose record is not in that listing, or
is in no record at all, is lost by the next write of the predecessor.
-/

import FleetMemory.PrefixEngine
import FleetMemory.Retrieval
import FleetMemory.Tools
import FleetMemory.Transitions
import FleetMemory.Writer

namespace FleetMemory

open StoreProgram Transitions DeterministicWriter

/-! ### Invariants of a store -/

/-- The record of a key, when it is stored, is marked as superseded. -/
def KeyMarked (runtime : Runtime) (store : Store) (key : String) : Prop :=
  ∀ place value, keyPlace runtime key = some place → store.lookup place = some value →
    value.naturalKey = some key → value.marked = true

/-- Some stored record lists the key among those it supersedes. -/
def Declared (store : Store) (key : String) : Prop :=
  ∃ place value, store.lookup place = some value ∧ value.declares key = true

/-- Some record of the namespace's listing does. -/
def DeclaredIn (engine : SearchEngine) (namespaceParts : List String) (store : Store)
    (key : String) : Prop :=
  ∃ place value, store.lookup place = some value ∧
    engine.selects (listing namespaceParts) place value = true ∧ value.declares key = true

/-- Every key a stored record declares superseded is marked. -/
def SupersessionInvariant (runtime : Runtime) (store : Store) : Prop :=
  ∀ key, Declared store key → KeyMarked runtime store key

/-- Every record that declares a supersession carries its own natural key. -/
def DeclarersNamed (store : Store) : Prop :=
  ∀ place value key, store.lookup place = some value → value.declares key = true →
    ∃ name, value.naturalKey = some name ∧ name ≠ ""

/-! ### What marking and writing do to them -/

section Marking

variable {runtime : Runtime} {store : Store} (successor : String) (predecessors : List String)

theorem declarersNamed_empty : DeclarersNamed ∅ := by
  intro place value key stored
  cases stored

theorem declarersNamed_markAll (named : DeclarersNamed store) :
    DeclarersNamed (markAll runtime successor predecessors store) := by
  intro place value key stored declares
  obtain ⟨source, found, sameKey, sameDeclared, _⟩ := lookup_markAll_cases stored
  rw [sameKey]
  rw [sameDeclared] at declares
  exact named place source key found declares

theorem keyMarked_markAll {key : String} (marked : KeyMarked runtime store key) :
    KeyMarked runtime (markAll runtime successor predecessors store) key := by
  intro place value here stored ofKey
  obtain ⟨source, found, sameKey, _, keeps, _⟩ := lookup_markAll_cases stored
  rw [sameKey] at ofKey
  exact keeps (marked place source here found ofKey)

/-- Every predecessor is marked. -/
theorem keyMarked_of_mem {key : String} (member : key ∈ predecessors) :
    KeyMarked runtime (markAll runtime successor predecessors store) key := by
  intro place value here stored _
  obtain ⟨_, _, _, _, _, marks⟩ := lookup_markAll_cases stored
  exact marks key member here

end Marking

section

variable {writer : DeterministicWriter} {engine : SearchEngine} {payload : Payload}
  {episodeMeta : Option EpisodeMeta} {store : Store}

/-- A record of the upsert is the one put or was stored. -/
theorem lookup_upserted_cases {place : Place} {value : StoredValue}
    (stored : (writer.upserted engine payload episodeMeta store).lookup place = some value) :
    (writer.Puts payload store ∧ place = writer.recordPlace payload ∧
        value = writer.putValue engine payload episodeMeta store) ∨
      store.lookup place = some value := by
  rw [lookup_upserted] at stored
  split at stored
  · rename_i put
    exact Or.inl ⟨put.1, put.2, (Option.some.inj stored).symm⟩
  · exact Or.inr stored

theorem declarersNamed_written (named : DeclarersNamed store) :
    DeclarersNamed (writer.written engine payload episodeMeta store) := by
  refine declarersNamed_markAll _ _ fun place value key stored declares => ?_
  rcases lookup_upserted_cases stored with ⟨_, _, rfl⟩ | kept
  · exact ⟨payload.naturalKey, putValue_naturalKey, naturalKey_ne_empty payload⟩
  · exact named place value key kept declares

/-- The record of a key that some record of its namespace's listing declares is put marked. -/
theorem putValue_marked (named : DeclarersNamed store)
    (declared : DeclaredIn engine (recordNamespace payload) store payload.naturalKey) :
    (writer.putValue engine payload episodeMeta store).marked = true := by
  obtain ⟨place, value, stored, selected, declares⟩ := declared
  obtain ⟨other, record, kept, declaring, found⟩ := exists_successorOf stored selected declares
  obtain ⟨name, key, nonempty⟩ := named other record _ kept declaring
  rw [putValue, found, key, markFound, if_neg nonempty]
  rfl

/-- A marked key stays marked through a write, if a replacement of its record finds a declaration
in the listing of its namespace. -/
theorem keyMarked_written {key : String} (named : DeclarersNamed store)
    (marked : KeyMarked writer.runtime store key)
    (finds : payload.naturalKey = key → writer.Puts payload store →
      DeclaredIn engine (recordNamespace payload) store key) :
    KeyMarked writer.runtime (writer.written engine payload episodeMeta store) key := by
  refine keyMarked_markAll _ _ fun place value here stored ofKey => ?_
  rcases lookup_upserted_cases stored with ⟨puts, _, rfl⟩ | kept
  · rw [putValue_naturalKey] at ofKey
    obtain rfl := Option.some.inj ofKey
    exact putValue_marked named (finds rfl puts)
  · exact marked place value here kept ofKey

/-- A record a write puts declares what the payload does. -/
theorem declares_of_puts (puts : writer.Puts payload store) :
    ∃ after, (writer.written engine payload episodeMeta store).lookup (writer.recordPlace payload) =
        some after ∧ ∀ key, after.declares key = payload.supersedes.contains key := by
  refine ⟨_, by rw [written, lookup_markAll, lookup_upserted, if_pos ⟨puts, rfl⟩,
    Option.map_some], fun key => ?_⟩
  split
  · exact putValue_declares key
  · exact putValue_declares key

/-- A write keeps what the records of other places declare. -/
theorem declares_written {place : Place} {value : StoredValue}
    (elsewhere : place ≠ writer.recordPlace payload) (stored : store.lookup place = some value) :
    ∃ after, (writer.written engine payload episodeMeta store).lookup place = some after ∧
      ∀ key, after.declares key = value.declares key := by
  refine ⟨_, by rw [written, lookup_markAll, lookup_upserted, if_neg fun both => elsewhere both.2,
    stored, Option.map_some], fun key => ?_⟩
  split <;> rfl

/-- A key declared after a write was declared before it or by the payload. -/
theorem declared_of_declared_written {key : String}
    (declared : Declared (writer.written engine payload episodeMeta store) key) :
    key ∈ payload.supersedes ∨ Declared store key := by
  obtain ⟨place, value, stored, declares⟩ := declared
  obtain ⟨source, found, _, sameDeclared, _⟩ := lookup_markAll_cases stored
  rw [sameDeclared] at declares
  rcases lookup_upserted_cases found with ⟨_, _, rfl⟩ | kept
  · rw [putValue_declares] at declares
    exact Or.inl (List.contains_iff_mem.mp declares)
  · exact Or.inr ⟨place, source, kept, declares⟩

/-- A record put with no declarer in the listing of its namespace is not marked. -/
theorem not_keyMarked_written (puts : writer.Puts payload store)
    (unlisted : ¬DeclaredIn engine (recordNamespace payload) store payload.naturalKey)
    (apart : ∀ key ∈ payload.supersedes,
      keyPlace writer.runtime key ≠ some (writer.recordPlace payload)) :
    ¬KeyMarked writer.runtime (writer.written engine payload episodeMeta store)
      payload.naturalKey := by
  intro marked
  have missing : successorOf engine store payload.naturalKey (recordNamespace payload) = none := by
    refine successorOf_eq_none fun other record found selected => ?_
    by_contra holds
    exact unlisted ⟨other, record, found, selected, by simpa using holds⟩
  have put : (writer.written engine payload episodeMeta store).lookup (writer.recordPlace payload) =
      some (writer.putValue engine payload episodeMeta store) := by
    rw [written, lookup_markAll, lookup_upserted, if_pos ⟨puts, rfl⟩, Option.map_some, if_neg]
    rintro ⟨key, member, here⟩
    exact apart key member here
  have claimed := marked _ _ (keyPlace_naturalKey payload) put putValue_naturalKey
  rw [putValue, missing] at claimed
  cases claimed

end

/-! ### Runs of writes -/

/-- One call of the writer. -/
structure WriteRequest where
  payload : Payload
  episodeMeta : Option EpisodeMeta

/-- A call that returns normally, and the stores before and after it. -/
def WriteStep (writer : DeterministicWriter) (engine : SearchEngine) (before : Store)
    (request : WriteRequest) (after : Store) : Prop :=
  (writer.write request.payload request.episodeMeta).run (storeWorld engine) before =
    (.returned (), after)

/-- An accepted write returns as long as the pages it may read hold every record. -/
theorem writeStep_of_accepts {writer : DeterministicWriter} {engine : SearchEngine}
    {store : Store} {request : WriteRequest} (accepts : Accepts request.payload)
    (room : store.keys.card < forwardPage * writer.pages) :
    WriteStep writer engine store request
      (writer.written engine request.payload request.episodeMeta store) :=
  run_write_of_accepts accepts ((length_ranking_le engine _ store).trans_lt room)

/-- A write that creates or replaces the record of a key some stored record declares superseded
finds such a record in the listing of the written record's own namespace. -/
def FindsDeclarer (writer : DeterministicWriter) (engine : SearchEngine) (store : Store)
    (request : WriteRequest) : Prop :=
  writer.Puts request.payload store → Declared store request.payload.naturalKey →
    DeclaredIn engine (recordNamespace request.payload) store request.payload.naturalKey

/-- In every run of writes from an empty store, each of which finds a declarer of its key in the
listing of its own namespace whenever one is stored at all, every stored predecessor of a stored
record is marked, and a default search never returns one. -/
theorem supersessionInvariant_of_run (writer : DeterministicWriter) (engine : SearchEngine)
    (requests : List WriteRequest) (store : Store)
    (run : Run (Guarded (WriteStep writer engine) (FindsDeclarer writer engine)) ∅ requests store) :
    SupersessionInvariant writer.runtime store ∧
      ∀ (request : SearchRequest) (items : List Item) (after : Store),
        request.includeSuperseded = false →
        (search writer.runtime request).run (storeWorld engine) store = (.returned items, after) →
        ∀ item ∈ items, ∀ key, Declared store key →
          keyPlace writer.runtime key = some item.place → item.value.naturalKey ≠ some key := by
  have holds : SupersessionInvariant writer.runtime store ∧ DeclarersNamed store := by
    refine run.invariant (fun state => SupersessionInvariant writer.runtime state ∧
      DeclarersNamed state) ⟨?_, declarersNamed_empty⟩ ?_
    · rintro key ⟨place, value, stored, _⟩
      cases stored
    · rintro before request after ⟨invariant, named⟩ ⟨step, finds⟩
      obtain ⟨_, rfl⟩ := run_write_returned step
      refine ⟨fun key declared => ?_, declarersNamed_written named⟩
      rcases declared_of_declared_written declared with superseded | declaredBefore
      · exact keyMarked_of_mem _ _ superseded
      · refine keyMarked_written named (invariant key declaredBefore) ?_
        rintro rfl puts
        exact finds puts declaredBefore
  refine ⟨holds.1, ?_⟩
  intro request items after default returned item member key declared here ofKey
  have stored := (mem_of_run_search returned member).1
  have marked := holds.1 key declared item.place item.value here stored ofKey
  rw [not_marked_of_run_search default returned member] at marked
  cases marked

/-! ### Sample records -/

section Sample

/-- The functions on the keys and contents of the sample records. -/
def sampleRuntime : Runtime :=
  .ofTables
    [("adr:a:P", "d1684d9a-8c7f-5174-a807-b69950409495"),
      ("adr:a:S", "e43fdbc0-5162-5729-8240-e53943f01b66"),
      ("adr:b:S", "c546bafc-b00a-546b-b6ef-532a1e381cb4")] [] []

def sampleWriter : DeterministicWriter where
  runtime := sampleRuntime
  pages := 1

def sampleEngine : SearchEngine :=
  prefixEngine fun _ _ _ => none

/-- The fields of an ADR with the optional ones left out. -/
def adrFields (project identifier decision : String) (supersedes : List String) :
    PayloadFields where
  payloadType := "adr"
  project := project
  identifier := identifier
  domainTags := []
  sourceRef := "s"
  version := 1
  supersedes := supersedes
  own := [("decision", .str decision), ("status", .str "accepted"), ("title", .none),
    ("context", .none), ("consequences", .none), ("alternatives", .none)]

/-- An ADR of project `a`. -/
def predecessorOfA : Payload where
  toPayloadFields := adrFields "a" "P" "d" []
  valid := ⟨by decide, by decide, by decide, by decide, by decide, by decide⟩

/-- An ADR of the same project that supersedes it. -/
def successorInA : Payload where
  toPayloadFields := adrFields "a" "S" "d" ["adr:a:P"]
  valid := ⟨by decide, by decide, by decide, by decide, by decide, by decide⟩

/-- An ADR of project `b` that supersedes it. -/
def successorInB : Payload where
  toPayloadFields := adrFields "b" "S" "d" ["adr:a:P"]
  valid := ⟨by decide, by decide, by decide, by decide, by decide, by decide⟩

theorem puts_empty (writer : DeterministicWriter) (payload : Payload) : writer.Puts payload ∅ := by
  simp [Puts]

/-- The only record the first write leaves is the payload's. -/
theorem place_of_written_empty {writer : DeterministicWriter} {engine : SearchEngine}
    {payload : Payload} {place : Place} {value : StoredValue}
    (stored : (writer.written engine payload none ∅).lookup place = some value) :
    place = writer.recordPlace payload := by
  obtain ⟨source, found, _⟩ := lookup_markAll_cases stored
  rcases lookup_upserted_cases found with ⟨_, here, _⟩ | kept
  · exact here
  · cases kept

/-- A write at another place than the first puts its record. -/
theorem puts_of_written_empty {writer : DeterministicWriter} {engine : SearchEngine}
    {first second : Payload} (apart : writer.recordPlace second ≠ writer.recordPlace first) :
    writer.Puts second (writer.written engine first none ∅) := by
  cases stored : (writer.written engine first none ∅).lookup (writer.recordPlace second) with
  | none => simp [Puts, stored]
  | some value => exact absurd (place_of_written_empty stored) apart

/-- A successor and its predecessor are written in this order, into one namespace. -/
theorem supersessionInvariant_of_run_successor_first :
    ∃ store, Run (Guarded (WriteStep sampleWriter sampleEngine)
        (FindsDeclarer sampleWriter sampleEngine)) ∅
        [⟨successorInA, none⟩, ⟨predecessorOfA, none⟩] store ∧
      Declared store "adr:a:P" ∧ SupersessionInvariant sampleRuntime store := by
  obtain ⟨record, stored, declares⟩ := @declares_of_puts sampleWriter sampleEngine successorInA
    none ∅ (puts_empty _ _)
  have first : Guarded (WriteStep sampleWriter sampleEngine)
      (FindsDeclarer sampleWriter sampleEngine) ∅ ⟨successorInA, none⟩
      (sampleWriter.written sampleEngine successorInA none ∅) := by
    refine ⟨writeStep_of_accepts ⟨by decide, by decide⟩ (by decide), ?_⟩
    rintro _ ⟨place, value, impossible, _⟩
    cases impossible
  have second : Guarded (WriteStep sampleWriter sampleEngine)
      (FindsDeclarer sampleWriter sampleEngine)
      (sampleWriter.written sampleEngine successorInA none ∅) ⟨predecessorOfA, none⟩
      (sampleWriter.written sampleEngine predecessorOfA none
        (sampleWriter.written sampleEngine successorInA none ∅)) := by
    refine ⟨writeStep_of_accepts ⟨by decide, by decide⟩
      (card_keys_written.trans_lt (by decide)), fun _ _ => ?_⟩
    exact ⟨_, record, stored, sampleEngine.selects_own _ record (by decide),
      by rw [declares]; decide⟩
  obtain ⟨kept, found, same⟩ := @declares_written sampleWriter sampleEngine predecessorOfA none _
    _ _ (by decide) stored
  have run := (Run.single first).append (Run.single second)
  exact ⟨_, run, ⟨_, kept, found, by rw [same, declares]; decide⟩,
    (supersessionInvariant_of_run sampleWriter sampleEngine _ _ run).1⟩

/-- The successor is written into another namespace, then the predecessor: the predecessor is not
marked. -/
theorem unmarked_of_successor_in_other_namespace :
    ∃ store, Run (WriteStep sampleWriter sampleEngine) ∅
        [⟨successorInB, none⟩, ⟨predecessorOfA, none⟩] store ∧
      ¬SupersessionInvariant sampleRuntime store := by
  obtain ⟨record, stored, declares⟩ := @declares_of_puts sampleWriter sampleEngine successorInB
    none ∅ (puts_empty _ _)
  have first : WriteStep sampleWriter sampleEngine ∅ ⟨successorInB, none⟩
      (sampleWriter.written sampleEngine successorInB none ∅) :=
    writeStep_of_accepts ⟨by decide, by decide⟩ (by decide)
  have second : WriteStep sampleWriter sampleEngine
      (sampleWriter.written sampleEngine successorInB none ∅) ⟨predecessorOfA, none⟩
      (sampleWriter.written sampleEngine predecessorOfA none
        (sampleWriter.written sampleEngine successorInB none ∅)) :=
    writeStep_of_accepts ⟨by decide, by decide⟩ (card_keys_written.trans_lt (by decide))
  refine ⟨_, (Run.single first).append (Run.single second), fun invariant => ?_⟩
  obtain ⟨kept, found, same⟩ := @declares_written sampleWriter sampleEngine predecessorOfA none _
    _ _ (by decide) stored
  refine @not_keyMarked_written sampleWriter sampleEngine predecessorOfA none _
    (puts_of_written_empty (by decide)) ?_ ?_
    (invariant "adr:a:P" ⟨_, kept, found, by rw [same, declares]; decide⟩)
  · rintro ⟨place, value, listed, selected, _⟩
    rw [place_of_written_empty listed, sampleEngine,
      prefixEngine_selects_eq_false (by decide)] at selected
    cases selected
  · rintro key ⟨⟩

end Sample

/-! ### Runs of writes and declarations -/

/-- One call of the writer or of the tool that declares a supersession. -/
inductive Request where
  | write (request : WriteRequest)
  | supersede (successorKey : String) (predecessorKeys : List String)

/-- The store a call leaves, however it ends. -/
def RequestStep (writer : DeterministicWriter) (engine : SearchEngine) (before : Store) :
    Request → Store → Prop
  | .write request, after =>
    after = ((writer.write request.payload request.episodeMeta).run (storeWorld engine) before).2
  | .supersede successorKey predecessorKeys, after =>
    after = ((memorySupersede writer.runtime successorKey predecessorKeys).run
      (storeWorld engine) before).2

/-- A write that creates or replaces the record of the key finds a record that declares the key in
the listing of its own namespace. -/
def FindsDeclarerOf (writer : DeterministicWriter) (engine : SearchEngine) (key : String)
    (store : Store) : Request → Prop
  | .write request => request.payload.naturalKey = key → writer.Puts request.payload store →
      DeclaredIn engine (recordNamespace request.payload) store key
  | .supersede _ _ => True

section

variable {writer : DeterministicWriter} {engine : SearchEngine} {before after : Store}
  {request : Request}

theorem requestStep_of_writeStep {request : WriteRequest}
    (step : WriteStep writer engine before request after) :
    RequestStep writer engine before (.write request) after := by
  rw [RequestStep, show _ = _ from step]

/-- A call that ends leaves the store as it was, or what its writes come to. -/
theorem requestStep_cases (step : RequestStep writer engine before request after) :
    after = before ∨
      (∃ written, request = .write written ∧
        after = writer.written engine written.payload written.episodeMeta before) ∨
      ∃ successorKey predecessorKeys, request = .supersede successorKey predecessorKeys ∧
        after = markAll writer.runtime successorKey predecessorKeys before := by
  cases request with
  | write request =>
    rcases run_write_state writer engine request.payload request.episodeMeta before with
      written | same
    · exact Or.inr (Or.inl ⟨request, rfl, (show after = _ from step).trans written⟩)
    · exact Or.inl ((show after = _ from step).trans same)
  | supersede successorKey predecessorKeys =>
    obtain ⟨result, ran, _⟩ := run_memorySupersede engine successorKey predecessorKeys before
    rw [show after = _ from step, ran]
    dsimp only
    split
    · exact Or.inl rfl
    · exact Or.inr (Or.inr ⟨successorKey, predecessorKeys, rfl, rfl⟩)

theorem declarersNamed_requestStep (named : DeclarersNamed before)
    (step : RequestStep writer engine before request after) : DeclarersNamed after := by
  obtain rfl | ⟨_, rfl, rfl⟩ | ⟨_, _, rfl, rfl⟩ := requestStep_cases step
  · exact named
  · exact declarersNamed_written named
  · exact declarersNamed_markAll _ _ named

/-- A marked key stays marked through a call that finds a declarer if it writes the key. -/
theorem keyMarked_requestStep {key : String} (named : DeclarersNamed before)
    (marked : KeyMarked writer.runtime before key)
    (step : RequestStep writer engine before request after)
    (finds : FindsDeclarerOf writer engine key before request) :
    KeyMarked writer.runtime after key := by
  obtain rfl | ⟨_, rfl, rfl⟩ | ⟨_, _, rfl, rfl⟩ := requestStep_cases step
  · exact marked
  · exact keyMarked_written named marked finds
  · exact keyMarked_markAll _ _ marked

end

/-- After a declaration that reported success, a declared predecessor that is stored is marked in
every state of the run, as long as each write that creates or replaces its record finds a record
that declares it in the listing of its own namespace. -/
theorem keyMarked_of_memorySupersede (writer : DeterministicWriter) (engine : SearchEngine)
    (start before during after : Store) (earlier later : List Request)
    (successorKey key : String) (predecessorKeys : List String) (result : ToolResult String)
    (named : DeclarersNamed start)
    (first : Run (RequestStep writer engine) start earlier before)
    (declared : (memorySupersede writer.runtime successorKey predecessorKeys).run
      (storeWorld engine) before = (.returned result, during))
    (success : result.isError = false) (member : key ∈ predecessorKeys)
    (rest : Run (Guarded (RequestStep writer engine) (FindsDeclarerOf writer engine key)) during
      later after) : KeyMarked writer.runtime after key := by
  have namedBefore : DeclarersNamed before :=
    first.invariant DeclarersNamed named fun _ _ _ named step => declarersNamed_requestStep named step
  obtain ⟨reported, ran, _⟩ := run_memorySupersede engine successorKey predecessorKeys before
  rw [ran] at declared
  obtain ⟨same, rfl⟩ := Prod.mk.inj declared
  obtain rfl := Outcome.returned.inj same
  rw [if_neg (by simp [success])] at rest
  have kept : KeyMarked writer.runtime after key ∧ DeclarersNamed after := by
    refine rest.invariant (fun state => KeyMarked writer.runtime state key ∧ DeclarersNamed state)
      ⟨keyMarked_of_mem _ _ member, declarersNamed_markAll _ _ namedBefore⟩ ?_
    rintro state request next ⟨marked, named⟩ ⟨step, finds⟩
    exact ⟨keyMarked_requestStep named marked step finds, declarersNamed_requestStep named step⟩
  exact kept.1

section Sample

theorem markAll_empty (runtime : Runtime) (successor : String)
    (predecessors : List String) : markAll runtime successor predecessors ∅ = ∅ := by
  apply Finmap.ext_lookup
  intro place
  rw [lookup_markAll]
  rfl

/-- The successor is stored, its declaration is repeated, and then the predecessor is written. -/
theorem keyMarked_of_memorySupersede_stored_successor :
    ∃ before result during after, Run (RequestStep sampleWriter sampleEngine) ∅
        [.write ⟨successorInA, none⟩] before ∧
      (memorySupersede sampleRuntime "adr:a:S" ["adr:a:P"]).run (storeWorld sampleEngine) before =
        (.returned result, during) ∧ result.isError = false ∧
      Run (RequestStep sampleWriter sampleEngine) during [.write ⟨predecessorOfA, none⟩] after ∧
      (∃ value, after.lookup (sampleWriter.recordPlace predecessorOfA) = some value) ∧
      KeyMarked sampleRuntime after "adr:a:P" := by
  obtain ⟨record, stored, declares⟩ := @declares_of_puts sampleWriter sampleEngine successorInA
    none ∅ (puts_empty _ _)
  have first : RequestStep sampleWriter sampleEngine ∅ (.write ⟨successorInA, none⟩)
      (sampleWriter.written sampleEngine successorInA none ∅) :=
    requestStep_of_writeStep (writeStep_of_accepts ⟨by decide, by decide⟩ (by decide))
  obtain ⟨result, ran, success⟩ := @run_memorySupersede sampleRuntime sampleEngine "adr:a:S"
    ["adr:a:P"] (sampleWriter.written sampleEngine successorInA none ∅)
  have noError : result.isError = false := success.mpr rfl
  rw [if_neg (by simp [noError])] at ran
  generalize during_eq : markAll sampleRuntime "adr:a:S" ["adr:a:P"] _ = during at ran
  have room : during.keys.card < forwardPage * sampleWriter.pages := by
    rw [← during_eq, keys_markAll]
    exact card_keys_written.trans_lt (by decide)
  have second : RequestStep sampleWriter sampleEngine during (.write ⟨predecessorOfA, none⟩)
      (sampleWriter.written sampleEngine predecessorOfA none during) :=
    requestStep_of_writeStep (writeStep_of_accepts ⟨by decide, by decide⟩ room)
  have puts : sampleWriter.Puts predecessorOfA during := by
    cases kept : during.lookup (sampleWriter.recordPlace predecessorOfA) with
    | none => simp [Puts, kept]
    | some value =>
      rw [← during_eq] at kept
      obtain ⟨source, found, _⟩ := lookup_markAll_cases kept
      exact absurd (place_of_written_empty found) (by decide)
  have finds : FindsDeclarerOf sampleWriter sampleEngine "adr:a:P" during
      (.write ⟨predecessorOfA, none⟩) := by
    intro _ _
    refine ⟨sampleWriter.recordPlace successorInA, record, ?_,
      sampleEngine.selects_own (sampleWriter.recordPlace successorInA) record (by decide), ?_⟩
    · rw [← during_eq, lookup_markAll, stored, Option.map_some, if_neg (by decide)]
    · rw [declares]
      decide
  obtain ⟨after, put, _⟩ := @declares_of_puts sampleWriter sampleEngine predecessorOfA none _ puts
  refine ⟨_, result, during, _, Run.single first, ran, noError, Run.single second, ⟨after, put⟩, ?_⟩
  exact keyMarked_of_memorySupersede sampleWriter sampleEngine ∅ _ _ _ _ _ "adr:a:S" "adr:a:P" _ _
    declarersNamed_empty (Run.single first) ran noError (by decide) (Run.single ⟨second, finds⟩)

/-- A declaration is made before its predecessor is written: the predecessor is not marked. -/
theorem unmarked_of_supersede_before_write :
    ∃ result during after, (memorySupersede sampleRuntime "adr:a:S" ["adr:a:P"]).run
        (storeWorld sampleEngine) ∅ = (.returned result, during) ∧ result.isError = false ∧
      Run (RequestStep sampleWriter sampleEngine) during [.write ⟨predecessorOfA, none⟩] after ∧
      ¬KeyMarked sampleRuntime after "adr:a:P" := by
  obtain ⟨result, ran, success⟩ := @run_memorySupersede sampleRuntime sampleEngine "adr:a:S"
    ["adr:a:P"] ∅
  have noError : result.isError = false := success.mpr rfl
  rw [if_neg (by simp [noError]), markAll_empty] at ran
  have step : RequestStep sampleWriter sampleEngine ∅ (.write ⟨predecessorOfA, none⟩)
      (sampleWriter.written sampleEngine predecessorOfA none ∅) :=
    requestStep_of_writeStep (writeStep_of_accepts ⟨by decide, by decide⟩ (by decide))
  refine ⟨result, ∅, _, ran, noError, Run.single step, ?_⟩
  refine @not_keyMarked_written sampleWriter sampleEngine predecessorOfA none ∅ (puts_empty _ _)
    ?_ ?_
  · rintro ⟨place, value, impossible, _⟩
    cases impossible
  · rintro key ⟨⟩

end Sample

end FleetMemory
